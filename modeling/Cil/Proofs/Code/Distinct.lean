/-
Different codes have different listings.

The first line of two equal listings starts at the same offset, so what has to be told from a line is the
instruction.  Its mnemonic ends before the first space and gives the opcode, and with it the size of every
instruction but a `switch`, whose table is as long as the list of places.  So the end of the instruction is
known, and with it the distance to each place (`eq_of_lineText`).  Then both listings go on at the same
offset, and the rest follows by induction on the lines.

All floats that are not numbers are written alike, so neither code may hold one (`hasNaN`).
-/
import Cil.Proofs.Binary.Text
import Cil.Proofs.Code.Listing
import Mathlib

namespace Cil

open Text (OneLine)

/-! ### Floats that are not numbers -/

def Binary.Datum.isNaN : Binary.Datum → Bool
  | nan => true
  | _ => false

theorem Binary.Datum.ne_nan {d : Binary.Datum} (h : d.isNaN = false) : d ≠ .nan := by
  intro hnan
  rw [hnan] at h
  exact nomatch h

/-- Is the value a float that is not a number? -/
def Operand.isNaN : Operand → Bool
  | float32 bits => (Binary.single.decode bits.toNat).isNaN
  | float64 bits => (Binary.double.decode bits.toNat).isNaN
  | _ => false

/-- Does some instruction of the code have a constant that is not a number? -/
def Code.hasNaN (bytes : List UInt8) : Bool :=
  (items bytes).any fun item => item.result.toOption.any fun i => i.operand?.any Operand.isNaN

namespace Code

/-! ### Operands -/

/-- The text of an operand in the listing of an instruction that ends at `next`. -/
def operandText (k : OperandKind) (next : Nat) : Operand → String
  | .int32 v => if k.isBranchTarget then placeName ((next : Int) + v.toInt) else toString v.toInt
  | x => x.text

/-- A place before the code is written as a place so far behind it that no branch leads to both. -/
theorem eq_of_placeName {next : Nat} {u v : Int32}
    (h : placeName ((next : Int) + u.toInt) = placeName ((next : Int) + v.toInt)) : u = v := by
  have hu := u.le_toInt
  have hu' := u.toInt_lt
  have hv := v.le_toInt
  have hv' := v.toInt_lt
  rw [placeName, placeName, String.append_right_inj] at h
  have hplace := Text.hex_injective h
  apply Int32.toInt_inj.mp
  split at hplace <;> split at hplace <;> omega

theorem operandText_injective {k : OperandKind} {next m n : Nat} (hm : (k.read m).isNaN = false)
    (hn : (k.read n).isNaN = false) (h : operandText k next (k.read m) = operandText k next (k.read n)) :
    k.read m = k.read n := by
  cases k with
  | none | table => rfl
  | int8 | shortVar | var | int32 =>
    exact congrArg Operand.int32 (Int32.toInt_inj.mp (Int.repr_injective h))
  | shortTarget | target => exact congrArg Operand.int32 (eq_of_placeName h)
  | int64 => exact congrArg Operand.int64 (Int64.toInt_inj.mp (Int.repr_injective h))
  | float32 =>
    have hbits := Binary.Format.text_injective (f := Binary.single) (UInt32.toNat_lt _)
      (UInt32.toNat_lt _) (Binary.Datum.ne_nan hm) (Binary.Datum.ne_nan hn) h
    exact congrArg Operand.float32 (UInt32.toNat_inj.mp hbits)
  | float64 =>
    have hbits := Binary.Format.text_injective (f := Binary.double) (UInt64.toNat_lt _)
      (UInt64.toNat_lt _) (Binary.Datum.ne_nan hm) (Binary.Datum.ne_nan hn) h
    exact congrArg Operand.float64 (UInt64.toNat_inj.mp hbits)
  | field | method | type | string | signature | member =>
    have hbits := Text.hexUpper_injective ((String.append_right_inj "0x").mp h)
    exact congrArg (Operand.token ⟨·⟩) (UInt32.toNat_inj.mp hbits)

theorem oneLine_operandText {k : OperandKind} {n : Nat} (next : Nat) (hn : (k.read n).isNaN = false) :
    OneLine (operandText k next (k.read n)).toList := by
  have hinteger : ∀ m : Int, OneLine (toString m).toList :=
    Assembly.forall_mem_toString_int (by decide)
      (fun c hc => ⟨Assembly.ne_of_class hc rfl, Assembly.ne_of_class hc rfl⟩)
  cases k with
  | none | table => simp [OneLine, operandText, OperandKind.read, Operand.text]
  | int8 | shortVar | var | int32 => exact hinteger _
  | shortTarget | target => exact oneLine_placeName _
  | int64 => exact hinteger _
  | float32 => exact Binary.Format.oneLine_text (Binary.Datum.ne_nan hn)
  | float64 => exact Binary.Format.oneLine_text (Binary.Datum.ne_nan hn)
  | field | method | type | string | signature | member =>
    show OneLine ("0x" ++ Text.hexUpper 8 _).toList
    rw [String.toList_append]
    exact Text.oneLine_cons (by decide) (Text.oneLine_cons (by decide)
      (Text.forall_mem_hexUpper (by decide) 8 _))

/-! ### Instructions -/

theorem listingText_operand {op : Opcode} {x : Operand}
    (hformed : (Instruction.plain op x).isWellFormed = true) (hne : x ≠ .none) (next : Nat) :
    listingText (.plain op x) next = op.mnemonic ++ " " ++ operandText op.operandKind next x := by
  obtain ⟨htable, hfits⟩ := Bool.and_eq_true_iff.mp hformed
  cases x with
  | none => exact absurd rfl hne
  | int32 v =>
    by_cases htarget : op.operandKind.isBranchTarget = true
    · have hkind : op.operandKind = .target ∨ op.operandKind = .shortTarget := by
        cases hkind : op.operandKind <;> simp_all [OperandKind.isBranchTarget]
      obtain ⟨b, hcategory, hone⟩ := Opcode.branch_of_target hkind
      rw [listingText_branch hcategory hone, operandText, if_pos htarget]
    · rw [listingText_integer (Bool.eq_false_of_not_eq_true htarget), operandText, if_neg htarget]
  | token t =>
    have htoken : op.operandKind.isToken = true := by
      cases hkind : op.operandKind <;> rw [hkind] at hfits <;> exact hfits
    unfold listingText
    dsimp only [Operand.int32?]
    cases hcategory : op.category with
    | branch b =>
      have htarget := Opcode.isBranchTarget_of_branch hcategory
      cases hkind : op.operandKind <;> simp_all [OperandKind.isToken, OperandKind.isBranchTarget]
    | _ => rfl
  | uint32 v | int64 v | float32 bits | float64 bits =>
    unfold listingText
    dsimp only [Operand.int32?]
    cases op.category <;> rfl

/-- What stands after the mnemonic. -/
def tailText (next : Nat) : Instruction → String
  | .plain op x => if x = .none then "" else " " ++ operandText op.operandKind next x
  | .switch distances =>
    " (" ++ ", ".intercalate (distances.map fun d : Int32 => placeName ((next : Int) + d.toInt)) ++ ")"

theorem listingText_eq_append {i : Instruction} (hformed : i.isWellFormed = true) (next : Nat) :
    listingText i next = i.opcode.mnemonic ++ tailText next i := by
  cases i with
  | plain op x =>
    rw [tailText]
    by_cases hnone : x = .none
    · rw [if_pos hnone, hnone, listingText_bare]
      exact String.append_empty.symm
    · rw [if_neg hnone, listingText_operand hformed hnone, String.append_assoc]
      rfl
  | switch distances =>
    have hopen : "switch (" = Opcode.switch.mnemonic ++ " (" := by decide
    show Instruction.tableText _ = _
    rw [Instruction.tableText, tailText, hopen, String.append_assoc, String.append_assoc,
      String.append_assoc]
    rfl

theorem stops_tailText (next : Nat) (i : Instruction) :
    Assembly.Stops Assembly.inMnemonic (tailText next i).toList := by
  cases i with
  | plain op x =>
    rw [tailText]
    by_cases hnone : x = .none
    · rw [if_pos hnone]
      exact Assembly.stops_nil _
    · rw [if_neg hnone, String.toList_append]
      exact Assembly.stops_cons (by decide) _
  | switch distances =>
    rw [tailText, String.toList_append, String.toList_append]
    exact Assembly.stops_cons (by decide) _

/-- The mnemonic is told from what follows it. -/
theorem eq_of_mnemonic_append {i j : Instruction} {next next' : Nat}
    (h : i.opcode.mnemonic ++ tailText next i = j.opcode.mnemonic ++ tailText next' j) :
    i.opcode = j.opcode ∧ tailText next i = tailText next' j := by
  have hrun : ∀ (i : Instruction) (next : Nat),
      Assembly.run Assembly.inMnemonic (i.opcode.mnemonic ++ tailText next i).toList
        = (i.opcode.mnemonic.toList, (tailText next i).toList) := by
    intro i next
    rw [String.toList_append]
    exact Assembly.run_append i.opcode.spelled.chars (stops_tailText next i)
  have hparts := hrun i next
  rw [h, hrun j next', Prod.mk.injEq, String.toList_inj, String.toList_inj] at hparts
  exact ⟨(Opcode.mnemonic_injective _ _ hparts.1).symm, hparts.2.symm⟩

/-- An instruction that was read, with a constant that is a number if it has one. -/
structure Legible (i : Instruction) : Prop where
  isWellFormed : i.isWellFormed = true
  asRead : i.asRead = i
  isNaN : i.operand?.any Operand.isNaN = false

theorem Legible.exists_read {op : Opcode} {x : Operand} (h : Legible (.plain op x)) :
    ∃ n, x = op.operandKind.read n ∧ (op.operandKind.read n).isNaN = false := by
  have hread := OperandKind.read_bits (Bool.and_eq_true_iff.mp h.isWellFormed).2
  rw [(Instruction.plain.inj h.asRead).2] at hread
  refine ⟨_, hread.symm, ?_⟩
  rw [hread]
  exact h.isNaN

theorem oneLine_tailText {i : Instruction} (h : Legible i) (next : Nat) :
    OneLine (tailText next i).toList := by
  cases i with
  | plain op x =>
    obtain ⟨n, rfl, hnan⟩ := h.exists_read
    rw [tailText]
    by_cases hnone : op.operandKind.read n = .none
    · rw [if_pos hnone]
      simp [OneLine]
    · rw [if_neg hnone, String.toList_append]
      exact Text.oneLine_cons (by decide) (oneLine_operandText next hnan)
  | switch distances =>
    have hline := (endsLine_table (distances.map fun d : Int32 => (next : Int) + d.toInt)).2
    rw [List.map_map] at hline
    rw [tailText, String.toList_append, String.toList_append]
    exact hline

theorem eq_of_tailText_plain {op : Opcode} {x y : Operand} {next : Nat} (hx : Legible (.plain op x))
    (hy : Legible (.plain op y)) (h : tailText next (.plain op x) = tailText next (.plain op y)) :
    x = y := by
  obtain ⟨m, rfl, hm⟩ := hx.exists_read
  obtain ⟨n, rfl, hn⟩ := hy.exists_read
  have hnone : op.operandKind.read m = .none ↔ op.operandKind.read n = .none := by
    cases op.operandKind <;> simp [OperandKind.read]
  rw [tailText, tailText] at h
  by_cases hempty : op.operandKind.read m = .none
  · rw [hempty, hnone.mp hempty]
  · rw [if_neg hempty, if_neg (mt hnone.mpr hempty), String.append_right_inj] at h
    exact operandText_injective hm hn h

/-- The list of places is read back from the text of a table. -/
theorem names_of_tailText_switch {distances distances' : List Int32} {next next' : Nat}
    (h : tailText next (.switch distances) = tailText next' (.switch distances')) :
    (distances.map fun d : Int32 => placeName ((next : Int) + d.toInt))
      = distances'.map fun d : Int32 => placeName ((next' : Int) + d.toInt) := by
  have hlist : ∀ (distances : List Int32) (next : Nat),
      Assembly.labelList (tailText next (.switch distances)).toList.tail
        = some (distances.map fun d : Int32 => placeName ((next : Int) + d.toInt), []) := by
    intro distances next
    have hread := Assembly.labelList_intercalate
      (distances.map fun d : Int32 => placeLabel ((next : Int) + d.toInt)) []
    rw [List.map_map] at hread
    rw [tailText, String.toList_append, String.toList_append]
    exact hread
  have hsame := hlist distances next
  rw [h, hlist distances' next', Option.some.injEq, Prod.mk.injEq] at hsame
  exact hsame.1.symm

theorem eq_of_tailText_switch {distances distances' : List Int32} {start : Nat}
    (h : tailText (start + (Instruction.switch distances).size) (.switch distances)
      = tailText (start + (Instruction.switch distances').size) (.switch distances')) :
    distances = distances' := by
  have hnames := names_of_tailText_switch h
  -- The tables are equally long, so both instructions end at the same offset.
  have hlength : distances.length = distances'.length := by
    simpa using congrArg List.length hnames
  have hsize : (Instruction.switch distances).size = (Instruction.switch distances').size := by
    rw [Instruction.size, Instruction.size, hlength]
  rw [hsize] at hnames
  exact (List.map_inj_right fun u v => eq_of_placeName).mp hnames

/-! ### Lines -/

/-- **A line tells the instruction, if its offset is known.** -/
theorem eq_of_lineText {start : Nat} {i j : Instruction} (hi : Legible i) (hj : Legible j)
    (h : lineText start i = lineText start j) : i = j := by
  rw [lineText, lineText, String.append_right_inj, listingText_eq_append hi.isWellFormed,
    listingText_eq_append hj.isWellFormed] at h
  obtain ⟨hopcode, htail⟩ := eq_of_mnemonic_append h
  cases i with
  | plain op x =>
    cases j with
    | plain op' y =>
      obtain rfl : op = op' := hopcode
      rw [eq_of_tailText_plain hi hj htail]
    | switch distances =>
      obtain rfl : op = .switch := hopcode
      exact absurd hi.isWellFormed Bool.false_ne_true
  | switch distances =>
    cases j with
    | plain op y =>
      obtain rfl : .switch = op := hopcode
      exact absurd hj.isWellFormed Bool.false_ne_true
    | switch distances' => rw [eq_of_tailText_switch htail]

theorem eq_of_lineTexts {is js : List Instruction} (hi : ∀ i ∈ is, Legible i) (hj : ∀ j ∈ js, Legible j)
    {start : Nat} (h : lineTexts start is = lineTexts start js) : is = js := by
  induction is generalizing js start with
  | nil =>
    cases js with
    | nil => rfl
    | cons j js => exact nomatch h
  | cons i is ih =>
    cases js with
    | nil => exact nomatch h
    | cons j js =>
      obtain ⟨hline, hrest⟩ := List.cons.inj h
      rw [List.forall_mem_cons] at hi hj
      obtain rfl := eq_of_lineText hi.1 hj.1 hline
      rw [ih hi.2 hj.2 hrest]

theorem Legible.oneLine {i : Instruction} (h : Legible i) (next : Nat) :
    OneLine (listingText i next).toList := by
  rw [listingText_eq_append h.isWellFormed, String.toList_append]
  exact Text.oneLine_append i.opcode.oneLine_mnemonic (oneLine_tailText h next)

/-- Code that is read without an error is made of instructions, which are the lines of its listing. -/
theorem exists_legible {bytes : List UInt8} (h : ∀ item ∈ items bytes, item.result.isOk = true)
    (hnan : hasNaN bytes = false) :
    ∃ is, (∀ i ∈ is, Legible i) ∧ bytes = is.flatMap Instruction.bytes ∧
      listing bytes = .ok (String.join ((lineTexts 0 is).map (· ++ "\n"))) := by
  obtain ⟨is, hplaced, hbytes, hread⟩ := exists_of_items_ok bytes 0 h
  have hitems : items bytes = placed 0 is := hplaced
  refine ⟨is, ?_, hbytes, ?_⟩
  · intro i hi
    obtain ⟨hformed, -, hasRead⟩ := hread i hi
    refine ⟨hformed, hasRead, ?_⟩
    obtain ⟨item, hitem, hresult⟩ := exists_mem_placed 0 hi
    have hnumber := List.any_eq_false.mp hnan item (hitems ▸ hitem)
    simpa [hresult, Except.toOption] using hnumber
  · rw [listing, hitems, listItems_placed]
    rfl

/-- **Two codes have the same listing only if they are the same.** -/
theorem listing_eq_iff {a b : List UInt8} (ha : ∀ item ∈ items a, item.result.isOk = true)
    (hb : ∀ item ∈ items b, item.result.isOk = true) (hnan : hasNaN a = false)
    (hnan' : hasNaN b = false) : listing a = listing b ↔ a = b := by
  refine ⟨?_, congrArg listing⟩
  intro h
  obtain ⟨is, his, hbytes, hlisting⟩ := exists_legible ha hnan
  obtain ⟨js, hjs, hbytes', hlisting'⟩ := exists_legible hb hnan'
  rw [hlisting, hlisting', Except.ok.injEq] at h
  have hlines : lineTexts 0 is = lineTexts 0 js := by
    rw [← Text.lines_join (oneLine_lineTexts (fun i hi => (his i hi).oneLine) 0), h,
      Text.lines_join (oneLine_lineTexts (fun j hj => (hjs j hj).oneLine) 0)]
  rw [hbytes, hbytes', eq_of_lineTexts his hjs hlines]

/-- A call, a branch to a place before the code, a table of places out of it, a constant and a return.
The first place of the table is given by its lowest byte. -/
def outsideTargets (low : UInt8) : List UInt8 :=
  [0x28, 0x01, 0x00, 0x00, 0x0A, 0x2B, 0x80,
    0x45, 0x02, 0x00, 0x00, 0x00, low, 0x00, 0x00, 0x80, 0xFF, 0xFF, 0xFF, 0x7F,
    0x22, 0xCD, 0xCC, 0xCC, 0x3D, 0x2A]

theorem listing_outsideTargets : listing (outsideTargets 0) ≠ listing (outsideTargets 1) := by
  have hzero : (items (outsideTargets 0)).all (·.result.isOk) = true := by decide +kernel
  have hone : (items (outsideTargets 1)).all (·.result.isOk) = true := by decide +kernel
  have hnan : hasNaN (outsideTargets 0) = false := by decide +kernel
  have hnan' : hasNaN (outsideTargets 1) = false := by decide +kernel
  rw [ne_eq, listing_eq_iff (List.all_eq_true.mp hzero) (List.all_eq_true.mp hone) hnan hnan']
  decide

end Code

end Cil
