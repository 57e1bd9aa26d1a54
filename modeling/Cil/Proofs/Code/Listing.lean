/-
A listing is read back line by line.

Each line of a listing names the place of its instruction and the places it leads to.  Such a line is
read as a label and an instruction whose operand is `written`: an integer, a place, or a list of places.
That holds for every instruction whose operand is neither a token nor a float (`Listed`), and these are
told apart by the kind of their operand only once, in `listed_of_wellFormed`.
-/
import Cil.Code.Listing
import Cil.Proofs.Assembly.Reading
import Cil.Proofs.Code.Codec

namespace Cil

open Assembly (IsIdentifier Identifier Mnemonic EndsLine Written)
open Text (OneLine)

namespace Code

/-! ### Names of places -/

theorem toList_placeName (offset : Int) :
    ∃ n, (placeName offset).toList = 'I' :: 'L' :: '_' :: (Text.hex 4 n).toList :=
  ⟨_, String.toList_append⟩

theorem placeName_injective {m n : Nat} (h : placeName m = placeName n) : m = n := by
  have hname : ∀ k : Nat, placeName k = "IL_" ++ Text.hex 4 k := by
    intro k
    rw [placeName, if_neg (by omega), Int.toNat_natCast]
  rw [hname, hname, String.append_right_inj] at h
  exact Text.hex_injective h

/-- What holds of the letters of `IL_` and of the digits holds of every character of a name. -/
theorem forall_mem_placeName {p : Char → Prop} (hletters : p 'I' ∧ p 'L' ∧ p '_')
    (hdigits : ∀ d < 16, p (Nat.digitChar d)) (offset : Int) :
    ∀ c ∈ (placeName offset).toList, p c := by
  obtain ⟨n, hn⟩ := toList_placeName offset
  intro c hc
  rw [hn] at hc
  simp only [List.mem_cons] at hc
  rcases hc with rfl | rfl | rfl | hc
  · exact hletters.1
  · exact hletters.2.1
  · exact hletters.2.2
  · exact Text.forall_mem_hex hdigits 4 n c hc

theorem isIdentifier_placeName (offset : Int) : IsIdentifier (placeName offset).toList := by
  obtain ⟨n, hn⟩ := toList_placeName offset
  have hcontinues := forall_mem_placeName (p := fun c => Assembly.continuesIdentifier c = true)
    (by decide) (by decide) offset
  refine ⟨⟨'I', by rw [hn]; rfl, by decide⟩, ?_⟩
  intro c hc
  exact hcontinues c (List.mem_of_mem_tail hc)

def placeLabel (offset : Int) : Identifier := ⟨placeName offset, isIdentifier_placeName offset⟩

theorem operand_placeName (offset : Int) :
    Assembly.operand (placeName offset).toList = .ok (some (.name (placeName offset), [])) := by
  obtain ⟨n, hn⟩ := toList_placeName offset
  have hname := forall_mem_placeName (p := fun c => Assembly.inName c = true)
    (by decide) (by decide) offset
  rw [hn] at hname
  have hoperand := Assembly.operand_name (by decide) hname Assembly.ends_nil
  rw [List.append_nil, ← hn, String.ofList_toList] at hoperand
  exact hoperand

theorem oneLine_placeName (offset : Int) : OneLine (placeName offset).toList :=
  forall_mem_placeName (p := fun c => c ≠ '\n' ∧ c ≠ '\r') (by decide) (by decide) offset

end Code

theorem Opcode.all_mnemonic (op : Opcode) : op.mnemonic.toList ≠ [] ∧
    op.mnemonic.toList.all Assembly.inMnemonic = true ∧
    ¬ ['.', 'l', 'o', 'c', 'a', 'l', 's'] <+: op.mnemonic.toList := by
  have hall := forall_of_all (p := fun op =>
    op.mnemonic.toList.head?.any Char.isAlpha && op.mnemonic.toList.all Assembly.inMnemonic)
    (by decide +kernel) op
  obtain ⟨hhead, hin⟩ := Bool.and_eq_true_iff.mp hall
  -- A mnemonic starts with a letter, and so not with a point.
  cases hcons : op.mnemonic.toList with
  | nil =>
    rw [hcons] at hhead
    cases hhead
  | cons c rest =>
    rw [hcons] at hhead hin
    refine ⟨List.cons_ne_nil c rest, hin, ?_⟩
    rintro ⟨after, heq⟩
    obtain rfl : '.' = c := (List.cons.inj heq).1
    have hpoint : '.'.isAlpha = true := hhead
    exact absurd hpoint (by decide)

/-- The mnemonic of an opcode is one that can be read. -/
def Opcode.spelled (op : Opcode) : Mnemonic where
  text := op.mnemonic
  ne_nil := op.all_mnemonic.1
  chars := List.all_eq_true.mp op.all_mnemonic.2.1
  not_locals := op.all_mnemonic.2.2

theorem Opcode.oneLine_mnemonic (op : Opcode) : OneLine op.mnemonic.toList := by
  intro c hc
  have hin := op.spelled.chars c hc
  exact ⟨Assembly.ne_of_class hin (by decide), Assembly.ne_of_class hin (by decide)⟩

/-! ### Instructions -/

/-- An instruction that can be written, whose operand is neither a token nor a float. -/
inductive Listed : Instruction → Prop
  | bare {op : Opcode} (hformed : (Instruction.plain op .none).isWellFormed = true)
      (hkind : op.operandKind = .none) : Listed (.plain op .none)
  | integer {op : Opcode} {v : Int32} (hformed : (Instruction.plain op (.int32 v)).isWellFormed = true)
      (hkind : op.operandKind = .int8 ∨ op.operandKind = .int32 ∨ op.operandKind = .shortVar ∨
        op.operandKind = .var) : Listed (.plain op (.int32 v))
  | long {op : Opcode} {v : Int64} (hformed : (Instruction.plain op (.int64 v)).isWellFormed = true)
      (hkind : op.operandKind = .int64) : Listed (.plain op (.int64 v))
  | branch {op : Opcode} {b : Branch} {v : Int32}
      (hformed : (Instruction.plain op (.int32 v)).isWellFormed = true)
      (hcategory : op.category = .branch b) (hone : b.kind ≠ .table) : Listed (.plain op (.int32 v))
  | switch {distances : List Int32} : Listed (.switch distances)

/-- The distances of the branches of an instruction. -/
def Instruction.distances : Instruction → List Int32
  | .switch distances => distances
  | .plain op (.int32 distance) => if op.operandKind.isBranchTarget then [distance] else []
  | .plain _ _ => []

theorem listed_of_wellFormed {i : Instruction} (hformed : i.isWellFormed = true)
    (htoken : i.opcode.operandKind.isToken = false) (hsingle : i.opcode ≠ .ldcR4)
    (hdouble : i.opcode ≠ .ldcR8) : Listed i := by
  cases i with
  | switch distances => exact .switch
  | plain op x =>
    have hfits := (Bool.and_eq_true_iff.mp hformed).2
    have htoken : op.operandKind.isToken = false := htoken
    have hfloat : ¬(op.operandKind = .float32 ∨ op.operandKind = .float64) := fun h =>
      (Opcode.eq_ldc_of_float h).elim hsingle hdouble
    cases x with
    | none =>
      cases hkind : op.operandKind with
      | none => exact .bare hformed hkind
      | _ => exact nomatch hkind ▸ hfits
    | int32 v =>
      cases hkind : op.operandKind with
      | int8 => exact .integer hformed (.inl hkind)
      | int32 => exact .integer hformed (.inr (.inl hkind))
      | shortVar => exact .integer hformed (.inr (.inr (.inl hkind)))
      | var => exact .integer hformed (.inr (.inr (.inr hkind)))
      | target =>
        obtain ⟨b, hcategory, hone⟩ := Opcode.branch_of_target (.inl hkind)
        exact .branch hformed hcategory hone
      | shortTarget =>
        obtain ⟨b, hcategory, hone⟩ := Opcode.branch_of_target (.inr hkind)
        exact .branch hformed hcategory hone
      | field | method | type | string | signature | member => exact nomatch hkind ▸ htoken
      | _ => exact nomatch hkind ▸ hfits
    | int64 v =>
      cases hkind : op.operandKind with
      | int64 => exact .long hformed hkind
      | _ => exact nomatch hkind ▸ hfits
    | float32 bits =>
      cases hkind : op.operandKind with
      | float32 => exact absurd (.inl hkind) hfloat
      | _ => exact nomatch hkind ▸ hfits
    | float64 bits =>
      cases hkind : op.operandKind with
      | float64 => exact absurd (.inr hkind) hfloat
      | _ => exact nomatch hkind ▸ hfits
    | uint32 v => cases hkind : op.operandKind <;> exact nomatch hkind ▸ hfits
    | token t =>
      have hsame : (Operand.token t).fits op.operandKind = op.operandKind.isToken := by
        cases op.operandKind <;> rfl
      exact nomatch htoken.symm.trans (hsame.symm.trans hfits)

theorem isBranchTarget_of_integer {k : OperandKind}
    (h : k = .int8 ∨ k = .int32 ∨ k = .shortVar ∨ k = .var) : k.isBranchTarget = false := by
  rcases h with rfl | rfl | rfl | rfl <;> rfl

namespace Code

/-- The operand of an instruction that ends at `next`, as the listing writes it. -/
def written (next : Nat) : Instruction → Option Written
  | .switch distances =>
    some (.labels (distances.map fun d : Int32 => placeName ((next : Int) + d.toInt)))
  | .plain op (.int32 v) =>
    if op.operandKind.isBranchTarget then some (.name (placeName ((next : Int) + v.toInt)))
    else some (.integer v.toInt64)
  | .plain _ (.int64 v) => some (.integer v)
  | .plain _ _ => none

theorem listingText_integer {op : Opcode} (hkind : op.operandKind.isBranchTarget = false) (v : Int32)
    (next : Nat) : listingText (.plain op (.int32 v)) next = op.mnemonic ++ " " ++ toString v.toInt := by
  unfold listingText
  dsimp only [Operand.int32?]
  cases hcategory : op.category with
  | branch b => exact nomatch hkind.symm.trans (Opcode.isBranchTarget_of_branch hcategory)
  | _ => rfl

theorem listingText_long (op : Opcode) (v : Int64) (next : Nat) :
    listingText (.plain op (.int64 v)) next = op.mnemonic ++ " " ++ toString v.toInt := by
  unfold listingText
  dsimp only [Operand.int32?]
  cases op.category <;> rfl

theorem listingText_bare (op : Opcode) (next : Nat) :
    listingText (.plain op .none) next = op.mnemonic := by
  unfold listingText
  dsimp only [Operand.int32?]
  cases op.category <;> rfl

theorem listingText_branch {op : Opcode} {b : Branch} (hcategory : op.category = .branch b)
    (hone : b.kind ≠ .table) (v : Int32) (next : Nat) :
    listingText (.plain op (.int32 v)) next
      = op.mnemonic ++ " " ++ placeName ((next : Int) + v.toInt) := by
  unfold listingText
  dsimp only [Operand.int32?]
  rw [hcategory]
  exact if_neg hone

theorem append_space (m text : String) :
    m ++ " " ++ text = m ++ String.ofList (' ' :: text.toList) := by
  apply String.toList_inj.mp
  simp only [String.toList_append, String.toList_ofList, List.append_assoc]
  rfl

theorem endsLine_integer {n : Int} (hlow : -0x8000000000000000 ≤ n) (hhigh : n < 0x8000000000000000) :
    EndsLine (' ' :: (toString n).toList) (some (.integer (Int64.ofInt n))) ∧
      OneLine (' ' :: (toString n).toList) := by
  have hgap := Assembly.forall_mem_toString_int (p := fun c => Text.isGap c = false) (by decide)
    (fun c hc => Assembly.isGap_of_class hc rfl rfl) n
  have hline := Assembly.forall_mem_toString_int (p := fun c => c ≠ '\n' ∧ c ≠ '\r') (by decide)
    (fun c hc => ⟨Assembly.ne_of_class hc rfl, Assembly.ne_of_class hc rfl⟩) n
  have hoperand := Assembly.operand_toString hlow hhigh Assembly.ends_nil
  rw [List.append_nil] at hoperand
  exact ⟨Assembly.endsLine_space hoperand (Assembly.stops_of_forall hgap),
    Text.oneLine_cons (by decide) hline⟩

theorem endsLine_placeName (offset : Int) :
    EndsLine (' ' :: (placeName offset).toList) (some (.name (placeName offset))) ∧
      OneLine (' ' :: (placeName offset).toList) := by
  have hstops := (isIdentifier_placeName offset).stops_gap []
  rw [List.append_nil] at hstops
  exact ⟨Assembly.endsLine_space (operand_placeName offset) hstops,
    Text.oneLine_cons (by decide) (oneLine_placeName offset)⟩

theorem endsLine_table (places : List Int) :
    EndsLine (' ' :: '(' :: ((", ".intercalate (places.map placeName)).toList ++ [')']))
        (some (.labels (places.map placeName))) ∧
      OneLine (' ' :: '(' :: ((", ".intercalate (places.map placeName)).toList ++ [')'])) := by
  have hnames : ∀ places : List Int, (places.map placeLabel).map Identifier.text = places.map placeName := by
    intro places
    rw [List.map_map]
    rfl
  have hline : OneLine (", ".intercalate (places.map placeName)).toList := by
    cases places with
    | nil => simp [OneLine]
    | cons offset places =>
      rw [← hnames, List.map_cons, Assembly.toList_intercalate_comma]
      refine Text.oneLine_append (oneLine_placeName offset) ?_
      intro c hc
      obtain ⟨n, hn, hc⟩ := List.mem_flatMap.mp hc
      obtain ⟨label, hlabel, rfl⟩ := List.mem_map.mp hn
      obtain ⟨offset, -, rfl⟩ := List.mem_map.mp hlabel
      exact Text.oneLine_cons (by decide) (Text.oneLine_cons (by decide) (oneLine_placeName offset)) c hc
  have hlist := Assembly.labelList_intercalate (places.map placeLabel) []
  rw [hnames] at hlist
  refine ⟨Assembly.endsLine_space (Assembly.operand_of_labelList hlist)
    (Assembly.stops_cons (by decide) _), ?_⟩
  exact Text.oneLine_cons (by decide) (Text.oneLine_cons (by decide)
    (Text.oneLine_append hline (by simp [OneLine])))

/-- What stands after the mnemonic is read as the operand. -/
theorem listingText_eq {i : Instruction} (h : Listed i) (next : Nat) :
    ∃ tail, listingText i next = i.opcode.mnemonic ++ String.ofList tail ∧
      EndsLine tail (written next i) ∧ OneLine tail := by
  cases h with
  | @bare op _ _ =>
    refine ⟨[], ?_, Assembly.endsLine_nil, by simp [OneLine]⟩
    rw [listingText_bare]
    exact String.append_empty.symm
  | @integer op v _ hkind =>
    have htarget := isBranchTarget_of_integer hkind
    have hlow := v.le_toInt
    have hhigh := v.toInt_lt
    obtain ⟨hends, hline⟩ := endsLine_integer (n := v.toInt) (by omega) (by omega)
    refine ⟨_, (listingText_integer htarget v next).trans (append_space _ _), ?_, hline⟩
    have hsame : Int64.ofInt v.toInt = v.toInt64 := by
      apply Int64.toInt_inj.mp
      rw [Int64.toInt_ofInt_of_le (by omega) (by omega), Int32.toInt_toInt64]
    show EndsLine _ (if op.operandKind.isBranchTarget then _ else some (.integer v.toInt64))
    rw [htarget, ← hsame]
    exact hends
  | @long op v _ _ =>
    obtain ⟨hends, hline⟩ := endsLine_integer v.le_toInt v.toInt_lt
    refine ⟨_, (listingText_long op v next).trans (append_space _ _), ?_, hline⟩
    rw [Int64.ofInt_toInt] at hends
    exact hends
  | @branch op b v _ hcategory hone =>
    obtain ⟨hends, hline⟩ := endsLine_placeName ((next : Int) + v.toInt)
    refine ⟨_, (listingText_branch hcategory hone v next).trans (append_space _ _), ?_, hline⟩
    show EndsLine _ (if op.operandKind.isBranchTarget then _ else _)
    rw [if_pos (Opcode.isBranchTarget_of_branch hcategory)]
    exact hends
  | @switch distances =>
    obtain ⟨hends, hline⟩ := endsLine_table (distances.map fun d : Int32 => (next : Int) + d.toInt)
    rw [List.map_map] at hends hline
    refine ⟨_, ?_, hends, hline⟩
    have hopen : "switch (".toList = Opcode.switch.mnemonic.toList ++ [' ', '('] := by decide
    apply String.toList_inj.mp
    rw [String.toList_append, String.toList_ofList]
    show (("switch (" ++ ", ".intercalate _) ++ ")").toList = _
    rw [String.toList_append, String.toList_append, hopen, List.append_assoc, List.append_assoc]
    rfl

/-! ### Lines -/

/-- A line of a listing without its end. -/
def lineText (offset : Nat) (i : Instruction) : String :=
  placeName offset ++ ": " ++ listingText i (offset + i.size)

theorem parse_lineText {i : Instruction} (h : Listed i) (offset : Nat) :
    Assembly.Line.parse (lineText offset i) = .ok ⟨some (placeName offset),
      some (.instruction i.opcode.mnemonic (written (offset + i.size) i))⟩ := by
  obtain ⟨tail, htext, hends, -⟩ := listingText_eq h (offset + i.size)
  rw [lineText, htext, ← String.append_assoc]
  exact Assembly.parse_instruction (placeLabel offset) i.opcode.spelled hends

theorem oneLine_listingText {i : Instruction} (h : Listed i) (next : Nat) :
    OneLine (listingText i next).toList := by
  obtain ⟨tail, htext, -, hline⟩ := listingText_eq h next
  rw [htext, String.toList_append, String.toList_ofList]
  exact Text.oneLine_append i.opcode.oneLine_mnemonic hline

theorem oneLine_lineText {i : Instruction} (h : ∀ next, OneLine (listingText i next).toList)
    (offset : Nat) : OneLine (lineText offset i).toList := by
  rw [lineText, String.toList_append, String.toList_append]
  refine Text.oneLine_append (Text.oneLine_append (oneLine_placeName offset) ?_) (h _)
  exact Text.oneLine_cons (by decide) (Text.oneLine_cons (by decide) (by simp [OneLine]))

/-- The lines of instructions one after another, from the given offset on. -/
def lineTexts (start : Nat) : List Instruction → List String
  | [] => []
  | i :: rest => lineText start i :: lineTexts (start + i.size) rest

theorem listItems_placed (start : Nat) (is : List Instruction) :
    listItems (placed start is) = .ok ((lineTexts start is).map (· ++ "\n")) := by
  induction is generalizing start with
  | nil => rfl
  | cons i rest ih =>
    rw [placed, listItems, ih]
    rfl

theorem oneLine_lineTexts {is : List Instruction}
    (h : ∀ i ∈ is, ∀ next, OneLine (listingText i next).toList) (start : Nat) :
    ∀ l ∈ lineTexts start is, OneLine l.toList := by
  induction is generalizing start with
  | nil => exact fun l hl => absurd hl List.not_mem_nil
  | cons i rest ih =>
    rw [lineTexts, List.forall_mem_cons]
    exact ⟨oneLine_lineText (h i List.mem_cons_self) start,
      ih (fun j hj => h j (List.mem_cons_of_mem i hj)) _⟩

/-- **A listing has a line for each instruction.** -/
theorem exists_listing {bytes : List UInt8} {is : List Instruction}
    (hitems : items bytes = placed 0 is) (h : ∀ i ∈ is, Listed i) :
    ∃ text, listing bytes = .ok text ∧ Text.lines text = lineTexts 0 is := by
  have hline := oneLine_lineTexts (fun i hi => oneLine_listingText (h i hi)) 0
  refine ⟨String.join ((lineTexts 0 is).map (· ++ "\n")), ?_, Text.lines_join hline⟩
  rw [listing, hitems, listItems_placed]
  rfl

end Code

end Cil
