/-
Facts about the table of opcodes.

No two opcodes share a code or a mnemonic, so looking one up gives back the opcode it came from.  The
table is long, and facts about pairs of opcodes are checked along the list of all opcodes: codes
ascend, which takes one comparison for each opcode, and mnemonics are compared as numbers.
-/
import Cil.Code.Encode
import Cil.Code.Decode
import Mathlib.Data.List.Nodup

namespace Cil

namespace Opcode

theorem mem_all (op : Opcode) : op ∈ all := by
  have h : all[op.ctorIdx]? = some op := by cases op <;> rfl
  exact List.mem_of_getElem? h

/-- What a check along the list says of every opcode. -/
theorem forall_of_all {p : Opcode → Bool} (h : all.all p = true) (op : Opcode) : p op = true :=
  List.all_eq_true.mp h op (mem_all op)

/-! ### Looking up -/

/-- If no two opcodes share a key, an opcode is found by its own. -/
theorem find?_key {κ : Type} [BEq κ] [LawfulBEq κ] {key : Opcode → κ}
    (hkey : ∀ op op', key op = key op' → op = op') (op : Opcode) :
    (all.find? fun o => key o == key op) = some op := by
  have hsome : (all.find? fun o => key o == key op).isSome = true :=
    List.find?_isSome.mpr ⟨op, mem_all op, beq_self_eq_true _⟩
  obtain ⟨found, hfound⟩ := Option.isSome_iff_exists.mp hsome
  have hsame : found = op := hkey found op (eq_of_beq (List.find?_some hfound :))
  rw [hfound, hsame]

theorem code_injective (op op' : Opcode) (h : op.code = op'.code) : op = op' := by
  have hascend : (all.map fun op => op.code.toNat).IsChain (· < ·) := by decide +kernel
  have hnodup : (all.map fun op => op.code.toNat).Nodup :=
    (List.isChain_iff_pairwise.mp hascend).imp Nat.ne_of_lt
  exact List.inj_on_of_nodup_map hnodup (mem_all op) (mem_all op') (congrArg UInt16.toNat h)

@[simp] theorem ofCode?_code (op : Opcode) : ofCode? op.code = some op :=
  find?_key code_injective op

theorem code_of_ofCode? {code : UInt16} {op : Opcode} (h : ofCode? code = some op) :
    op.code = code :=
  eq_of_beq (List.find?_some h :)

/-- A text as a number, byte by byte. -/
private def number (s : String) : Nat :=
  s.toByteArray.data.toList.foldl (fun n b => 256 * n + b.toNat) 0

/-- Are the numbers pairwise different? -/
private def distinct : List Nat → Bool
  | [] => true
  | n :: rest => !rest.any (Nat.beq n) && distinct rest

private theorem nodup_of_distinct {ns : List Nat} (h : distinct ns = true) : ns.Nodup := by
  induction ns with
  | nil => exact List.nodup_nil
  | cons n rest ih =>
    obtain ⟨hnone, hrest⟩ := Bool.and_eq_true_iff.mp h
    refine List.nodup_cons.mpr ⟨?_, ih hrest⟩
    intro hmem
    have hany : rest.any (Nat.beq n) = true := List.any_eq_true.mpr ⟨n, hmem, Nat.beq_refl n⟩
    rw [hany] at hnone
    exact nomatch hnone

theorem mnemonic_injective (op op' : Opcode) (h : op.mnemonic = op'.mnemonic) : op = op' := by
  have hnodup : (all.map fun op => number op.mnemonic).Nodup :=
    nodup_of_distinct (by decide +kernel)
  exact List.inj_on_of_nodup_map hnodup (mem_all op) (mem_all op') (congrArg number h)

@[simp] theorem ofMnemonic?_mnemonic (op : Opcode) : ofMnemonic? op.mnemonic = some op :=
  find?_key mnemonic_injective op

/-! ### Codes as bytes -/

/-- A code of two bytes is the escape byte and its low byte. -/
theorem escapedCode_code {op : Opcode} (h : op.isTwoByte = true) :
    escapedCode op.code.toUInt8 = op.code := by
  have hall := forall_of_all
    (p := fun op => !op.isTwoByte || escapedCode op.code.toUInt8 == op.code) (by decide +kernel) op
  rw [h] at hall
  exact eq_of_beq hall

/-- A code of one byte is not the escape byte. -/
theorem toUInt16_code {op : Opcode} (h : op.isTwoByte = false) :
    op.code.toUInt8 ≠ escape ∧ op.code.toUInt8.toUInt16 = op.code := by
  have hall := forall_of_all
    (p := fun op => op.isTwoByte || op.code.toUInt8 != escape && op.code.toUInt8.toUInt16 == op.code)
    (by decide +kernel) op
  rw [h, Bool.false_or, Bool.and_eq_true_iff] at hall
  exact ⟨bne_iff_ne.mp hall.1, eq_of_beq hall.2⟩

theorem lt_escapedCode (second : UInt8) : 0xFF < escapedCode second := by
  have := second.toNat_lt
  simp [escapedCode, UInt16.lt_iff_toNat_lt]
  omega

theorem toUInt16_le (first : UInt8) : first.toUInt16 ≤ 0xFF := by
  have := first.toNat_lt
  simp [UInt16.le_iff_toNat_le]
  omega

theorem bytes_of_escapedCode {op : Opcode} {second : UInt8} (h : op.code = escapedCode second) :
    op.bytes = [escape, second] ∧ op.size = 2 := by
  have htwo : op.isTwoByte = true := by
    simpa [isTwoByte, h] using lt_escapedCode second
  have hsecond : op.code.toUInt8 = second := by
    rw [h]
    unfold escapedCode
    apply UInt8.toNat_inj.mp
    have := second.toNat_lt
    simp
  unfold bytes size
  rw [htwo, hsecond]
  exact ⟨rfl, rfl⟩

theorem bytes_of_toUInt16 {op : Opcode} {first : UInt8} (h : op.code = first.toUInt16) :
    op.bytes = [first] ∧ op.size = 1 := by
  have hone : op.isTwoByte = false := by
    simpa [isTwoByte, h] using toUInt16_le first
  unfold bytes size
  rw [hone, h]
  exact ⟨by simp, rfl⟩

@[simp] theorem length_bytes (op : Opcode) : op.bytes.length = op.size := by
  unfold bytes size
  split <;> rfl

/-! ### Branches -/

/-- No opcode but `switch` has a jump table. -/
theorem eq_switch_of_table {op : Opcode} (h : op.operandKind = .table) : op = .switch := by
  cases op <;> first | rfl | exact nomatch h

/-- No other branch has a table. -/
theorem eq_switch_of_kind {op : Opcode} {b : Branch} (h : op.category = .branch b)
    (htable : b.kind = .table) : op = .switch := by
  cases op <;> first | rfl | (cases h; exact nomatch htable) | exact nomatch h

/-- The operand of a branch to one label is an offset, in one byte if the branch is short. -/
theorem operandKind_of_branch {op : Opcode} {b : Branch} (h : op.category = .branch b)
    (hone : b.kind ≠ .table) : op.operandKind = if b.short then .shortTarget else .target := by
  cases op <;> first | (cases h; first | rfl | exact absurd rfl hone) | exact nomatch h

/-- An offset is the operand of a branch to one label, and of nothing else. -/
theorem branch_of_target {op : Opcode} (h : op.operandKind = .target ∨ op.operandKind = .shortTarget) :
    ∃ b, op.category = .branch b ∧ b.kind ≠ .table := by
  cases op <;> first | exact ⟨_, rfl, by decide⟩ | (rcases h with h | h <;> cases h)

/-- An instruction on a method or a field names it by a token. -/
theorem isToken_of_member {op : Opcode}
    (h : op.category.call?.isSome = true ∨ op.category.isField = true) :
    op.operandKind.isToken = true := by
  have hall := forall_of_all (p := fun op =>
    !(op.category.call?.isSome || op.category.isField) || op.operandKind.isToken)
    (by decide +kernel) op
  rwa [Bool.or_eq_true_iff.mpr h] at hall

/-- Only the two float constants have a float for an operand. -/
theorem eq_ldc_of_float {op : Opcode} (h : op.operandKind = .float32 ∨ op.operandKind = .float64) :
    op = .ldcR4 ∨ op = .ldcR8 := by
  have hall := forall_of_all (p := fun op =>
    !(op.operandKind == .float32 || op.operandKind == .float64) || op == .ldcR4 || op == .ldcR8)
    (by decide +kernel) op
  have hfloat : (op.operandKind == .float32 || op.operandKind == .float64) = true := by
    rcases h with h | h <;> rw [h] <;> rfl
  rw [hfloat, Bool.not_true, Bool.false_or, Bool.or_eq_true] at hall
  exact hall.imp eq_of_beq eq_of_beq

/-- The operand of every branch is a place in the code or a table of them. -/
theorem isBranchTarget_of_branch {op : Opcode} {b : Branch} (h : op.category = .branch b) :
    op.operandKind.isBranchTarget = true := by
  cases op <;> first | rfl | exact nomatch h

end Opcode

theorem Operand.within_iff {low high : Int} {v : Int32} :
    within low high v = true ↔ low ≤ v.toInt ∧ v.toInt ≤ high := by
  rw [within, Bool.and_eq_true, decide_eq_true_iff, decide_eq_true_iff]

end Cil
