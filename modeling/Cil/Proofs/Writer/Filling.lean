/-
What stands in the cells of an instruction.

The place of an offset holds some distance.  Which one depends on the labels, on what the writer was told
of them and when; so what may stand there is left open here, as a relation between the end of the
instruction, the label and the distance (`Cell.Holds`).

Whatever the relation, if each cell of a call holds what it may then the cells together are the bytes of
one instruction: the call's own, and its offsets are such distances (`exists_instruction_of_holds`).
-/
import Cil.Proofs.Code.Codec
import Cil.Proofs.Writer.Marks
import Mathlib.Data.List.Forall2

namespace Cil

/-- The instruction that a call stands for, where it was given the token and ends at `stop`, and the
distances from there to its labels are as `R` says. -/
def Call.WrittenAs (R : Nat → Nat → Int32 → Prop) (token : Option Token) (stop : Nat) :
    Call → Instruction → Prop
  | .emit op x, i => i = .plain op x
  | .branch op label, i => ∃ distance, R stop label distance ∧ i = .plain op (.int32 distance)
  | .switch labels, i => ∃ distances, List.Forall₂ (R stop) labels distances ∧ i = .switch distances
  | .invoke op _, i | .field op _, i | .type op _, i | .token op _, i | .string op _, i =>
    i = .plain op (.token (token.getD default))
  | _, _ => False

theorem Call.tableFits_of_writtenAs {R : Nat → Nat → Int32 → Prop} {token : Option Token} {stop : Nat}
    {c : Call} {i : Instruction} (h : c.WrittenAs R token stop i)
    (htable : ∀ targets, c = .switch targets → targets.length < 2 ^ 32) : i.TableFits := by
  cases c with
  | branch op label =>
    obtain ⟨distance, -, rfl⟩ := h
    trivial
  | switch labels =>
    obtain ⟨distances, hall, rfl⟩ := h
    show distances.length < 2 ^ 32
    rw [← hall.length_eq]
    exact htable labels rfl
  | declareLocal t name => exact h.elim
  | createLabel name => exact h.elim
  | markLabel label => exact h.elim
  | finish => exact h.elim
  | _ =>
    cases h
    trivial

namespace Writer

/-- What may stand in a cell, if `R` says of the end of an instruction and a label which distances may
be put in place. -/
inductive Cell.Holds (R : Nat → Nat → Int32 → Prop) : Cell → List UInt8 → Prop
  | fixed (bytes : List UInt8) : Holds R (.fixed bytes) bytes
  | slot {f : Fixup} {distance : Int32} (hfits : f.fits distance.toInt = true)
      (h : R f.origin f.label distance) :
      Holds R (.slot f) (Code.littleEndian f.width (Operand.int32 distance).bits)

variable {R R' : Nat → Nat → Int32 → Prop} {marks : Nat → Option Nat} {f : Fixup}

theorem Cell.Holds.mono {c : Cell} {bytes : List UInt8} (h : c.Holds R bytes)
    (hR : ∀ stop label distance, R stop label distance → R' stop label distance) : c.Holds R' bytes := by
  cases h with
  | fixed bytes => exact .fixed bytes
  | slot hfits h => exact .slot hfits (hR _ _ _ h)

/-! ### Distances -/

theorem Fixup.toInt_ofInt {distance : Int} (h : f.fits distance = true) :
    (Int32.ofInt distance).toInt = distance := by
  unfold fits limit at h
  apply Int32.toInt_ofInt_of_le
  all_goals
    cases hshort : f.short <;> simp [hshort] at h <;> omega

theorem Cell.holds_of_some {target : Nat} (hmark : marks f.label = some target)
    (hfits : f.fits ((target : Int) - f.origin) = true)
    (h : ∀ distance : Int32, distance.toInt = (target : Int) - f.origin → R f.origin f.label distance) :
    (Cell.slot f).Holds R ((Cell.slot f).bytes marks) := by
  have hexact := Fixup.toInt_ofInt hfits
  have hfits' : f.fits (Int32.ofInt ((target : Int) - f.origin)).toInt = true := by
    rw [hexact]
    exact hfits
  rw [bytes_of_some hmark]
  exact .slot hfits' (h _ hexact)

/-- Zeros are the bytes of the distance zero. -/
theorem Cell.holds_zeros (h : R f.origin f.label 0) :
    (Cell.slot f).Holds R (List.replicate f.width 0) := by
  have hfits : f.fits (0 : Int32).toInt = true := by
    unfold Fixup.fits Fixup.limit
    cases f.short <;> rfl
  have hholds : (Cell.slot f).Holds R (Code.littleEndian f.width (Operand.int32 0).bits) :=
    .slot hfits h
  rw [← littleEndian_zero]
  exact hholds

/-! ### Instructions -/

theorem forall₂_holds {cells : List Cell} (h : ∀ c ∈ cells, c.Holds R (c.bytes marks)) :
    List.Forall₂ (Cell.Holds R) cells (cells.map (Cell.bytes marks)) :=
  List.forall₂_map_right_iff.mpr (List.forall₂_same.mpr h)

theorem holds_tableCells {origin position : Nat} {targets : List Nat} {chunks : List (List UInt8)}
    (h : List.Forall₂ (Cell.Holds R) (tableCells origin position targets) chunks) :
    ∃ distances, List.Forall₂ (R origin) targets distances ∧
      chunks.flatten = distances.flatMap offsetBytes := by
  induction targets generalizing position chunks with
  | nil =>
    cases h
    exact ⟨[], .nil, rfl⟩
  | cons target rest ih =>
    obtain ⟨chunk, chunks, hfirst, hrest, rfl⟩ := List.forall₂_cons_left_iff.mp h
    obtain ⟨distances, hall, hflatten⟩ := ih hrest
    cases hfirst with
    | @slot _ distance hfits hfirst =>
      exact ⟨distance :: distances, .cons hfirst hall, by
        rw [List.flatten_cons, hflatten, List.flatMap_cons]
        rfl⟩

/-- **The cells of a call are the bytes of one instruction.** -/
theorem exists_instruction_of_holds {c : Call} {op : Opcode} {token : Option Token} {start : Nat}
    {chunks : List (List UInt8)} (hop : c.opcode? = some op) (hwritable : c.Writable)
    (h : List.Forall₂ (Cell.Holds R) (c.cells token start) chunks) :
    ∃ i : Instruction, i.isWellFormed = true ∧ chunks.flatten = i.bytes ∧
      c.WrittenAs R token (start + i.size) i := by
  -- One cell that never changes is an instruction as it is.
  have hplain : ∀ i : Instruction, List.Forall₂ (Cell.Holds R) [.fixed i.bytes] chunks →
      chunks.flatten = i.bytes := by
    intro i h
    obtain ⟨chunk, chunks, hfirst, hrest, rfl⟩ := List.forall₂_cons_left_iff.mp h
    cases hfirst
    cases hrest
    exact List.append_nil _
  have hsymbolic : ∀ (op : Opcode) (t : Token), op.operandKind.isToken = true →
      List.Forall₂ (Cell.Holds R) [.fixed (Instruction.plain op (.token t)).bytes] chunks →
      ∃ i : Instruction, i.isWellFormed = true ∧ chunks.flatten = i.bytes ∧ i = .plain op (.token t) := by
    intro op t htoken h
    exact ⟨_, (isWellFormed_token op t).trans htoken, hplain _ h, rfl⟩
  cases c with
  | emit op x => exact ⟨.plain op x, hwritable, hplain _ h, rfl⟩
  | branch op label =>
    obtain ⟨b, hcategory, hone⟩ := hwritable
    obtain ⟨head, rest, hhead, hrest, rfl⟩ := List.forall₂_cons_left_iff.mp h
    obtain ⟨place, last, hplace, hlast, rfl⟩ := List.forall₂_cons_left_iff.mp hrest
    obtain rfl := List.forall₂_nil_left_iff.mp hlast
    cases hhead
    cases hplace with
    | @slot _ distance hfits hdistance =>
      rw [fits_branchPlace hcategory hone] at hfits
      refine ⟨.plain op (.int32 distance), hfits, ?_, distance, ?_, rfl⟩
      · rw [width_branchPlace hcategory hone, Instruction.bytes]
        simp
      · rw [Instruction.size, ← Nat.add_assoc]
        exact hdistance
  | switch targets =>
    obtain ⟨head, rest, hhead, hrest, rfl⟩ := List.forall₂_cons_left_iff.mp h
    obtain ⟨distances, hall, hflatten⟩ := holds_tableCells hrest
    have hlength := hall.length_eq
    cases hhead
    rw [Nat.add_assoc, hlength] at hall
    refine ⟨.switch distances, rfl, ?_, distances, hall, rfl⟩
    rw [List.flatten_cons, hflatten, tableHead, hlength, Instruction.bytes]
  | invoke op m => exact hsymbolic op _ hwritable h
  | field op f => exact hsymbolic op _ hwritable h
  | type op t => exact hsymbolic op _ hwritable h
  | token op m => exact hsymbolic op _ hwritable h
  | string op value => exact hsymbolic op _ hwritable h
  | _ => cases hop

end Writer

end Cil
