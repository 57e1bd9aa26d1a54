/-
Why a writer refuses a call.

A writer refuses an operand that has no encoding, a label it does not know, a second mark for a label,
a body that ends with a label unmarked, and a distance that does not fit its place.  The first four are
faults of the caller.  The last is not: whether a distance fits is known only once both ends have a
position, and that is the writer's business alone.

So if a call is free of the caller's faults, which is easy to state of the writer and the call
(`Writable` and known labels), the writer accepts it or finds a distance too large (`IsOutOfRange`).
-/
import Cil.Proofs.Writer.Marks

namespace Cil

/-- Is a distance found too large for its place? -/
def Rejection.IsOutOfRange (e : Rejection) : Prop :=
  ∃ op label distance, e = .write (.branchOutOfRange op label distance)

namespace Writer

variable {π : Type} {w w' : Writer π} {f : Fixup} {e : Rejection}

/-! ### Putting distances in place -/

theorem patch_error (hmarked : (w.mark? f.label).isSome = true) (h : patch f w = .error e w') :
    e.IsOutOfRange := by
  unfold mark? at hmarked
  unfold patch at h
  cases hslot : w.labels[f.label]? with
  | none => simp [hslot] at hmarked
  | some slot =>
    cases hoffset : slot.offset with
    | none => simp [hslot, hoffset] at hmarked
    | some target =>
      rw [hslot] at h
      dsimp only at h
      rw [hoffset] at h
      dsimp only at h
      split at h
      · cases h
      · cases h
        exact ⟨_, _, _, rfl⟩

theorem labels_of_patch {u : Unit} (h : patch f w = .ok u w') : w'.labels = w.labels := by
  obtain ⟨target, -, -, rfl⟩ := patch_ok.mp h
  rfl

theorem mark?_eq_of_labels (h : w'.labels = w.labels) : w'.mark? = w.mark? := by
  funext label
  rw [mark?, mark?, h]

theorem forM_patch_error {fs : List Fixup} (hmarked : ∀ f ∈ fs, (w.mark? f.label).isSome = true)
    (h : (fs.forM patch : Step (Writer π) Unit) w = .error e w') : e.IsOutOfRange := by
  induction fs generalizing w with
  | nil => exact nomatch h
  | cons f rest ih =>
    rcases Step.bind_error.mp h with hpatch | ⟨u, w₁, hpatch, hrest⟩
    · exact patch_error (hmarked f List.mem_cons_self) hpatch
    · refine ih (fun f' hf' => ?_) hrest
      rw [mark?_eq_of_labels (labels_of_patch hpatch)]
      exact hmarked f' (List.mem_cons_of_mem f hf')

theorem mark_error {label : Nat} (hlabel : label < w.labels.size) (hunmarked : w.mark? label = none)
    (h : mark label w = .error e w') : e.IsOutOfRange := by
  have hslot : w.labels[label]? = some w.labels[label] := by simp [hlabel]
  have hoffset : w.labels[label].offset = none := by simpa [mark?, hslot] using hunmarked
  unfold mark at h
  rw [hslot] at h
  simp only [hoffset, Option.isSome_none, Bool.false_eq_true, if_false] at h
  refine forM_patch_error (fun f hf => ?_) h
  rw [List.partition_eq_filter_filter] at hf
  have hf' : f.label = label := of_decide_eq_true (List.mem_filter.mp hf).2
  simp [mark?, hf', hlabel]

theorem refer_error (hlabel : f.label < w.labels.size) (h : refer f w = .error e w') :
    e.IsOutOfRange := by
  have hslot : w.labels[f.label]? = some w.labels[f.label] := by simp [hlabel]
  unfold refer at h
  rw [hslot] at h
  dsimp only at h
  split at h
  · next target hoffset => exact patch_error (by simp [mark?, hlabel, hoffset]) h
  · cases h

theorem labels_of_refer {u : Unit} (h : refer f w = .ok u w') : w'.labels = w.labels := by
  obtain ⟨-, rfl⟩ := refer_ok.mp h
  split <;> rfl

theorem referTable_error {origin position : Nat} {targets : List Nat}
    (hlabels : ∀ f, .slot f ∈ tableCells origin position targets → f.label < w.labels.size)
    (h : referTable origin position targets w = .error e w') : e.IsOutOfRange := by
  induction targets generalizing position w with
  | nil => exact nomatch h
  | cons target rest ih =>
    rcases Step.bind_error.mp h with hrefer | ⟨u, w₁, hrefer, hrest⟩
    · exact refer_error (hlabels _ List.mem_cons_self) hrefer
    · refine ih (fun f hf => ?_) hrest
      rw [labels_of_refer hrefer]
      exact hlabels f (List.mem_cons_of_mem _ hf)

/-! ### Instructions -/

theorem write_error {i : Instruction} (h : write i w = .error e w') : i.isWellFormed = false := by
  cases hformed : i.isWellFormed with
  | false => rfl
  | true =>
    have hok : write i w = .ok () (w.padded i.bytes) := write_ok.mpr ⟨hformed, rfl⟩
    rw [hok] at h
    cases h

theorem branch_error {op : Opcode} {target : Nat} {b : Branch} (hcategory : op.category = .branch b)
    (hone : b.kind ≠ .table) (hlabel : target < w.labels.size)
    (h : branch op target w = .error e w') : e.IsOutOfRange := by
  unfold branch at h
  rw [hcategory] at h
  dsimp only at h
  rw [if_neg hone] at h
  rcases Step.bind_error.mp h with hwrite | ⟨u, w₁, hwrite, hrefer⟩
  · have hformed := isWellFormed_branch_zero hcategory hone
    rw [write_error hwrite] at hformed
    cases hformed
  · obtain ⟨-, rfl⟩ := write_ok.mp hwrite
    exact refer_error hlabel hrefer

theorem switch_error {targets : List Nat}
    (hlabels : ∀ f, .slot f ∈ switchCells targets w.offset → f.label < w.labels.size)
    (h : switch targets w = .error e w') : e.IsOutOfRange := by
  rcases Step.bind_error.mp h with hwrite | ⟨u, w₁, hwrite, hrefer⟩
  · exact nomatch write_error hwrite
  · obtain ⟨-, rfl⟩ := write_ok.mp hwrite
    rw [Step.get_bind, offset_padded_switch, Nat.add_sub_cancel] at hrefer
    refine referTable_error ?_ hrefer
    intro f hf
    exact hlabels f (List.mem_cons_of_mem _ hf)

theorem writeToken_error {op : Opcode} {request : π → Token × π} (htoken : op.operandKind.isToken = true)
    (h : writeToken op request w = .error e w') : e.IsOutOfRange := by
  rcases Step.bind_error.mp h with hask | ⟨token, w₁, -, hwrite⟩
  · exact nomatch hask
  · have hformed := write_error hwrite
    rw [isWellFormed_token, htoken] at hformed
    cases hformed

theorem silent_error {m : Step (Writer π) Unit}
    (h : (do m; return none : Step (Writer π) (Option Nat)) w = .error e w') : m w = .error e w' := by
  rcases Step.bind_error.mp h with hm | ⟨u, w₁, -, hreturn⟩
  · exact hm
  · exact nomatch hreturn

/-- If every offset that waits is for a known label, a body ends or has one that waits. -/
theorem finish_error (hknown : ∀ f ∈ w.fixups, f.label < w.labels.size)
    (h : finish w = .error e w') : w.fixups ≠ [] ∧ ∃ name, e = .write (.unmarkedLabel name) := by
  unfold finish at h
  cases hfixups : w.fixups with
  | nil =>
    rw [hfixups] at h
    cases h
  | cons f rest =>
    have hlabel : f.label < w.labels.size := hknown f (by simp [hfixups])
    have hslot : w.labels[f.label]? = some w.labels[f.label] := by simp [hlabel]
    rw [hfixups] at h
    dsimp only at h
    rw [hslot] at h
    cases h
    exact ⟨List.cons_ne_nil f rest, _, rfl⟩

/-- An instruction that can be written and whose labels are known is refused only for a distance. -/
theorem step_instruction_error [TokenProvider π] {c : Call} {op : Opcode} (hop : c.opcode? = some op)
    (hwritable : c.Writable) (hlabels : ∀ f, .slot f ∈ added c w → f.label < w.labels.size)
    (h : Sink.step c w = .error e w') : e.IsOutOfRange := by
  cases c with
  | emit op x =>
    have hformed := write_error (silent_error h)
    rw [show (Instruction.plain op x).isWellFormed = true from hwritable] at hformed
    cases hformed
  | branch op target =>
    obtain ⟨b, hcategory, hone⟩ := hwritable
    have hlabel := hlabels (branchPlace op target w.offset) (by simp [added, Call.cells])
    exact branch_error hcategory hone hlabel (silent_error h)
  | switch targets => exact switch_error hlabels (silent_error h)
  | invoke op m => exact writeToken_error hwritable (silent_error h)
  | field op f => exact writeToken_error hwritable (silent_error h)
  | type op t => exact writeToken_error hwritable (silent_error h)
  | token op m => exact writeToken_error hwritable (silent_error h)
  | string op value => exact writeToken_error hwritable (silent_error h)
  | _ => exact nomatch hop

end Writer

end Cil
