/-
What a refused call leaves behind.

A writer does not undo what it did before it found the fault.  A branch whose label is not known, or is
too far away, stays in the code with a zero offset, and a jump table stays with the entries that were
settled before the bad one.  A mark that cannot be reached from one of the branches to it stays too: the
branches before that one are settled and the rest is forgotten, whether it could be reached or not.

In all of these the code is that of the same cells as before, but for some places that hold zeros for
good (`Cell.cleared`).  No fixup waits for such a place, so nothing else has to change in the account of
the code: what is left behind is again the image of cells (`step_instruction_refused`, `mark_refused`).
-/
import Cil.Proofs.Writer.Refusals

namespace Cil

namespace Writer

variable {π : Type} {w w' : Writer π} {f : Fixup} {e : Rejection}

/-! ### Places that are given up -/

/-- The cell with zeros for good, if it is the place of an offset to a label that is lost. -/
def Cell.cleared (lost : Nat → Bool) : Cell → Cell
  | .fixed bytes => .fixed bytes
  | .slot f => if lost f.label then .fixed (List.replicate f.width 0) else .slot f

theorem Cell.cleared_of_lost {lost : Nat → Bool} (h : lost f.label = true) :
    (slot f).cleared lost = .fixed (List.replicate f.width 0) :=
  if_pos h

theorem Cell.cleared_of_not_lost {lost : Nat → Bool} (h : lost f.label = false) :
    (slot f).cleared lost = .slot f :=
  if_neg (by simp [h])

theorem Cell.bytes_cleared {lost : Nat → Bool} {marks marks' : Nat → Option Nat}
    (hlost : ∀ label, lost label = true → marks label = none)
    (hothers : ∀ label, lost label = false → marks' label = marks label) (c : Cell) :
    (c.cleared lost).bytes marks' = c.bytes marks := by
  cases c with
  | fixed bytes => rfl
  | slot f =>
    cases hf : lost f.label with
    | true =>
      rw [cleared_of_lost hf, bytes_of_none (hlost f.label hf)]
      rfl
    | false =>
      rw [cleared_of_not_lost hf]
      simp only [bytes, hothers f.label hf]

theorem Cell.waiting_cleared {lost : Nat → Bool} {marks : Nat → Option Nat}
    (hlost : ∀ label, lost label = true → (marks label).isSome = true) (c : Cell) :
    (c.cleared lost).waiting marks = c.waiting marks := by
  cases c with
  | fixed bytes => rfl
  | slot f =>
    cases hf : lost f.label with
    | true =>
      obtain ⟨target, htarget⟩ := Option.isSome_iff_exists.mp (hlost f.label hf)
      rw [cleared_of_lost hf, waiting_of_some htarget]
      rfl
    | false => rw [cleared_of_not_lost hf]

theorem Cell.slot_of_cleared {lost : Nat → Bool} {c : Cell} (h : c.cleared lost = .slot f) :
    c = .slot f ∧ lost f.label = false := by
  cases c with
  | fixed bytes => exact nomatch h
  | slot g =>
    cases hg : lost g.label with
    | true =>
      rw [cleared_of_lost hg] at h
      cases h
    | false =>
      rw [cleared_of_not_lost hg] at h
      cases h
      exact ⟨rfl, hg⟩

theorem slot_mem_cleared {lost : Nat → Bool} {cells : List Cell}
    (h : .slot f ∈ cells.map (Cell.cleared lost)) : .slot f ∈ cells ∧ lost f.label = false := by
  obtain ⟨c, hc, hcleared⟩ := List.mem_map.mp h
  obtain ⟨rfl, hlost⟩ := Cell.slot_of_cleared hcleared
  exact ⟨hc, hlost⟩

theorem placed_cleared (lost : Nat → Bool) {start : Nat} {cells : List Cell} (h : Placed start cells) :
    Placed start (cells.map (Cell.cleared lost)) := by
  induction cells generalizing start with
  | nil => trivial
  | cons c rest ih =>
    cases c with
    | fixed bytes => exact ih h
    | slot f =>
      obtain ⟨hposition, hrest⟩ := h
      rw [List.map_cons]
      cases hf : lost f.label with
      | true =>
        rw [Cell.cleared_of_lost hf]
        show Placed (start + (List.replicate f.width (0 : UInt8)).length) _
        rw [List.length_replicate]
        exact ih hrest
      | false =>
        rw [Cell.cleared_of_not_lost hf]
        exact ⟨hposition, ih hrest⟩

/-! ### Refused references -/

theorem eq_of_patch_error (h : patch f w = .error e w') : w' = w := by
  unfold patch at h
  split at h
  · cases h
    rfl
  · split at h
    · cases h
      rfl
    · dsimp only at h
      split at h
      · cases h
      · cases h
        rfl

theorem eq_of_refer_error (h : refer f w = .error e w') : w' = w := by
  unfold refer at h
  split at h
  · cases h
    rfl
  · split at h
    · exact eq_of_patch_error h
    · cases h

theorem eq_of_write_error {i : Instruction} (h : write i w = .error e w') : w' = w := by
  rw [write_of_not_wellFormed (write_error h)] at h
  cases h
  rfl

theorem eq_of_finish_error (h : finish w = .error e w') : w' = w := by
  unfold finish at h
  split at h
  · cases h
  · split at h
    · cases h
      rfl
    · cases h
      rfl

theorem extended_append (w : Writer π) (cells cells' : List Cell) :
    w.extended (cells ++ cells') = (w.extended cells).extended cells' := by
  have hmark : (w.extended cells).mark? = w.mark? := rfl
  unfold extended at hmark ⊢
  rw [hmark]
  simp only [image_append, List.filterMap_append, mk.injEq, List.append_assoc, and_true]
  apply Array.toList_inj.mp
  simp

/-- Zeros that are written and not settled are cells that are given up. -/
theorem padded_eq_extended {lost : List Cell}
    (hbytes : image (fun _ => none) lost = List.replicate (extent lost) 0) (w : Writer π) :
    w.padded (List.replicate (extent lost) 0) = w.extended (lost.map (Cell.cleared fun _ => true)) := by
  have himage : image w.mark? (lost.map (Cell.cleared fun _ => true)) = image (fun _ => none) lost := by
    unfold image
    rw [List.flatMap_map]
    congr 1
    funext c
    refine Cell.bytes_cleared (fun _ _ => rfl) ?_ c
    simp
  have hwaiting : (lost.map (Cell.cleared fun _ => true)).filterMap (Cell.waiting w.mark?) = [] := by
    apply List.filterMap_eq_nil_iff.mpr
    intro c hc
    obtain ⟨c, -, rfl⟩ := List.mem_map.mp hc
    cases c <;> rfl
  unfold padded extended
  rw [himage, hbytes, hwaiting, List.append_nil]

theorem image_none_tableCells (origin position : Nat) (targets : List Nat) :
    image (fun _ => none) (tableCells origin position targets)
      = List.replicate (extent (tableCells origin position targets)) 0 := by
  induction targets generalizing position with
  | nil => rfl
  | cons target rest ih =>
    have hextent : extent (tableCells origin position (target :: rest))
        = 4 + extent (tableCells origin (position + 4) rest) := rfl
    rw [hextent, ← List.replicate_append_replicate, ← ih]
    rfl

/-- A table is refused at one entry.  Those before it are settled. -/
theorem referTable_refused {origin position : Nat} {targets : List Nat} {cells : List Cell}
    (hposition : position = w.offset + extent cells)
    (h : referTable origin position targets
      ((w.extended cells).padded (List.replicate (4 * targets.length) 0)) = .error e w') :
    ∃ settled lost, tableCells origin position targets = settled ++ lost ∧
      (∀ f, .slot f ∈ settled → w.Allowed f) ∧
      w' = w.extended (cells ++ settled ++ lost.map (Cell.cleared fun _ => true)) := by
  induction targets generalizing position cells with
  | nil => exact nomatch h
  | cons target rest ih =>
    have hnext := next_place origin target hposition
    rcases Step.bind_error.mp h with hrefer | ⟨u, w₁, hrefer, hrest⟩
    · refine ⟨[], _, rfl, fun f hf => absurd hf List.not_mem_nil, ?_⟩
      have hpadded := padded_eq_extended (image_none_tableCells origin position (target :: rest))
        (w.extended cells)
      rw [extent_tableCells] at hpadded
      rw [eq_of_refer_error hrefer, List.append_nil, extended_append]
      exact hpadded
    · rw [zeros_cons] at hrefer
      obtain ⟨hallowed, rfl⟩ := (refer_padded_ok hposition).mp hrefer
      obtain ⟨settled, lost, hcells, hall, rfl⟩ := ih hnext hrest
      refine ⟨.slot (tablePlace origin position target) :: settled, lost, ?_, ?_, ?_⟩
      · rw [tableCells, hcells, List.cons_append]
      · intro f hf
        rcases List.mem_cons.mp hf with hf | hf
        · cases hf
          exact hallowed
        · exact hall f hf
      · simp only [List.append_assoc, List.cons_append, List.nil_append]

/-! ### Refused instructions -/

/-- Nothing that the code depends on has changed. -/
structure SameCode (w w' : Writer π) : Prop where
  code : w'.code = w.code
  labels : w'.labels = w.labels
  fixups : w'.fixups = w.fixups

theorem branch_refused {op : Opcode} {target : Nat} (h : branch op target w = .error e w') :
    w' = w ∨ (∃ b, op.category = .branch b ∧ b.kind ≠ .table) ∧
      w' = w.extended [.fixed op.bytes,
        (Cell.slot (branchPlace op target w.offset)).cleared fun _ => true] := by
  have hrefused : ∀ {e' : WriteError}, (refuse e' : Step (Writer π) Unit) w = .error e w' → w' = w := by
    intro e' h
    cases h
    rfl
  unfold branch at h
  cases hcategory : op.category with
  | branch b =>
    rw [hcategory] at h
    dsimp only at h
    by_cases htable : b.kind = .table
    · rw [if_pos htable] at h
      exact .inl (hrefused h)
    · rw [if_neg htable] at h
      rcases Step.bind_error.mp h with hwrite | ⟨u, w₁, hwrite, hrefer⟩
      · exact .inl (eq_of_write_error hwrite)
      · obtain ⟨-, rfl⟩ := write_ok.mp hwrite
        refine .inr ⟨⟨b, rfl, htable⟩, ?_⟩
        rw [Step.get_bind] at hrefer
        rw [eq_of_refer_error hrefer, padded_branch hcategory htable target w, List.append_nil]
        have hzeros : image (fun _ => none) [.slot (branchPlace op target w.offset)]
            = List.replicate (extent [.slot (branchPlace op target w.offset)]) 0 := List.append_nil _
        have hpadded := padded_eq_extended hzeros (w.extended [.fixed op.bytes])
        rw [← extended_append] at hpadded
        exact hpadded
  | _ =>
    rw [hcategory] at h
    exact .inl (hrefused h)

theorem switch_refused {targets : List Nat} (h : switch targets w = .error e w') :
    ∃ settled lost, switchCells targets w.offset = settled ++ lost ∧
      (∀ f, .slot f ∈ settled → w.Allowed f) ∧
      w' = w.extended (settled ++ lost.map (Cell.cleared fun _ => true)) := by
  have hposition : w.offset + 5 = w.offset + extent [.fixed (tableHead targets)] := by
    show _ = w.offset + ((tableHead targets).length + 0)
    rw [length_tableHead]
  rcases Step.bind_error.mp h with hwrite | ⟨u, w₁, hwrite, hrefer⟩
  · exact nomatch write_error hwrite
  · obtain ⟨-, rfl⟩ := write_ok.mp hwrite
    rw [Step.get_bind, offset_padded_switch, Nat.add_sub_cancel, bytes_switch_zeros, ← padded_padded,
      ← extended_fixed w (tableHead targets)] at hrefer
    obtain ⟨settled, lost, hcells, hallowed, rfl⟩ := referTable_refused hposition hrefer
    refine ⟨.fixed (tableHead targets) :: settled, lost, ?_, ?_, rfl⟩
    · rw [switchCells, hcells, List.cons_append]
    · intro f hf
      rcases List.mem_cons.mp hf with hf | hf
      · cases hf
      · exact hallowed f hf

theorem writeToken_refused {op : Opcode} {request : π → Token × π}
    (h : writeToken op request w = .error e w') : SameCode w w' := by
  rcases Step.bind_error.mp h with hask | ⟨token, w₁, hask, hwrite⟩
  · exact nomatch hask
  · cases hask
    rw [eq_of_write_error hwrite]
    exact ⟨rfl, rfl, rfl⟩

/-- **A refused instruction wrote nothing, or it stays in the code**, and its places from one on are given
up. -/
theorem step_instruction_refused [TokenProvider π] {c : Call} {op : Opcode} (hop : c.opcode? = some op)
    (h : Sink.step c w = .error e w') :
    SameCode w w' ∨ c.Writable ∧ ∃ settled lost, added c w = settled ++ lost ∧
      (∀ f, .slot f ∈ settled → w.Allowed f) ∧
      w' = w.extended (settled ++ lost.map (Cell.cleared fun _ => true)) := by
  cases c with
  | emit op x =>
    obtain rfl := eq_of_write_error (silent_error h)
    exact .inl ⟨rfl, rfl, rfl⟩
  | branch op target =>
    rcases branch_refused (silent_error h) with rfl | ⟨hbranch, rfl⟩
    · exact .inl ⟨rfl, rfl, rfl⟩
    · exact .inr ⟨hbranch, [.fixed op.bytes], [.slot (branchPlace op target w.offset)], rfl,
        allowed_fixed w op.bytes, rfl⟩
  | switch targets => exact .inr ⟨trivial, switch_refused (silent_error h)⟩
  | invoke op m => exact .inl (writeToken_refused (silent_error h))
  | field op f => exact .inl (writeToken_refused (silent_error h))
  | type op t => exact .inl (writeToken_refused (silent_error h))
  | token op m => exact .inl (writeToken_refused (silent_error h))
  | string op value => exact .inl (writeToken_refused (silent_error h))
  | _ => exact nomatch hop

/-! ### Refused marks -/

/-- The fixups that are ready before one of them are those of the cells before its place. -/
theorem split_of_ready {marks : Nat → Option Nat} {label : Nat} {cells : List Cell}
    {front back : List Fixup} (h : ready marks label cells = front ++ f :: back) :
    ∃ before after, cells = before ++ .slot f :: after ∧ ready marks label before = front := by
  obtain ⟨early, late, hwaiting, hearly, hlate⟩ := List.filter_eq_append_iff.mp h
  obtain ⟨skipped, rest, rfl, hskipped, -, -⟩ := List.filter_eq_cons_iff.mp hlate
  obtain ⟨first, last, rfl, hfirst, hlast⟩ := List.filterMap_eq_append_iff.mp hwaiting
  obtain ⟨first', last', rfl, hfirst', hlast'⟩ := List.filterMap_eq_append_iff.mp hlast
  obtain ⟨idle, c, after, rfl, hidle, hc, -⟩ := List.filterMap_eq_cons_iff.mp hlast'
  obtain rfl := eq_of_waiting hc
  refine ⟨first ++ (first' ++ idle), after, by simp, ?_⟩
  have hnone : skipped.filter (·.label = label) = [] := by
    simpa using hskipped
  have hidle' : idle.filterMap (Cell.waiting marks) = [] := List.filterMap_eq_nil_iff.mpr hidle
  rw [ready, List.filterMap_append, List.filterMap_append, hfirst, hfirst', hidle', List.append_nil,
    List.filter_append, hnone, List.append_nil, hearly]

/-- Places that are given up hold what they held before the mark. -/
theorem marked_cleared {label : Nat} (hunmarked : w.mark? label = none) (settled lost : List Cell) :
    w.marked label (settled ++ lost.map (Cell.cleared (· = label)))
      = { w.marked label (settled ++ lost) with
          code := ([] ++ (image (withMark w.mark? label w.offset) settled ++
            image w.mark? lost)).toArray } := by
  have himage : image (withMark w.mark? label w.offset) (lost.map (Cell.cleared (· = label)))
      = image w.mark? lost := by
    unfold image
    rw [List.flatMap_map]
    congr 1
    funext c
    refine Cell.bytes_cleared ?_ ?_ c
    · intro l hl
      rw [of_decide_eq_true hl, hunmarked]
    · intro l hl
      exact withMark_of_ne (of_decide_eq_false hl)
  have hwaiting : (lost.map (Cell.cleared (· = label))).filterMap
        (Cell.waiting (withMark w.mark? label w.offset))
      = lost.filterMap (Cell.waiting (withMark w.mark? label w.offset)) := by
    rw [List.filterMap_map]
    congr 1
    funext c
    refine Cell.waiting_cleared ?_ c
    intro l hl
    rw [of_decide_eq_true hl, withMark_self]
    rfl
  unfold marked
  rw [image_append, himage, List.filterMap_append, hwaiting, ← List.filterMap_append]
  rfl

/-- After a refused mark the offsets in place fit as they did, and so do those that the mark settled. -/
theorem laid_of_refused_mark {label : Nat} {settled lost : List Cell} (h : w.Laid (settled ++ lost))
    (hlabel : label < w.labels.size)
    (hfits : ∀ f, .slot f ∈ settled → f.label = label → f.fits ((w.offset : Int) - f.origin) = true) :
    (w.marked label (settled ++ lost.map (Cell.cleared (· = label)))).Laid
      (settled ++ lost.map (Cell.cleared (· = label))) := by
  have hslots : ∀ f, .slot f ∈ settled ++ lost.map (Cell.cleared (· = label)) →
      .slot f ∈ settled ++ lost ∧ (f.label = label → .slot f ∈ settled) := by
    intro f hf
    rcases List.mem_append.mp hf with hf | hf
    · exact ⟨List.mem_append_left _ hf, fun _ => hf⟩
    · obtain ⟨hf, hother⟩ := slot_mem_cleared hf
      exact ⟨List.mem_append_right _ hf, fun hl => absurd hl (of_decide_eq_false hother)⟩
  have hplaced := placed_append.mp h.placed
  refine laid_marked hlabel (placed_append.mpr ⟨hplaced.1, placed_cleared _ hplaced.2⟩) ?_ ?_
  · intro f hf hl
    exact hfits f ((hslots f hf).2 hl) hl
  · intro f hf
    exact h.fits f (hslots f hf).1

/-- **A refused mark changed nothing, or it stays**: the places before the one that cannot be reached are
settled, and the others of its label are given up. -/
theorem mark_refused {label : Nat} {cells : List Cell} (h : w.Laid cells)
    (herror : mark label w = .error e w') :
    ¬ e.IsOutOfRange ∧ w' = w ∨ e.IsOutOfRange ∧ label < w.labels.size ∧ w.mark? label = none ∧
      ∃ settled lost, cells = settled ++ lost ∧
        (∀ f, .slot f ∈ settled → f.label = label → f.fits ((w.offset : Int) - f.origin) = true) ∧
        w' = w.marked label (settled ++ lost.map (Cell.cleared (· = label))) := by
  by_cases hlabel : label < w.labels.size
  · by_cases hunmarked : w.mark? label = none
    · refine .inr ⟨mark_error hlabel hunmarked herror, hlabel, hunmarked, ?_⟩
      rw [mark_eq h hlabel hunmarked] at herror
      obtain ⟨front, f, back, w₁, hready, hfront, hpatch⟩ := Step.forM_error herror
      obtain ⟨before, after, rfl, rfl⟩ := split_of_ready hready
      have hcode : w.code.toList
          = [] ++ (image w.mark? before ++ image w.mark? (.slot f :: after)) := by
        rw [h.code, image_append]
        rfl
      have hplaced : Placed ([] : List UInt8).length before := (placed_append.mp h.placed).1
      have hmarks : Writer.mark? { w.marked label (before ++ .slot f :: after) with code := w.code }
          = withMark w.mark? label w.offset := mark?_marked hlabel (before ++ .slot f :: after)
      obtain ⟨hfits, rfl⟩ := (forM_patch_ok hunmarked hmarks hplaced hcode).mp hfront
      refine ⟨before, .slot f :: after, rfl, ?_, ?_⟩
      · intro g hg hgl
        exact hfits g ((mem_ready hunmarked).mpr ⟨hg, hgl⟩)
      · rw [eq_of_patch_error hpatch]
        exact (marked_cleared hunmarked before (.slot f :: after)).symm
    · have hsome : w.labels[label].offset.isSome = true := by
        simpa [mark?, hlabel, ← Option.isSome_iff_ne_none] using hunmarked
      simp only [mark, hlabel, Array.getElem?_eq_getElem, hsome, if_true] at herror
      cases herror
      refine .inl ⟨?_, rfl⟩
      rintro ⟨_, _, _, hrange⟩
      cases hrange
  · have hnone : w.labels[label]? = none := by simpa using hlabel
    rw [mark, hnone] at herror
    cases herror
    refine .inl ⟨?_, rfl⟩
    rintro ⟨_, _, _, hrange⟩
    cases hrange

end Writer

end Cil
