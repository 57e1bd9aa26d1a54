/-
A writer along a run.

Between calls the code of a writer is the image of the cells of the instructions so far (`Laid`):
every place holds the distance to its label if that is marked and a fixup waits for it otherwise, be
the label marked before the branch or after it.  An instruction adds its cells and a mark changes no
cell, so the cells at the end are those of the calls, each taken at the offset where the writer stood
when the call was made (`laid_run`).
-/
import Cil.Proofs.Writer.Layout

namespace Cil

namespace Writer

variable {π : Type} {w w' : Writer π} {cells : List Cell} {label : Nat}

/-- The writer has written the given cells. -/
structure Laid (w : Writer π) (cells : List Cell) : Prop where
  code : w.code.toList = image w.mark? cells
  fixups : w.fixups = cells.filterMap (Cell.waiting w.mark?)
  placed : Placed 0 cells
  /-- The distances that were put in place fit. -/
  fits : ∀ f, .slot f ∈ cells → ∀ target, w.mark? f.label = some target →
    f.fits ((target : Int) - f.origin) = true

theorem laid_fresh (p : π) : Laid { symbols := p } [] where
  code := rfl
  fixups := rfl
  placed := trivial
  fits := fun _ hf => absurd hf List.not_mem_nil

theorem Laid.offset_eq (h : w.Laid cells) : w.offset = extent cells := by
  unfold offset
  rw [← Array.length_toList, h.code, length_image]

theorem Laid.extended (h : w.Laid cells) {new : List Cell} (hplaced : Placed w.offset new)
    (hallowed : ∀ f, .slot f ∈ new → w.Allowed f) : (w.extended new).Laid (cells ++ new) where
  code := by
    rw [toList_code_extended, h.code]
    exact (image_append w.mark? cells new).symm
  fixups := by
    show w.fixups ++ new.filterMap (Cell.waiting w.mark?) = (cells ++ new).filterMap _
    rw [List.filterMap_append, h.fixups]
    rfl
  placed := by
    rw [placed_append, Nat.zero_add, ← h.offset_eq]
    exact ⟨h.placed, hplaced⟩
  fits := by
    intro f hf
    rcases List.mem_append.mp hf with hf | hf
    · exact h.fits f hf
    · exact (hallowed f hf).2

/-! ### Marking a label -/

/-- The writer with a label bound to the end of its code. -/
def marked (w : Writer π) (label : Nat) (cells : List Cell) : Writer π :=
  { w with
    code := (image (withMark w.mark? label w.offset) cells).toArray
    labels := w.labels.modify label fun slot => { slot with offset := some w.offset }
    fixups := cells.filterMap (Cell.waiting (withMark w.mark? label w.offset)) }

theorem mark?_marked (hlabel : label < w.labels.size) (cells : List Cell) :
    (w.marked label cells).mark? = withMark w.mark? label w.offset := by
  funext l
  unfold withMark
  show (w.labels.modify label _)[l]?.bind Slot.offset = _
  rw [Array.getElem?_modify]
  by_cases hl : l = label
  · subst hl
    simp [hlabel]
  · rw [if_neg (Ne.symm hl), if_neg hl]
    rfl

theorem waiting_withMark (marks : Nat → Option Nat) (label target : Nat) (c : Cell) :
    c.waiting (withMark marks label target)
      = (c.waiting marks).bind (Option.guard fun f => !decide (f.label = label)) := by
  cases c with
  | fixed bytes => rfl
  | slot f =>
    by_cases hlabel : f.label = label
    · have hmarked : withMark marks label target f.label = some target := if_pos hlabel
      rw [Cell.waiting_of_some hmarked]
      cases hmark : marks f.label with
      | some target => rw [Cell.waiting_of_some hmark, Option.bind_none]
      | none => simp [Cell.waiting_of_none hmark, Option.guard, hlabel]
    · have hsame : (Cell.slot f).waiting (withMark marks label target)
          = (Cell.slot f).waiting marks := by
        simp only [Cell.waiting, withMark_of_ne hlabel]
      rw [hsame]
      cases hmark : marks f.label with
      | some target => rw [Cell.waiting_of_some hmark, Option.bind_none]
      | none => simp [Cell.waiting_of_none hmark, Option.guard, hlabel]

/-- What waits for other labels goes on waiting. -/
theorem filterMap_waiting_withMark (marks : Nat → Option Nat) (label target : Nat)
    (cells : List Cell) : cells.filterMap (Cell.waiting (withMark marks label target))
      = (cells.filterMap (Cell.waiting marks)).filter fun f => !decide (f.label = label) := by
  rw [← List.filterMap_eq_filter, List.filterMap_filterMap]
  exact congrArg (List.filterMap · cells) (funext (waiting_withMark marks label target))

theorem eq_of_waiting {marks : Nat → Option Nat} {c : Cell} {f : Fixup}
    (h : c.waiting marks = some f) : c = .slot f := by
  cases c with
  | fixed bytes => exact nomatch h
  | slot g =>
    cases hmark : marks g.label with
    | some target => exact nomatch (Cell.waiting_of_some hmark).symm.trans h
    | none => exact congrArg Cell.slot (Option.some.inj ((Cell.waiting_of_none hmark).symm.trans h))

theorem mem_ready {marks : Nat → Option Nat} (hunmarked : marks label = none) {f : Fixup} :
    f ∈ ready marks label cells ↔ .slot f ∈ cells ∧ f.label = label := by
  unfold ready
  rw [List.mem_filter, List.mem_filterMap, decide_eq_true_iff]
  refine and_congr_left fun hlabel => ?_
  constructor
  · rintro ⟨c, hc, hwaiting⟩
    exact eq_of_waiting hwaiting ▸ hc
  · intro hf
    exact ⟨.slot f, hf, Cell.waiting_of_none (hlabel ▸ hunmarked)⟩

theorem setIfInBounds_eq_modify {α : Type} {xs : Array α} {i : Nat} {x : α} (h : xs[i]? = some x)
    (f : α → α) : xs.setIfInBounds i (f x) = xs.modify i f := by
  obtain ⟨hi, rfl⟩ := Array.getElem?_eq_some_iff.mp h
  apply Array.ext_getElem?
  intro j
  rw [Array.getElem?_setIfInBounds, Array.getElem?_modify]
  by_cases hj : i = j
  · subst hj
    simp [hi]
  · simp [hj]

/-- Marking a label that has no mark is settling what waits for it. -/
theorem mark_eq (h : w.Laid cells) (hlabel : label < w.labels.size) (hunmarked : w.mark? label = none) :
    mark label w = ((ready w.mark? label cells).forM patch : Step (Writer π) Unit)
      { w.marked label cells with code := w.code } := by
  have hslot : w.labels[label]? = some w.labels[label] := by simp [hlabel]
  have hoffset : w.labels[label].offset = none := by simpa [mark?, hslot] using hunmarked
  have hfixups : w.fixups.partition (·.label = label) = (ready w.mark? label cells,
      cells.filterMap (Cell.waiting (withMark w.mark? label w.offset))) := by
    rw [List.partition_eq_filter_filter, filterMap_waiting_withMark, h.fixups]
    rfl
  have hlabels : w.labels.setIfInBounds label { w.labels[label] with offset := some w.offset }
      = (w.marked label cells).labels :=
    setIfInBounds_eq_modify hslot fun slot => { slot with offset := some w.offset }
  unfold mark
  rw [hslot]
  dsimp only
  rw [if_neg (by simp [hoffset]), hfixups, hlabels]
  rfl

/-- A label is marked just if it is known, has no mark yet and can be reached from every branch to it
so far. -/
theorem mark_ok {u : Unit} (h : w.Laid cells) :
    mark label w = .ok u w' ↔ label < w.labels.size ∧ w.mark? label = none ∧
      (∀ f, .slot f ∈ cells → f.label = label → f.fits ((w.offset : Int) - f.origin) = true) ∧
      w.marked label cells = w' := by
  by_cases hlabel : label < w.labels.size
  · by_cases hunmarked : w.mark? label = none
    · have hready : (∀ f ∈ ready w.mark? label cells, f.fits ((w.offset : Int) - f.origin) = true) ↔
          ∀ f, .slot f ∈ cells → f.label = label → f.fits ((w.offset : Int) - f.origin) = true := by
        simp only [mem_ready hunmarked, and_imp]
      have hcode : w.code.toList = [] ++ (image w.mark? cells ++ []) := by
        rw [List.append_nil]
        exact h.code
      have hplaced : Placed ([] : List UInt8).length cells := h.placed
      rw [mark_eq h hlabel hunmarked, and_iff_right hlabel, and_iff_right hunmarked, ← hready]
      refine (forM_patch_ok (w := { w.marked label cells with code := w.code }) hunmarked
        (mark?_marked hlabel cells) hplaced hcode).trans ?_
      rw [List.append_nil]
      exact Iff.rfl
    · have hsome : w.labels[label].offset.isSome = true := by
        simpa [mark?, hlabel, ← Option.isSome_iff_ne_none] using hunmarked
      simp [mark, hlabel, hunmarked, hsome]
  · simp [mark, hlabel]

/-- With one mark more, the code is laid if the distances to it fit and those to the others did before. -/
theorem laid_marked (hlabel : label < w.labels.size) (hplaced : Placed 0 cells)
    (hfits : ∀ f, .slot f ∈ cells → f.label = label → f.fits ((w.offset : Int) - f.origin) = true)
    (hothers : ∀ f, .slot f ∈ cells → ∀ target, w.mark? f.label = some target →
      f.fits ((target : Int) - f.origin) = true) : (w.marked label cells).Laid cells := by
  have hmark := mark?_marked hlabel cells
  refine ⟨by rw [hmark]; rfl, by rw [hmark]; rfl, hplaced, ?_⟩
  intro f hf target htarget
  rw [hmark] at htarget
  by_cases hf' : f.label = label
  · rw [hf', withMark_self, Option.some.injEq] at htarget
    rw [← htarget]
    exact hfits f hf hf'
  · rw [withMark_of_ne hf'] at htarget
    exact hothers f hf target htarget

theorem Laid.marked (h : w.Laid cells) (hlabel : label < w.labels.size)
    (hfits : ∀ f, .slot f ∈ cells → f.label = label → f.fits ((w.offset : Int) - f.origin) = true) :
    (w.marked label cells).Laid cells :=
  laid_marked hlabel h.placed hfits h.fits

theorem offset_marked (h : w.Laid cells) : (w.marked label cells).offset = w.offset := by
  rw [h.offset_eq, offset, ← Array.length_toList]
  show (image _ cells).length = extent cells
  exact length_image _ cells

/-- A new label has no mark. -/
theorem mark?_push (w : Writer π) (name : String) :
    Writer.mark? { w with labels := w.labels.push { name } } = w.mark? := by
  funext l
  show (w.labels.push { name })[l]?.bind Slot.offset = w.labels[l]?.bind Slot.offset
  rw [Array.getElem?_push]
  by_cases hl : l = w.labels.size
  · rw [if_pos hl, hl, Array.getElem?_eq_none (Nat.le_refl _)]
    rfl
  · rw [if_neg hl]

theorem finish_ok {u : Unit} : finish w = .ok u w' ↔ w.fixups = [] ∧ w = w' := by
  unfold finish
  cases w.fixups with
  | nil => simp
  | cons f rest => cases hlabel : w.labels[f.label]? <;> simp [hlabel]

end Writer

/-- The label that a call marks. -/
def Call.marked? : Call → Option Nat
  | .markLabel label => some label
  | _ => none

/-- The places of an instruction are where their fixups say. -/
theorem Call.placed_cells (c : Call) (token : Option Token) (start : Nat) :
    Writer.Placed start (c.cells token start) := by
  cases c with
  | branch op target =>
    refine ⟨?_, trivial⟩
    show start + op.size = start + op.bytes.length
    rw [Opcode.length_bytes]
  | switch targets =>
    show Writer.Placed (start + (Writer.tableHead targets).length) (Writer.tableCells _ _ targets)
    rw [Writer.length_tableHead]
    exact Writer.placed_tableCells _ _ targets
  | _ => trivial

namespace Writer

variable {π : Type} [TokenProvider π] {w w' : Writer π} {cells : List Cell} {c : Call}
  {reply : Option Nat}

/-- The cells that a call adds. -/
def added (c : Call) (w : Writer π) : List Cell :=
  c.cells (c.tokenFrom w.symbols).1 w.offset

theorem step_finish (h : w.fixups = []) : Sink.step .finish w = .ok none w :=
  silent_ok.mpr ⟨rfl, finish_ok.mpr ⟨h, rfl⟩⟩

/-- What one accepted call does: it adds its cells, and it marks its label if it has one. -/
structure Advances (w w' : Writer π) (cells : List Cell) (c : Call) : Prop where
  laid : w'.Laid (cells ++ added c w)
  offset : w'.offset = w.offset + extent (added c w)
  keeps : c.marked? = none → w'.mark? = w.mark?
  marks : ∀ label, c.marked? = some label →
    w.mark? label = none ∧ w'.mark? = withMark w.mark? label w.offset

theorem advances_idle (h : w.Laid cells) (hadded : added c w = []) (hmarked : c.marked? = none)
    (hcode : w'.code = w.code) (hfixups : w'.fixups = w.fixups) (hmark : w'.mark? = w.mark?) :
    Advances w w' cells c where
  laid := by
    rw [hadded, List.append_nil]
    exact ⟨by rw [hcode, hmark, h.code], by rw [hfixups, hmark, h.fixups], h.placed,
      by rw [hmark]; exact h.fits⟩
  offset := by
    rw [hadded]
    exact congrArg Array.size hcode
  keeps := fun _ => hmark
  marks := by simp [hmarked]

theorem advances_of_step (h : w.Laid cells) (hstep : Sink.step c w = .ok reply w') :
    Advances w w' cells c := by
  cases hop : c.opcode? with
  | some op =>
    obtain ⟨-, -, hallowed, rfl⟩ := (step_instruction_ok hop).mp hstep
    have hmarked : c.marked? = none := by cases c <;> first | rfl | exact nomatch hop
    have hlaid := h.extended (c.placed_cells _ _) hallowed
    exact ⟨⟨hlaid.code, hlaid.fixups, hlaid.placed, hlaid.fits⟩, offset_extended w _, fun _ => rfl,
      by simp [hmarked]⟩
  | none =>
    cases c with
    | declareLocal t name =>
      cases hstep
      exact advances_idle h rfl rfl rfl rfl rfl
    | createLabel name =>
      cases hstep
      exact advances_idle h rfl rfl rfl rfl (mark?_push w name)
    | markLabel label =>
      obtain ⟨-, hmark⟩ := silent_ok.mp hstep
      obtain ⟨hlabel, hunmarked, hfits, rfl⟩ := (mark_ok h).mp hmark
      refine ⟨?_, offset_marked h, by simp [Call.marked?], ?_⟩
      · exact (List.append_nil cells).symm ▸ h.marked hlabel hfits
      · intro l hl
        cases hl
        exact ⟨hunmarked, mark?_marked hlabel cells⟩
    | finish =>
      obtain ⟨-, hfinish⟩ := silent_ok.mp hstep
      obtain ⟨-, rfl⟩ := finish_ok.mp hfinish
      exact advances_idle h rfl rfl rfl rfl rfl
    | _ => exact nomatch hop

/-- Only a declaration declares a local. -/
theorem locals_of_step (hlaid : w.Laid cells) (hother : ∀ t name, c ≠ .declareLocal t name)
    (h : Sink.step c w = .ok reply w') : w'.locals = w.locals := by
  cases hop : c.opcode? with
  | some op =>
    obtain ⟨-, -, -, rfl⟩ := (step_instruction_ok hop).mp h
    rfl
  | none =>
    cases c with
    | declareLocal t name => exact absurd rfl (hother t name)
    | createLabel name =>
      cases h
      rfl
    | markLabel label =>
      obtain ⟨-, hmark⟩ := silent_ok.mp h
      obtain ⟨-, -, -, rfl⟩ := (mark_ok hlaid).mp hmark
      rfl
    | finish =>
      obtain ⟨-, hfinish⟩ := silent_ok.mp h
      obtain ⟨-, rfl⟩ := finish_ok.mp hfinish
      rfl
    | _ => exact nomatch hop

/-! ### Runs -/

/-- The labels marked in a run, each with the length of the code at that time. -/
def marks (history : List (Call × Writer π)) : List (Nat × Nat) :=
  history.filterMap fun made => made.1.marked?.map (·, made.2.bytes.length)

/-- The cells written in a run. -/
def written (history : List (Call × Writer π)) : List Cell :=
  history.flatMap fun made => added made.1 made.2

omit [TokenProvider π] in
theorem marks_cons_of_none (hmarked : c.marked? = none) (history : List (Call × Writer π)) :
    marks ((c, w) :: history) = marks history :=
  List.filterMap_cons_none (by rw [hmarked]; rfl)

omit [TokenProvider π] in
theorem marks_cons_of_some {label : Nat} (hmarked : c.marked? = some label)
    (history : List (Call × Writer π)) :
    marks ((c, w) :: history) = (label, w.offset) :: marks history :=
  List.filterMap_cons_some (by rw [hmarked]; rfl)

/-- **After a run the code is that of the calls, one after another.** -/
theorem laid_run {calls : List Call} (h : w.Laid cells) (hrun : Sink.run calls w = some w') :
    w'.Laid (cells ++ written (Sink.history calls w)) := by
  induction calls generalizing w cells with
  | nil =>
    rw [Sink.run, Option.some.injEq] at hrun
    subst hrun
    exact (List.append_nil cells).symm ▸ h
  | cons c rest ih =>
    obtain ⟨reply, w₁, hstep, hrest⟩ := Sink.run_cons.mp hrun
    have hlaid := ih (advances_of_step h hstep).laid hrest
    rw [Sink.history_cons rest hstep]
    rw [List.append_assoc] at hlaid
    exact hlaid

/-- **A label's mark is where the code ended when it was marked.** -/
theorem mark?_run {calls : List Call} (h : w.Laid cells) (hrun : Sink.run calls w = some w')
    (label m : Nat) : w'.mark? label = some m ↔
      w.mark? label = some m ∨ (label, m) ∈ marks (Sink.history calls w) := by
  induction calls generalizing w cells with
  | nil =>
    rw [Sink.run, Option.some.injEq] at hrun
    subst hrun
    simp [Sink.history, marks]
  | cons c rest ih =>
    obtain ⟨reply, w₁, hstep, hrest⟩ := Sink.run_cons.mp hrun
    have hadvances := advances_of_step h hstep
    rw [ih hadvances.laid hrest, Sink.history_cons rest hstep]
    cases hmarked : c.marked? with
    | none => rw [marks_cons_of_none hmarked, hadvances.keeps hmarked]
    | some l =>
      obtain ⟨hunmarked, hmark⟩ := hadvances.marks l hmarked
      rw [marks_cons_of_some hmarked, hmark, List.mem_cons, Prod.mk.injEq, ← or_assoc]
      refine or_congr ?_ Iff.rfl
      by_cases hl : label = l
      · subst hl
        simp [withMark_self, hunmarked, eq_comm]
      · simp [withMark_of_ne hl, hl]

/-- No label is marked twice. -/
theorem nodup_marks {calls : List Call} (h : w.Laid cells) (hrun : Sink.run calls w = some w') :
    ((marks (Sink.history calls w)).map Prod.fst).Nodup ∧
      ∀ label ∈ (marks (Sink.history calls w)).map Prod.fst, w.mark? label = none := by
  induction calls generalizing w cells with
  | nil => simp [Sink.history, marks]
  | cons c rest ih =>
    obtain ⟨reply, w₁, hstep, hrest⟩ := Sink.run_cons.mp hrun
    have hadvances := advances_of_step h hstep
    obtain ⟨hnodup, hunmarked⟩ := ih hadvances.laid hrest
    rw [Sink.history_cons rest hstep]
    cases hmarked : c.marked? with
    | none =>
      rw [marks_cons_of_none hmarked, ← hadvances.keeps hmarked]
      exact ⟨hnodup, hunmarked⟩
    | some l =>
      obtain ⟨hfirst, hmark⟩ := hadvances.marks l hmarked
      -- A label that is marked later has no mark after this call, so it is another one.
      have hother : ∀ label ∈ (marks (Sink.history rest w₁)).map Prod.fst,
          label ≠ l ∧ w.mark? label = none := by
        intro label hlabel
        have hnone := hunmarked label hlabel
        rw [hmark] at hnone
        by_cases hl : label = l
        · subst hl
          rw [withMark_self] at hnone
          cases hnone
        · exact ⟨hl, (withMark_of_ne hl).symm.trans hnone⟩
      rw [marks_cons_of_some hmarked, List.map_cons, List.nodup_cons, List.forall_mem_cons]
      refine ⟨⟨?_, hnodup⟩, hfirst, fun label hlabel => (hother label hlabel).2⟩
      intro hl
      exact (hother l hl).1 rfl

end Writer

end Cil
