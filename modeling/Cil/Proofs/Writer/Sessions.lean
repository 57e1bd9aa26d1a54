/-
Bodies that go on after a refusal.

Whoever drives a writer may go on after an error.  The code is then still that of the instructions
written, those of refused calls among them, but some places are given up: those of a refused instruction
itself, and those of a label whose mark was refused because a branch could not reach it.  Nothing waits
for these any more, so the end of the body does not notice them.

`Logged` keeps account of that along a session: which call wrote which cells, and which of the cells are
still what they were.  A place that was not given up holds the distance to its label's mark once the body
has ended; one that was holds that or zero (`reaches_or_givenUp_of_finish`).
-/
import Cil.Proofs.Writer.Leftovers
import Cil.Proofs.Writer.ReadBack

namespace Cil

namespace Writer

open Sink (Attempt)

variable {π : Type}

/-- Was the call refused? -/
def Refused (a : Attempt (Writer π)) : Prop := ∃ e, a.answer = .error e

/-- Did the call mark the label?  It did so too if it was refused because a branch does not reach. -/
def Marks (a : Attempt (Writer π)) (label : Nat) : Prop :=
  a.call = .markLabel label ∧ ∀ e, a.answer = .error e → e.IsOutOfRange

/-- Did the call mark the label and give up some of the branches to it? -/
def Abandons (a : Attempt (Writer π)) (label : Nat) : Prop := Marks a label ∧ Refused a

/-- May a place with the given label, in the code of one of the calls, have been given up?  Then the call
was refused, or a mark that came after it. -/
def GivenUp (log : List (Attempt (Writer π))) (a : Attempt (Writer π)) (label : Nat) : Prop :=
  Refused a ∨ ∃ b ∈ log, Abandons b label ∧ a.after.bytes.length ≤ b.before.bytes.length

/-! ### Cells as they were, but for places that were given up -/

/-- The cell is as it was, or it is a place that was given up, with a label of which `G` holds. -/
inductive Cell.Kept (G : Nat → Prop) : Cell → Cell → Prop
  | same (c : Cell) : Kept G c c
  | lost {f : Fixup} (h : G f.label) : Kept G (.slot f) (.fixed (List.replicate f.width 0))

section

variable {G G' H : Nat → Prop} {c c' c'' : Cell} {cells cells' : List Cell}

theorem Cell.kept_cleared {lost : Nat → Bool} (h : ∀ label, lost label = true → G label) (c : Cell) :
    c.Kept G (c.cleared lost) := by
  cases c with
  | fixed bytes => exact .same _
  | slot f =>
    cases hf : lost f.label with
    | true =>
      rw [cleared_of_lost hf]
      exact .lost (h f.label hf)
    | false =>
      rw [cleared_of_not_lost hf]
      exact .same _

theorem Cell.Kept.trans (h : c.Kept G c') (h' : c'.Kept G' c'') (hG : ∀ label, G label → H label)
    (hG' : ∀ label, G' label → H label) : c.Kept H c'' := by
  cases h with
  | same =>
    cases h' with
    | same => exact .same _
    | lost h' => exact .lost (hG' _ h')
  | lost h =>
    cases h' with
    | same => exact .lost (hG _ h)

theorem Cell.Kept.length_eq (h : c.Kept G c') : c'.length = c.length := by
  cases h with
  | same => rfl
  | lost h => exact List.length_replicate

/-- A place that was given up holds the distance zero. -/
theorem Cell.Kept.holds {R : Nat → Nat → Int32 → Prop} {marks : Nat → Option Nat} (h : c.Kept G c')
    (hholds : c'.Holds R (c'.bytes marks)) :
    c.Holds (fun stop label distance => R stop label distance ∨ distance = 0 ∧ G label)
      (c'.bytes marks) := by
  cases h with
  | same => exact hholds.mono fun _ _ _ hR => .inl hR
  | lost hG => exact Cell.holds_zeros (.inr ⟨rfl, hG⟩)

theorem kept_refl (cells : List Cell) : List.Forall₂ (Cell.Kept G) cells cells :=
  List.forall₂_same.mpr fun c _ => .same c

theorem kept_map_cleared {lost : Nat → Bool} (h : ∀ label, lost label = true → G label)
    (settled cells : List Cell) :
    List.Forall₂ (Cell.Kept G) (settled ++ cells) (settled ++ cells.map (Cell.cleared lost)) :=
  List.rel_append (kept_refl settled)
    (List.forall₂_map_right_iff.mpr (List.forall₂_same.mpr fun c _ => Cell.kept_cleared h c))

theorem extent_of_kept (h : List.Forall₂ (Cell.Kept G) cells cells') : extent cells' = extent cells := by
  induction h with
  | nil => rfl
  | cons hfirst _ ih => rw [extent, extent, hfirst.length_eq, ih]

theorem kept_trans {cells'' : List Cell} (h : List.Forall₂ (Cell.Kept G) cells cells')
    (h' : List.Forall₂ (Cell.Kept G') cells' cells'') (hG : ∀ label, G label → H label)
    (hG' : ∀ label, G' label → H label) : List.Forall₂ (Cell.Kept H) cells cells'' := by
  induction h generalizing cells'' with
  | nil =>
    cases h'
    exact .nil
  | cons hfirst _ ih =>
    obtain ⟨c'', rest'', hfirst', hrest', rfl⟩ := List.forall₂_cons_left_iff.mp h'
    exact .cons (hfirst.trans hfirst' hG hG') (ih hrest')

theorem holds_of_kept {R : Nat → Nat → Int32 → Prop} {marks : Nat → Option Nat}
    (h : List.Forall₂ (Cell.Kept G) cells cells') (hholds : ∀ c ∈ cells', c.Holds R (c.bytes marks)) :
    List.Forall₂ (Cell.Holds fun stop label distance => R stop label distance ∨ distance = 0 ∧ G label)
      cells (cells'.map (Cell.bytes marks)) := by
  induction h with
  | nil => exact .nil
  | cons hfirst _ ih =>
    obtain ⟨hcell, hrest⟩ := List.forall_mem_cons.mp hholds
    exact .cons (hfirst.holds hcell) (ih hrest)

theorem kept_append {front back : List Cell}
    (h : List.Forall₂ (Cell.Kept G) (front ++ back) cells') :
    ∃ front' back', cells' = front' ++ back' ∧ List.Forall₂ (Cell.Kept G) front front' ∧
      List.Forall₂ (Cell.Kept G) back back' :=
  ⟨_, _, (List.take_append_drop front.length cells').symm,
    (List.forall₂_take_append _ front back h.flip).flip,
    (List.forall₂_drop_append _ front back h.flip).flip⟩

end

/-! ### One call -/

variable [TokenProvider π] {w w' : Writer π} {cells : List Cell} {c : Call}

/-- What a call does to the cells, accepted or not. -/
structure Outcome (a : Attempt (Writer π)) (cells cells' new : List Cell) : Prop where
  laid : a.after.Laid (cells' ++ new)
  kept : List.Forall₂ (Cell.Kept (Abandons a)) cells cells'
  /-- The new cells, if there are any, are those of the call. -/
  added : new = [] ∨ a.call.opcode?.isSome = true ∧ a.call.Writable ∧
    List.Forall₂ (Cell.Kept fun _ => Refused a) (added a.call a.before) new
  marks : ∀ label m, a.after.mark? label = some m ↔
    a.before.mark? label = some m ∨ Marks a label ∧ a.before.bytes.length = m

omit [TokenProvider π] in
theorem withMark_eq_some_iff {marks : Nat → Option Nat} {label : Nat} (hunmarked : marks label = none)
    (target l m : Nat) :
    withMark marks label target l = some m ↔ marks l = some m ∨ l = label ∧ target = m := by
  by_cases hl : l = label
  · subst hl
    simp [withMark_self, hunmarked]
  · simp [withMark_of_ne hl, hl]

theorem exists_outcome_of_ok {reply : Option Nat} (h : w.Laid cells)
    (hstep : Sink.step c w = .ok reply w') :
    ∃ cells' new, Outcome ⟨c, w, .ok reply, w'⟩ cells cells' new := by
  have hadvances := advances_of_step h hstep
  refine ⟨cells, added c w, hadvances.laid, kept_refl cells, ?_, ?_⟩
  · cases hop : c.opcode? with
    | none => exact .inl (by cases c <;> first | rfl | cases hop)
    | some op =>
      obtain ⟨-, hwritable, -⟩ := (step_instruction_ok hop).mp hstep
      exact .inr ⟨rfl, hwritable, kept_refl _⟩
  · intro label m
    cases hmarked : c.marked? with
    | none =>
      have hnot : ¬ Marks ⟨c, w, .ok reply, w'⟩ label := by
        rintro ⟨rfl, -⟩
        cases hmarked
      rw [hadvances.keeps hmarked]
      simp [hnot]
    | some l =>
      obtain ⟨hunmarked, hmark⟩ := hadvances.marks l hmarked
      obtain rfl : c = .markLabel l := by cases c <;> cases hmarked; rfl
      rw [hmark, withMark_eq_some_iff hunmarked]
      simp [Marks, bytes, offset, eq_comm]

/-- A call that changed nothing. -/
theorem outcome_of_sameCode {e : Rejection} (h : w.Laid cells) (hsame : SameCode w w')
    (hmarks : ∀ label, c = .markLabel label → ¬ e.IsOutOfRange) :
    Outcome ⟨c, w, .error e, w'⟩ cells cells [] where
  laid := by
    have hmark := mark?_eq_of_labels hsame.labels
    rw [List.append_nil]
    exact ⟨by rw [hsame.code, hmark, h.code], by rw [hsame.fixups, hmark, h.fixups], h.placed,
      by rw [hmark]; exact h.fits⟩
  kept := kept_refl cells
  added := .inl rfl
  marks := by
    intro label m
    have hnot : ¬ Marks ⟨c, w, .error e, w'⟩ label := by
      rintro ⟨hc, hrange⟩
      exact hmarks label hc (hrange e rfl)
    rw [mark?_eq_of_labels hsame.labels]
    simp [hnot]

theorem exists_outcome_of_instruction_error {op : Opcode} {e : Rejection} (hop : c.opcode? = some op)
    (h : w.Laid cells) (hstep : Sink.step c w = .error e w') :
    ∃ cells' new, Outcome ⟨c, w, .error e, w'⟩ cells cells' new := by
  have hnotMark : ∀ label, c ≠ .markLabel label := by
    rintro label rfl
    cases hop
  rcases step_instruction_refused hop hstep with hsame | ⟨hwritable, settled, lost, hadded, hallowed, rfl⟩
  · exact ⟨cells, [], outcome_of_sameCode h hsame fun label hc => absurd hc (hnotMark label)⟩
  · have hplaced : Placed w.offset (settled ++ lost.map (Cell.cleared fun _ => true)) := by
      have hcells := c.placed_cells (c.tokenFrom w.symbols).1 w.offset
      rw [show c.cells (c.tokenFrom w.symbols).1 w.offset = settled ++ lost from hadded,
        placed_append] at hcells
      exact placed_append.mpr ⟨hcells.1, placed_cleared _ hcells.2⟩
    refine ⟨cells, settled ++ lost.map (Cell.cleared fun _ => true), h.extended hplaced ?_,
      kept_refl cells, .inr ⟨by simp [hop], hwritable, ?_⟩, ?_⟩
    · intro f hf
      rcases List.mem_append.mp hf with hf | hf
      · exact hallowed f hf
      · exact nomatch (slot_mem_cleared hf).2
    · rw [hadded]
      exact kept_map_cleared (fun _ _ => ⟨e, rfl⟩) settled lost
    · intro label m
      have hnot : ¬ Marks ⟨c, w, .error e, w.extended (settled ++ lost.map (Cell.cleared fun _ => true))⟩
          label := fun hmarks => hnotMark label hmarks.1
      simp only [hnot, false_and, or_false]
      exact Iff.rfl

theorem exists_outcome_of_mark_error {label : Nat} {e : Rejection} (h : w.Laid cells)
    (hmark : mark label w = .error e w') :
    ∃ cells' new, Outcome ⟨.markLabel label, w, .error e, w'⟩ cells cells' new := by
  rcases mark_refused h hmark with ⟨hrange, rfl⟩ |
    ⟨hrange, hlabel, hunmarked, settled, lost, rfl, hfits, rfl⟩
  · exact ⟨cells, [], outcome_of_sameCode h ⟨rfl, rfl, rfl⟩ fun _ _ => hrange⟩
  · have hmarks : Marks ⟨.markLabel label, w, .error e,
        w.marked label (settled ++ lost.map (Cell.cleared (· = label)))⟩ label := by
      refine ⟨rfl, ?_⟩
      intro e' he'
      cases he'
      exact hrange
    refine ⟨settled ++ lost.map (Cell.cleared (· = label)), [], ?_, ?_, .inl rfl, ?_⟩
    · rw [List.append_nil]
      exact laid_of_refused_mark h hlabel hfits
    · refine kept_map_cleared ?_ settled lost
      intro l hl
      rw [of_decide_eq_true hl]
      exact ⟨hmarks, e, rfl⟩
    · intro l m
      show (w.marked label _).mark? l = some m ↔ w.mark? l = some m ∨ _
      rw [mark?_marked hlabel, withMark_eq_some_iff hunmarked]
      refine or_congr Iff.rfl (and_congr ?_ Iff.rfl)
      constructor
      · rintro rfl
        exact hmarks
      · rintro ⟨hc, -⟩
        cases hc
        rfl

theorem exists_outcome_of_error {e : Rejection} (h : w.Laid cells)
    (hstep : Sink.step c w = .error e w') :
    ∃ cells' new, Outcome ⟨c, w, .error e, w'⟩ cells cells' new := by
  cases hop : c.opcode? with
  | some op => exact exists_outcome_of_instruction_error hop h hstep
  | none =>
    cases c with
    | markLabel label => exact exists_outcome_of_mark_error h (silent_error hstep)
    | finish =>
      obtain rfl := eq_of_finish_error (silent_error hstep)
      exact ⟨cells, [], outcome_of_sameCode h ⟨rfl, rfl, rfl⟩ fun _ hc => nomatch hc⟩
    | declareLocal t name => exact nomatch hstep
    | createLabel name => exact nomatch hstep
    | _ => exact nomatch hop

theorem exists_outcome (h : w.Laid cells) (c : Call) :
    ∃ cells' new, Outcome (Sink.attempt c w) cells cells' new := by
  cases hstep : Sink.step c w with
  | ok reply w' =>
    rw [Sink.attempt_of_ok hstep]
    exact exists_outcome_of_ok h hstep
  | error e w' =>
    rw [Sink.attempt_of_error hstep]
    exact exists_outcome_of_error h hstep

/-! ### Sessions -/

variable {log : List (Attempt (Writer π))}

/-- The cells hold the code of the calls so far: what each call wrote stands where the code ended when it
was made, but for places that were given up. -/
structure Logged (log : List (Attempt (Writer π))) (w : Writer π) (cells : List Cell) : Prop where
  laid : w.Laid cells
  marks : ∀ label m, w.mark? label = some m ↔
    ∃ a ∈ log, Marks a label ∧ a.before.bytes.length = m
  grows : ∀ a ∈ log, a.after.offset ≤ w.offset
  stands : ∀ a ∈ log, a.before.offset < a.after.offset → a.call.opcode?.isSome = true ∧
    a.call.Writable ∧ ∃ front block back, cells = front ++ (block ++ back) ∧
      extent front = a.before.offset ∧
      List.Forall₂ (Cell.Kept (GivenUp log a)) (added a.call a.before) block

theorem logged_fresh (p : π) : Logged [] { symbols := p } [] where
  laid := laid_fresh p
  marks := by simp [mark?]
  grows := by simp
  stands := by simp

omit [TokenProvider π] in
theorem GivenUp.concat {a : Attempt (Writer π)} {label : Nat} (h : GivenUp log a label)
    (b : Attempt (Writer π)) : GivenUp (log ++ [b]) a label := by
  rcases h with hrefused | ⟨d, hd, habandons⟩
  · exact .inl hrefused
  · exact .inr ⟨d, List.mem_append_left _ hd, habandons⟩

theorem Logged.attempt (h : Logged log w cells) (c : Call) :
    ∃ cells', Logged (log ++ [Sink.attempt c w]) (Sink.attempt c w).after cells' := by
  obtain ⟨cells', new, hlaid, hkept, hadded, hmarks⟩ := exists_outcome h.laid c
  have hextent : extent cells' = w.offset := (extent_of_kept hkept).trans h.laid.offset_eq.symm
  have hgrows : w.offset ≤ (Sink.attempt c w).after.offset := by
    rw [hlaid.offset_eq, extent_append, hextent]
    exact Nat.le_add_right _ _
  refine ⟨cells' ++ new, hlaid, ?_, ?_, ?_⟩
  · intro label m
    rw [hmarks, Sink.before_attempt, h.marks]
    simp only [List.mem_append, List.mem_singleton, or_and_right, exists_or, exists_eq_left,
      Sink.before_attempt]
  · intro a ha
    rcases List.mem_append.mp ha with ha | ha
    · exact Nat.le_trans (h.grows a ha) hgrows
    · obtain rfl := List.mem_singleton.mp ha
      exact Nat.le_refl _
  · intro a ha hwrote
    rcases List.mem_append.mp ha with ha | ha
    · -- What an earlier call wrote keeps its place, and some more of it may be given up.
      obtain ⟨hop, hwritable, front, block, back, rfl, hfront, hblock⟩ := h.stands a ha hwrote
      obtain ⟨front', rest', rfl, hfront', hrest'⟩ := kept_append hkept
      obtain ⟨block', back', rfl, hblock', -⟩ := kept_append hrest'
      refine ⟨hop, hwritable, front', block', back' ++ new, by simp only [List.append_assoc],
        (extent_of_kept hfront').trans hfront, ?_⟩
      refine kept_trans hblock hblock' (fun _ hgiven => hgiven.concat _) fun label habandons => ?_
      refine .inr ⟨_, List.mem_append_right _ List.mem_cons_self, habandons, ?_⟩
      rw [Sink.before_attempt]
      exact h.grows a ha
    · obtain rfl := List.mem_singleton.mp ha
      rcases hadded with rfl | ⟨hop, hwritable, hblock⟩
      · -- Without new cells the code has the length it had.
        rw [Sink.before_attempt, hlaid.offset_eq, List.append_nil, hextent] at hwrote
        exact absurd hwrote (Nat.lt_irrefl _)
      · refine ⟨hop, hwritable, cells', new, [], by rw [List.append_nil], ?_, ?_⟩
        · rw [hextent, Sink.before_attempt]
        · exact hblock.imp fun _ _ hcell =>
            hcell.trans (.same _) (fun _ hrefused => .inl hrefused) fun _ h => h

theorem logged_session (h : Logged log w cells) (calls : List Call) :
    ∃ cells', Logged (log ++ Sink.attempts calls w) (Sink.session calls w).2 cells' := by
  induction calls generalizing log w cells with
  | nil => exact ⟨cells, (List.append_nil log).symm ▸ h⟩
  | cons c rest ih =>
    obtain ⟨cells₁, h₁⟩ := h.attempt c
    obtain ⟨cells₂, h₂⟩ := ih h₁
    rw [List.append_assoc] at h₂
    rw [Sink.session_cons]
    exact ⟨cells₂, h₂⟩

/-- **What a body holds that ended well after refusals.**  Each call that wrote anything has its
instruction in the code, where the code ended when the call was made.  The offsets of a branch or a jump
table lead to the marks of its labels, with two exceptions: if the call itself was refused, or if the label
was marked later and the mark was refused because some branch does not reach it, the offset may be zero
instead. -/
theorem reaches_or_givenUp_of_finish {calls : List Call} {p : π} {reply : Option Nat}
    (hfinish : Sink.step .finish (Sink.session calls ({ symbols := p } : Writer π)).2 = .ok reply w) :
    (∀ label m, w.mark? label = some m ↔
      ∃ a ∈ Sink.attempts calls ({ symbols := p } : Writer π), Marks a label ∧ a.before.bytes.length = m) ∧
    ∀ a ∈ Sink.attempts calls ({ symbols := p } : Writer π), a.before.bytes.length < a.after.bytes.length →
      ∃ i : Instruction, i.isWellFormed = true ∧ i.bytes <+: w.bytes.drop a.before.bytes.length ∧
        a.call.WrittenAs (fun stop label distance => Reaches w.mark? stop label distance ∨
            distance = 0 ∧ GivenUp (Sink.attempts calls { symbols := p }) a label)
          (a.call.tokenFrom a.before.symbols).1 (a.before.bytes.length + i.size) i := by
  obtain ⟨hfixups, hw⟩ := finish_ok.mp (silent_ok.mp hfinish).2
  obtain ⟨cells, hlogged⟩ := logged_session (logged_fresh p) calls
  rw [hw] at hfixups
  rw [List.nil_append, hw] at hlogged
  refine ⟨hlogged.marks, ?_⟩
  intro a ha hwrote
  obtain ⟨hop, hwritable, front, block, back, rfl, hfront, hblock⟩ := hlogged.stands a ha hwrote
  obtain ⟨op, hop⟩ := Option.isSome_iff_exists.mp hop
  have hsettled := holds_of_settled (hlogged.laid.settled hfixups)
  have hholds := holds_of_kept hblock fun c hc =>
    hsettled c (List.mem_append_right _ (List.mem_append_left _ hc))
  obtain ⟨i, hformed, hbytes, hwritten⟩ := exists_instruction_of_holds hop hwritable hholds
  refine ⟨i, hformed, ?_, hwritten⟩
  -- Before the instruction stands what was written before, which is as long as the code was then.
  have hcode : w.bytes = image w.mark? front ++ (i.bytes ++ image w.mark? back) := by
    unfold bytes
    rw [hlogged.laid.code, image_append, image_append, ← hbytes]
    rfl
  have hlength : a.before.bytes.length = (image w.mark? front).length := by
    rw [length_image, hfront]
    rfl
  rw [hcode, hlength, List.drop_left]
  exact List.prefix_append _ _

/-- Two branches to one label, of which only the second could reach it. -/
def farLabel : List Call :=
  [.createLabel "end", .branch .brS 0, .branch .br 0] ++
    List.replicate 15 (.emit .ldcI8 (.int64 0)) ++ [.markLabel 0]

theorem reaches_or_givenUp_farLabel : ∃ w : Writer,
    Sink.step .finish (Sink.session farLabel ({ symbols := {} } : Writer)).2 = .ok none w ∧
      w.mark? 0 = some 142 ∧ (w.bytes.drop 2).take 5 = [0x38, 0, 0, 0, 0] ∧
      ∃ a ∈ Sink.attempts farLabel ({ symbols := {} } : Writer), a.call = .branch .br 0 ∧
        a.before.bytes.length = 2 ∧ ∃ i : Instruction, i.isWellFormed = true ∧ i.bytes <+: w.bytes.drop 2 ∧
          a.call.WrittenAs (fun stop label distance => Reaches w.mark? stop label distance ∨
              distance = 0 ∧ GivenUp (Sink.attempts farLabel { symbols := {} }) a label)
            (a.call.tokenFrom a.before.symbols).1 (2 + i.size) i := by
  have hend : (Sink.session farLabel ({ symbols := {} } : Writer)).2.fixups = [] ∧
      (Sink.session farLabel ({ symbols := {} } : Writer)).2.mark? 0 = some 142 ∧
      ((Sink.session farLabel ({ symbols := {} } : Writer)).2.bytes.drop 2).take 5
        = [0x38, 0, 0, 0, 0] := by
    decide +kernel
  obtain ⟨hfixups, hmark, hbytes⟩ := hend
  have hfinish : Sink.step .finish (Sink.session farLabel ({ symbols := {} } : Writer)).2
      = .ok none (Sink.session farLabel ({ symbols := {} } : Writer)).2 :=
    step_finish hfixups
  have hlog : ∃ a ∈ Sink.attempts farLabel ({ symbols := {} } : Writer), a.call = .branch .br 0 ∧
      a.before.bytes.length = 2 ∧ a.after.bytes.length = 7 :=
    ⟨_, Sink.mem_attempts (farLabel.take 2) (farLabel.drop 3) (.branch .br 0) _, Sink.call_attempt _ _,
      by decide +kernel, by decide +kernel⟩
  obtain ⟨a, ha, hcall, hbefore, hafter⟩ := hlog
  obtain ⟨-, hstands⟩ := reaches_or_givenUp_of_finish hfinish
  have hinstruction := hstands a ha (by rw [hbefore, hafter]; decide)
  rw [hbefore] at hinstruction
  exact ⟨_, hfinish, hmark, hbytes, a, ha, hcall, hbefore, hinstruction⟩

end Writer

end Cil
