/-
What holds whatever becomes of a call.

A refused call keeps the changes it made before it was refused, so what is to hold in every state has to
hold after each part of a check, not only after the whole of it.  `Stable` lists the parts.  A property
that they keep holds after every call (`Stable.keeps_accept`) and so through a session, however the
calls are answered (`keeps_session`).

The simplest such properties are about labels: whatever the calls, a label only gains
(`grows_session`).
-/
import Cil.Proofs.Verifier.Accept

namespace Cil

namespace Checker

/-! ### What every call keeps -/

/-- Taking up prefixes changes nothing but the prefixes. -/
theorem keeps_takePrefixes {I : Checker → Prop} {op : Opcode}
    (hpending : ∀ k pending, I k → I { k with pending := pending }) :
    Step.Keeps I (fun _ => True) (takePrefixes op) := by
  intro k hk
  cases hok : takePrefixes op k with
  | ok active k' =>
    obtain ⟨-, -, rfl⟩ := takePrefixes_ok.mp hok
    exact ⟨hpending k _ hk, trivial⟩
  | error e k' =>
    have hsame : k' = k := by
      unfold takePrefixes at hok
      repeat' split at hok
      all_goals cases hok
      all_goals rfl
    exact hsame ▸ hk

/-- A property that the parts of the check of a call keep, whether they succeed or not. -/
structure Stable (I : Checker → Prop) (c : Call) : Prop where
  begins : ∀ op, Step.Keeps I (fun _ => True) (begin op)
  runs : ∀ f transition, c.rule? f = some transition →
    Step.Keeps I (fun _ => True) (onStack transition)
  reaches : ∀ targets, Step.Keeps I (fun _ => True) (reachAll targets)
  ends : Step.Keeps I (fun _ => True) (modify fun k => { k with reachable := false })
  marks : ∀ index, Step.Keeps I (fun _ => True) (mark index)

namespace Stable

variable {I : Checker → Prop} {c : Call} (stable : Stable I c)
include stable

theorem keeps_instruction (op : Opcode) (targets : List Nat) :
    Step.Keeps I (fun _ => True) (instruction op c.rule? targets) := by
  refine Step.keeps_bind (stable.begins op) fun active _ => ?_
  refine Step.keeps_bind Step.keeps_get fun k _ => ?_
  cases hrule : c.rule? (k.frame active) with
  | none => exact Step.keeps_bind (Q := fun _ => False) Step.keeps_throw fun _ h => h.elim
  | some transition =>
    refine Step.keeps_bind (stable.runs _ transition hrule) fun _ _ => ?_
    refine Step.keeps_bind (stable.reaches targets) fun _ _ => ?_
    split
    · exact stable.ends
    · exact Step.keeps_pure trivial

omit stable in
theorem keeps_requireForm {op : Opcode} {takes : Bool} {form : String} :
    Step.Keeps I (fun _ => True) (requireForm op takes form) := by
  unfold requireForm
  split
  · exact Step.keeps_pure trivial
  · exact Step.keeps_throw

omit stable in
theorem keeps_label {index : Nat} : Step.Keeps I (fun _ => True) (label index) := by
  intro k hk
  unfold label
  cases k.labels.find index with
  | ok l => exact ⟨hk, trivial⟩
  | error e => exact hk

omit stable in
theorem keeps_mapM_label {targets : List Nat} :
    Step.Keeps I (fun _ => True) (targets.mapM label : Step Checker (List Label)) := by
  induction targets with
  | nil => exact Step.keeps_pure trivial
  | cons target rest ih =>
    rw [List.mapM_cons]
    refine Step.keeps_bind keeps_label fun l _ => ?_
    exact Step.keeps_bind ih fun ls _ => Step.keeps_pure trivial

omit stable in
theorem keeps_refusal {α : Type} {v : Violation} {f : α → Step Checker Unit} :
    Step.Keeps I (fun _ => True) (refuse v >>= f) :=
  Step.keeps_bind (Q := fun _ => False) Step.keeps_throw fun _ h => h.elim

omit stable in
theorem keeps_finish : Step.Keeps I (fun _ => True) finish := by
  refine Step.keeps_bind Step.keeps_get fun k _ => ?_
  cases k.pending with
  | cons last rest => exact keeps_refusal
  | nil =>
    cases k.labels.firstUnmarkedTarget? with
    | some l => exact keeps_refusal
    | none =>
      dsimp only
      split
      · exact keeps_refusal
      · split
        · exact Step.keeps_throw
        · exact Step.keeps_pure trivial

theorem keeps_formed {op : Opcode} {takes : Bool} {form : String} {passed : Call} :
    Step.Keeps I (fun _ => True)
      (do requireForm op takes form; instruction op c.rule? []; return passed) := by
  refine Step.keeps_bind keeps_requireForm fun _ _ => ?_
  refine Step.keeps_bind (stable.keeps_instruction op []) fun _ _ => ?_
  exact Step.keeps_pure trivial

omit stable in
theorem keeps_number {op : Opcode} {x : Operand} (stable : Stable I (.emit op x)) :
    Step.Keeps I (fun _ => True) (number op x) := by
  unfold number
  dsimp only
  split
  · exact Step.keeps_bind (Q := fun _ => False) Step.keeps_throw fun _ h => h.elim
  · split
    · exact keeps_refusal
    · exact stable.keeps_instruction op []

/-- What the parts of its check keep, a call keeps, accepted or not. -/
theorem keeps_accept : Step.Keeps I (fun _ => True) (accept c) := by
  cases c with
  | declareLocal t name =>
    refine Step.keeps_bind Step.keeps_get fun k _ => ?_
    dsimp only
    split
    · exact Step.keeps_bind (Q := fun _ => False) Step.keeps_throw fun _ h => h.elim
    · exact Step.keeps_pure trivial
  | createLabel name => exact Step.keeps_pure trivial
  | markLabel index =>
    exact Step.keeps_bind (stable.marks index) fun l _ => Step.keeps_pure trivial
  | emit op x => exact Step.keeps_bind (keeps_number stable) fun _ _ => Step.keeps_pure trivial
  | branch op target =>
    refine Step.keeps_bind keeps_requireForm fun _ _ => ?_
    refine Step.keeps_bind keeps_label fun l _ => ?_
    refine Step.keeps_bind (stable.keeps_instruction op [target]) fun _ _ => ?_
    exact Step.keeps_pure trivial
  | switch targets =>
    refine Step.keeps_bind keeps_mapM_label fun ls _ => ?_
    refine Step.keeps_bind (stable.keeps_instruction .switch targets) fun _ _ => ?_
    exact Step.keeps_pure trivial
  | invoke op m => exact stable.keeps_formed
  | field op f => exact stable.keeps_formed
  | type op t => exact stable.keeps_formed
  | token op m => exact stable.keeps_formed
  | string op value => exact stable.keeps_formed
  | finish => exact Step.keeps_bind keeps_finish fun _ _ => Step.keeps_pure trivial

end Stable

/-! ### What holds of the labels whatever becomes of a call -/

theorem keeps_onStack {I : Checker → Prop} {m : Step Stack Unit}
    (hm : ∀ k : Checker, Step.Keeps (fun s => I { k with stack := s }) (fun _ => True) m) :
    Step.Keeps I (fun _ => True) (onStack m) := by
  intro k hk
  unfold onStack
  cases hok : m k.stack with
  | ok a s => exact (hm k).of_ok hk hok
  | error e s => exact (hm k).of_error hk hok

theorem keeps_onLabels {I : Checker → Prop} {m : Step LabelTable Unit}
    (hm : ∀ k : Checker, Step.Keeps (fun t => I { k with labels := t }) (fun _ => True) m) :
    Step.Keeps I (fun _ => True) (onLabels m) := by
  intro k hk
  unfold onLabels
  cases hok : m k.labels with
  | ok a t => exact (hm k).of_ok hk hok
  | error e t => exact (hm k).of_error hk hok

section Labels

variable {J : LabelTable → Prop}

theorem keeps_enter {entries : List Entry} :
    Step.Keeps (fun k => J k.labels) (fun _ => True) (modify (enter entries)) := by
  refine Step.keeps_modify trivial fun k hk => ?_
  unfold enter
  split
  · exact hk
  · exact hk

/-- Calls keep what holds of labels whatever they gain. -/
theorem stable_labels (hput : ∀ t index l l', J t → t.labels[index]? = some l → l.Grows l' →
    J (t.put index l')) (c : Call) : Stable (fun k => J k.labels) c where
  begins := by
    intro op
    refine Step.keeps_bind keeps_enter fun _ _ => ?_
    refine Step.keeps_bind (Q := fun _ => True)
      (Step.keeps_modify trivial fun k hk => hk) fun _ _ => ?_
    exact keeps_takePrefixes fun k pending hk => hk
  runs := fun _ _ _ => keeps_onStack fun k => Step.keeps_const (p := J k.labels)
  reaches := by
    intro targets
    refine Step.keeps_bind Step.keeps_get fun k _ => ?_
    refine Step.keeps_forM trivial fun target _ => keeps_onLabels fun k => ?_
    exact LabelTable.keeps_reach fun t l l' ht hl hgrows _ => hput t target l l' ht hl hgrows
  ends := Step.keeps_modify trivial fun k hk => hk
  marks := by
    intro index
    refine Step.keeps_bind (keeps_onLabels fun k => LabelTable.keeps_mark
      fun t l l' ht hl hgrows _ => hput t index l l' ht hl hgrows) fun _ _ => ?_
    refine Step.keeps_bind Stable.keeps_label fun l _ => ?_
    refine Step.keeps_bind keeps_enter fun _ _ => ?_
    refine Step.keeps_bind Step.keeps_get fun k _ => ?_
    refine Step.keeps_bind (keeps_onLabels fun k => LabelTable.keeps_reach
      fun t l l' ht hl hgrows _ => hput t index l l' ht hl hgrows) fun _ _ => ?_
    exact Step.keeps_pure trivial

end Labels

theorem grows_settle (c : Call) (reply : Option Nat) (k : Checker) :
    k.labels.Grows (settle c reply k).2.labels := by
  cases c with
  | createLabel name => exact LabelTable.grows_create k.labels name _
  | _ => exact LabelTable.Grows.refl k.labels

end Checker

namespace Verifier

variable {δ : Type} [Sink δ]

/-- **What the checks of all calls keep holds through a session**, if making a local or a label keeps
it too. -/
theorem keeps_session {I : Checker → Prop} {calls : List Call} {v : Verifier δ}
    (hstable : ∀ c ∈ calls, Checker.Stable I c)
    (hsettle : ∀ c ∈ calls, ∀ reply k, I k → I (Checker.settle c reply k).2) (hv : I v.checker) :
    I (Sink.session calls v).2.checker := by
  refine Sink.keeps_session (I := fun v : Verifier δ => I v.checker) (fun c hc v hv => ?_) hv
  have hkeeps := (hstable c hc).keeps_accept
  cases hstep : Sink.step c v with
  | ok reply v' =>
    obtain ⟨c', k, r, haccept, -, hsettled⟩ := step_ok.mp hstep
    have hv' := hsettle c hc r k (hkeeps.of_ok hv haccept).1
    rw [hsettled] at hv'
    exact ⟨hv', trivial⟩
  | error e v' =>
    rcases step_error hstep with ⟨haccept, -⟩ | ⟨c', haccept, -⟩
    · exact hkeeps.of_error hv haccept
    · exact (hkeeps.of_ok hv haccept).1

/-- **Labels only gain**: through any session a mark and a snapshot stay. -/
theorem grows_session (calls : List Call) (v : Verifier δ) :
    v.checker.labels.Grows (Sink.session calls v).2.checker.labels := by
  refine keeps_session (I := fun k => v.checker.labels.Grows k.labels) ?_ ?_
    (LabelTable.Grows.refl _)
  · intro c _
    exact Checker.stable_labels (J := v.checker.labels.Grows)
      (fun t index l l' ht hl hgrows => ht.trans (LabelTable.grows_put hl hgrows)) c
  · intro c _ reply k hk
    exact hk.trans (Checker.grows_settle c reply k)

end Verifier

end Cil
