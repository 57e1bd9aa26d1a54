/-
What the checker's stack and its labels can hold.

Neither the stack nor a stack that a label holds is ever deeper than the method allows, and every entry
in them is the null reference or a value whose stack type follows from the type it was made from.  That
is so in every state, also after calls that were refused halfway.

The rules keep it: they push only values just made of a type, entries they popped, and null references.
What a label holds was the stack once, and the stack is taken from a label or is empty where control
does not come from the instruction before.  So nothing else ever gets in, and null references get in by
`ldnull` alone (`typed_session`).
-/
import Cil.Proofs.Verifier.Invariant
import Cil.Proofs.Verifier.Lockstep

namespace Cil

/-- The null reference, or a value whose stack type is what the type it was made from decays to. -/
def Entry.Typed (e : Entry) : Prop :=
  e = .null ∨ ∃ t, e.concrete = some t ∧ e.tag = t.dataType.stackType

theorem Entry.Typed.isStackType_tag {e : Entry} (h : e.Typed) : e.tag.isStackType = true := by
  rcases h with rfl | ⟨t, -, htag⟩
  · decide
  · rw [htag]
    exact DataType.isStackType_stackType _

/-- The stacks a checker holds: the current one and the snapshots of its labels. -/
def Checker.stacks (k : Checker) : List (List Entry) :=
  k.stack.entries :: k.labels.labels.toList.filterMap Label.snapshot

/-! ### Rules -/

/-- Two entries of one stack type that both satisfy `P`. -/
def Entry.Both (P : Entry → Prop) (e e' : Entry) : Prop :=
  e.tag = e'.tag ∧ P e ∧ P e'

section

variable {P : Entry → Prop} (hof : ∀ t, P (.of t)) {c : Call} (hnull : ∀ x, c = .emit .ldnull x → P .null)
  {max : Nat}

include hof

theorem Entry.fair_both : Entry.Fair (Entry.Both P) where
  tag := And.left
  of := fun h => ⟨h, hof _, hof _⟩

include hnull

/-- Whether or not it refuses, a rule leaves only entries that satisfy what every value just made of a
type does, and null does if the rule pushes it. -/
theorem Transition.keeps_rule {f : Frame} {transition : Transition}
    (h : c.rule? f = some transition) :
    Step.Keeps (Stack.Within (Entry.Both P) max) (fun _ => True) transition := by
  have hlockstep := lockstep_rule (Entry.fair_both hof) (fun x hc => ⟨rfl, hnull x hc, hnull x hc⟩) h
  have hleft : ∀ e e', Entry.Both P e e' → Entry.Both P e e := fun _ _ he => ⟨rfl, he.2.1, he.2.1⟩
  exact (hlockstep.keeps_within hleft max).mono fun _ _ => trivial

end

/-! ### The checker -/

/-- At most `max` entries, all of which satisfy `P`. -/
def Stack.Fit (P : Entry → Prop) (max : Nat) (entries : List Entry) : Prop :=
  entries.length ≤ max ∧ ∀ e ∈ entries, P e

theorem Stack.fit_nil {P : Entry → Prop} {max : Nat} : Stack.Fit P max [] :=
  ⟨Nat.zero_le max, fun _ he => absurd he List.not_mem_nil⟩

namespace Checker

/-- The stack and the snapshots hold at most `max` entries each, all of which satisfy `P`. -/
structure Holds (P : Entry → Prop) (max : Nat) (k : Checker) : Prop where
  stack : k.stack.Within (Entry.Both P) max
  snapshots : ∀ (i : Nat) (l : Label) (entries : List Entry), k.labels.labels[i]? = some l →
    l.snapshot = some entries → Stack.Fit P max entries

variable {P : Entry → Prop} {max : Nat} {k : Checker}

theorem Holds.fit (h : Holds P max k) : Stack.Fit P max k.stack.entries :=
  ⟨h.stack.depth_le, fun e he => (h.stack.related e he).2.1⟩

theorem holds_start (s : Subject) : Holds P s.maxStack (start s) where
  stack := ⟨rfl, Nat.zero_le _, fun _ he => absurd he List.not_mem_nil⟩
  snapshots := by
    intro i l entries hl
    simp [start] at hl

/-- Where control does not come from the instruction before, the stack is replaced. -/
theorem Holds.enter (h : Holds P max k) {entries : List Entry} (hfit : Stack.Fit P max entries) :
    Holds P max (k.enter entries) := by
  unfold Checker.enter
  by_cases hreach : k.reachable = true
  · rw [if_pos hreach]
    exact h
  · rw [if_neg hreach]
    exact ⟨⟨h.stack.maxDepth_eq, hfit.1, fun e he => ⟨rfl, hfit.2 e he, hfit.2 e he⟩⟩, h.snapshots⟩

/-- Putting a label in the place of another whose snapshot it has, or whose snapshot fits. -/
theorem Holds.put (h : Holds P max k) {index : Nat} {l l' : Label} {entries : List Entry}
    (hl : k.labels.labels[index]? = some l) (hfit : Stack.Fit P max entries)
    (hsnap : l'.snapshot = l.snapshot ∨ l'.snapshot = some entries) :
    Holds P max { k with labels := k.labels.put index l' } where
  stack := h.stack
  snapshots := by
    intro i m es hm hes
    rw [LabelTable.getElem?_put (Array.getElem?_eq_some_iff.mp hl).1] at hm
    by_cases hi : i = index
    · rw [if_pos hi, Option.some.injEq] at hm
      subst hm
      rcases hsnap with hsame | hnew
      · exact h.snapshots index l es hl (hsame ▸ hes)
      · rw [hnew, Option.some.injEq] at hes
        exact hes ▸ hfit
    · rw [if_neg hi] at hm
      exact h.snapshots i m es hm hes

theorem Holds.create (h : Holds P max k) (name : String) (downstream : Nat) :
    Holds P max { k with labels := k.labels.create name downstream } where
  stack := h.stack
  snapshots := by
    intro i l entries hl hentries
    change (k.labels.labels.push _)[i]? = some l at hl
    rw [Array.getElem?_push] at hl
    by_cases hi : i = k.labels.labels.size
    · rw [if_pos hi, Option.some.injEq] at hl
      subst hl
      simp at hentries
    · rw [if_neg hi] at hl
      exact h.snapshots i l entries hl hentries

theorem Holds.settle (h : Holds P max k) (c : Call) (reply : Option Nat) :
    Holds P max (settle c reply k).2 := by
  cases c with
  | declareLocal t name => exact ⟨h.stack, h.snapshots⟩
  | createLabel name => exact h.create name _
  | _ => exact h

/-- A label that is looked up has a snapshot that fits. -/
theorem keeps_label_fit {index : Nat} :
    Step.Keeps (Holds P max) (fun l => Stack.Fit P max (l.snapshot.getD [])) (label index) := by
  intro k hk
  unfold label LabelTable.find
  cases hl : k.labels.labels[index]? with
  | none => exact hk
  | some l =>
    refine ⟨hk, ?_⟩
    cases hsnap : l.snapshot with
    | none => exact hsnap ▸ Stack.fit_nil
    | some entries => exact hsnap ▸ hk.snapshots index l entries hl hsnap

theorem keeps_mark_holds {index : Nat} :
    Step.Keeps (Holds P max) (fun _ => True) (onLabels (LabelTable.mark index)) :=
  keeps_onLabels fun _ => LabelTable.keeps_mark fun _ _ _ ht hl _ hsnap =>
    ht.put hl Stack.fit_nil (Or.inl hsnap)

theorem keeps_reach_holds {index : Nat} {entries : List Entry} {byBranch : Bool}
    (hfit : Stack.Fit P max entries) :
    Step.Keeps (Holds P max) (fun _ => True) (onLabels (LabelTable.reach index entries byBranch)) :=
  keeps_onLabels fun _ => LabelTable.keeps_reach fun _ _ _ ht hl _ hsnap => ht.put hl hfit hsnap

theorem keeps_enter_holds {entries : List Entry} (hfit : Stack.Fit P max entries) :
    Step.Keeps (Holds P max) (fun _ => True) (modify (enter entries)) :=
  Step.keeps_modify trivial fun _ hk => hk.enter hfit

/-- No call, accepted or refused, brings anything else into the stack or into a snapshot. -/
theorem stable_holds (hof : ∀ t, P (.of t)) {c : Call} (hnull : ∀ x, c = .emit .ldnull x → P .null) :
    Stable (Holds P max) c where
  begins := by
    intro op
    refine Step.keeps_bind (keeps_enter_holds Stack.fit_nil) fun _ _ => ?_
    refine Step.keeps_bind (Q := fun _ => True) (Step.keeps_modify trivial fun k hk => ?_) fun _ _ => ?_
    · exact ⟨⟨hk.stack.maxDepth_eq, hk.stack.depth_le, hk.stack.related⟩, hk.snapshots⟩
    · exact keeps_takePrefixes fun k pending hk => ⟨hk.stack, hk.snapshots⟩
  runs := by
    intro f transition hrule
    refine keeps_onStack fun k s hs => ?_
    have hkeeps : Step.Keeps (Stack.Within (Entry.Both P) max) (fun _ => True) transition :=
      Transition.keeps_rule hof hnull hrule
    cases hok : transition s with
    | ok a s' => exact ⟨⟨(hkeeps.of_ok hs.stack hok).1, hs.snapshots⟩, trivial⟩
    | error e s' => exact ⟨hkeeps.of_error hs.stack hok, hs.snapshots⟩
  reaches := by
    intro targets
    refine Step.keeps_bind Step.keeps_get fun k hk => ?_
    exact Step.keeps_forM trivial fun target _ => keeps_reach_holds hk.fit
  ends := Step.keeps_modify trivial fun k hk => ⟨hk.stack, hk.snapshots⟩
  marks := by
    intro index
    refine Step.keeps_bind keeps_mark_holds fun _ _ => ?_
    refine Step.keeps_bind keeps_label_fit fun l hl => ?_
    refine Step.keeps_bind (keeps_enter_holds hl) fun _ _ => ?_
    refine Step.keeps_bind Step.keeps_get fun k hk => ?_
    refine Step.keeps_bind (keeps_reach_holds hk.fit) fun _ _ => ?_
    exact Step.keeps_pure trivial

theorem Holds.fit_of_mem_stacks (h : Holds P max k) {entries : List Entry}
    (hmem : entries ∈ k.stacks) : Stack.Fit P max entries := by
  rcases List.mem_cons.mp hmem with rfl | hmem
  · exact h.fit
  · obtain ⟨l, hl, hsnap⟩ := List.mem_filterMap.mp hmem
    obtain ⟨i, hi⟩ := List.getElem?_of_mem hl
    rw [Array.getElem?_toList] at hi
    exact h.snapshots i l entries hi hsnap

end Checker

/-! ### Sessions -/

namespace Verifier

variable {δ : Type} [Sink δ]

/-- What a session can bring into the stack and the snapshots: values made of a type, and null if
some call is an `ldnull`. -/
def Brought (calls : List Call) (e : Entry) : Prop :=
  (∃ t, e = .of t) ∨ e = .null ∧ ∃ x, Call.emit .ldnull x ∈ calls

theorem holds_session (s : Subject) (d : δ) (calls : List Call) :
    (Sink.session calls (start s d)).2.checker.Holds (Brought calls) s.maxStack := by
  refine keeps_session ?_ ?_ (Checker.holds_start s)
  · intro c hc
    refine Checker.stable_holds (fun t => Or.inl ⟨t, rfl⟩) fun x hx => ?_
    exact Or.inr ⟨rfl, x, hx ▸ hc⟩
  · intro c _ reply k hk
    exact hk.settle c reply

theorem Brought.typed {calls : List Call} {e : Entry} (h : Brought calls e) : e.Typed := by
  rcases h with ⟨t, rfl⟩ | ⟨rfl, -⟩
  · exact Or.inr ⟨t, rfl, rfl⟩
  · exact Or.inl rfl

theorem Brought.null {calls : List Call} {e : Entry} (h : Brought calls e) (hnone : e.concrete = none) :
    e = .null ∧ ∃ x, Call.emit .ldnull x ∈ calls := by
  rcases h with ⟨t, rfl⟩ | hnull
  · simp [Entry.of] at hnone
  · exact hnull

/-- **What a checker holds**: after any session, calls refused on the way included, the stack and
every snapshot are as deep as the method allows at most, and each of their entries is null, brought by
an `ldnull`, or a value with the stack type of its type.  From there on snapshots and marks stay. -/
theorem typed_session (s : Subject) (d : δ) (calls : List Call) :
    let v := (Sink.session calls (start s d)).2
    (∀ entries ∈ v.checker.stacks, entries.length ≤ s.maxStack ∧
      ∀ e ∈ entries, e.Typed ∧ e.tag.isStackType = true ∧
        (e.concrete = none → e = .null ∧ ∃ x, Call.emit .ldnull x ∈ calls)) ∧
    ∀ (more : List Call) (i : Nat) (l : Label), v.checker.labels.labels[i]? = some l →
      ∃ l', (Sink.session more v).2.checker.labels.labels[i]? = some l' ∧
        (∀ entries, l.snapshot = some entries → l'.snapshot = some entries) ∧
        (l.marked = true → l'.marked = true) := by
  intro v
  constructor
  · intro entries hentries
    obtain ⟨hlength, hbrought⟩ := (holds_session s d calls).fit_of_mem_stacks hentries
    refine ⟨hlength, fun e he => ?_⟩
    have htyped := (hbrought e he).typed
    exact ⟨htyped, htyped.isStackType_tag, (hbrought e he).null⟩
  · intro more i l hl
    obtain ⟨l', hl', hgrows⟩ := grows_session more v i l hl
    exact ⟨l', hl', hgrows.snapshot, hgrows.marked⟩

end Verifier

end Cil
