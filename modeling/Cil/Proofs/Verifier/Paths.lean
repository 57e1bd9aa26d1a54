/-
Accepted bodies are safe on every path.

The checker goes through a body once, in the order of the code.  What it accepts holds for every path
all the same, however often the path goes round a loop.  The reason is an invariant, `Tracked`, that
ties the code seen so far to the labels and to the present stack:

  - wherever control leaves an instruction, the stack goes to the next instruction as the one the
    checker had there, and to every target as the one the target holds;
  - wherever a label was marked, the checker had the stack the label holds.

Dead code is in the list of instructions too, but control enters it nowhere.  The states that the
checker was in just before each instruction are kept in `seen`, and `Entered` asks of such a state
that control could come to it.
-/
import Cil.Proofs.Verifier.Body

namespace Cil

/-- The states of the checker just before each instruction that it accepts. -/
def Verifier.statesBefore {δ : Type} [Sink δ] : List Call → Verifier δ → List Checker
  | [], _ => []
  | c :: rest, v =>
    match Sink.step c v with
    | .ok _ v' =>
      if c.opcode?.isSome then v.checker :: statesBefore rest v' else statesBefore rest v'
    | .error _ _ => []

namespace Checker

variable {s : Subject} {b : Body} {seen : List Checker} {k k' : Checker}

/-- Control comes to the instruction at index `i` with the given tags.  The instruction may be the
next one. -/
def Entered (seen : List Checker) (k : Checker) (i : Nat) (tags : List DataType) : Prop :=
  ∃ k', (seen ++ [k])[i]? = some k' ∧ k'.reachable = true ∧ k'.stack.tags = tags

theorem getElem?_concat {α : Type} {xs : List α} {x y : α} {i : Nat} :
    (xs ++ [x])[i]? = some y ↔ xs[i]? = some y ∨ i = xs.length ∧ x = y := by
  rw [List.getElem?_append]
  split
  · next h => simp [Nat.ne_of_lt h]
  · next h =>
    rw [List.getElem?_eq_none (Nat.not_lt.mp h), List.getElem?_singleton]
    simp only [reduceCtorEq, false_or]
    split
    · next hi => simp [Nat.le_antisymm (Nat.sub_eq_zero_iff_le.mp hi) (Nat.not_lt.mp h)]
    · next hi => simp; omega

/-- What comes to the place after the code seen so far stays there if the stack does. -/
theorem Entered.here {i : Nat} {tags : List DataType} (h : Entered seen k i tags)
    (hkeep : k.reachable = true → k'.reachable = true ∧ k'.stack.tags = k.stack.tags) :
    Entered seen k' i tags := by
  obtain ⟨k₁, hk₁, hreach, htags⟩ := h
  rcases getElem?_concat.mp hk₁ with hk₁ | ⟨hi, rfl⟩
  · exact ⟨k₁, getElem?_concat.mpr (Or.inl hk₁), hreach, htags⟩
  · obtain ⟨hreach', htags'⟩ := hkeep hreach
    exact ⟨k', getElem?_concat.mpr (Or.inr ⟨hi, rfl⟩), hreach', htags'.trans htags⟩

/-- More code leaves what comes to the code before. -/
theorem Entered.append {i : Nat} {tags : List DataType} (h : Entered seen k i tags) (k' : Checker) :
    Entered (seen ++ [k]) k' i tags := by
  obtain ⟨k₁, hk₁, hreach, htags⟩ := h
  exact ⟨k₁, getElem?_concat.mpr (Or.inl hk₁), hreach, htags⟩

theorem entered_last {tags : List DataType} (hreach : k.reachable = true)
    (htags : k.stack.tags = tags) : Entered seen k seen.length tags :=
  ⟨k, getElem?_concat.mpr (Or.inr ⟨rfl, rfl⟩), hreach, htags⟩

/-- An instruction fits in: its stack is within the bound before and after, and control takes the
stack to where it was expected. -/
structure Fits (max : Nat) (seen : List Checker) (k : Checker) (i : Nat) (site : Site)
    (tags : List DataType) : Prop where
  length_le : tags.length ≤ max
  leaves : ∃ tags', site.Effect max tags tags' ∧ tags'.length ≤ max ∧
    (site.call.endsFlow = false → Entered seen k (i + 1) tags') ∧
    ∀ target ∈ site.call.targets, k.labels.Holds target tags' ∧
      ∃ l, k.labels.labels[target]? = some l ∧ l.targeted = true

/-- The code seen so far, the labels and the present stack belong together. -/
structure Tracked (s : Subject) (b : Body) (seen : List Checker) (k : Checker) : Prop where
  subject : k.subject = s
  method : b.method = s.method
  locals : b.locals = k.locals
  prefixes : b.prefixes = k.pending
  length : seen.length = b.code.length
  within : k.stack.Within Entry.SameTag s.maxStack
  snapshots : ∀ (i : Nat) (l : Label) (es : List Entry), k.labels.labels[i]? = some l →
    l.snapshot = some es → es.length ≤ s.maxStack
  first : Entered seen k 0 []
  fits : ∀ (i : Nat) (site : Site) (k₁ : Checker), b.code[i]? = some site → seen[i]? = some k₁ →
    k₁.reachable = true → Fits s.maxStack seen k i site k₁.stack.tags
  marks : ∀ label i, (label, i) ∈ b.marks → ∃ tags, k.labels.Holds label tags ∧ Entered seen k i tags
  marked : ∀ (label : Nat) (l : Label), k.labels.labels[label]? = some l → l.marked = true →
    ∃ i, (label, i) ∈ b.marks

theorem tracked_start (s : Subject) : Tracked s { method := s.method } [] (start s) where
  subject := rfl
  method := rfl
  locals := rfl
  prefixes := rfl
  length := rfl
  within := ⟨rfl, Nat.zero_le _, fun e he => absurd he List.not_mem_nil⟩
  snapshots := by
    intro i l es hl
    exact absurd hl (by simp [start])
  first := ⟨start s, rfl, rfl, rfl⟩
  fits := by
    intro i site k₁ hsite
    exact absurd hsite (by simp)
  marks := by
    intro label i hmem
    exact absurd hmem List.not_mem_nil
  marked := by
    intro label l hl
    exact absurd hl (by simp [start])

/-- An instruction still fits in a later state. -/
theorem Fits.mono {max : Nat} {i : Nat} {site : Site} {tags : List DataType} {seen' : List Checker}
    (h : Fits max seen k i site tags) (hgrows : k.labels.Grows k'.labels)
    (hentered : ∀ {j tags}, Entered seen k j tags → Entered seen' k' j tags) :
    Fits max seen' k' i site tags := by
  obtain ⟨tags', heffect, hle, hnext, htargets⟩ := h.leaves
  refine ⟨h.length_le, tags', heffect, hle, fun hends => hentered (hnext hends), ?_⟩
  intro target hmem
  obtain ⟨hholds, l, hl, htargeted⟩ := htargets target hmem
  obtain ⟨l', hl', hg⟩ := hgrows target l hl
  exact ⟨hholds.grows hgrows, l', hl', hg.targeted htargeted⟩

/-! ### Calls that emit no instruction -/

theorem Tracked.declareLocal (h : Tracked s b seen k) (t : Ty) (name : String) :
    Tracked s { b with locals := b.locals.push (t, name) } seen
      { k with locals := k.locals.push (t, name) } where
  subject := h.subject
  method := h.method
  locals := congrArg (Array.push · (t, name)) h.locals
  prefixes := h.prefixes
  length := h.length
  within := h.within
  snapshots := h.snapshots
  first := h.first.here fun hreach => ⟨hreach, rfl⟩
  fits := fun i site k₁ hsite hk₁ hreach =>
    (h.fits i site k₁ hsite hk₁ hreach).mono (.refl _) fun h => h.here fun hreach => ⟨hreach, rfl⟩
  marks := by
    intro label i hmem
    obtain ⟨tags, hholds, hentered⟩ := h.marks label i hmem
    exact ⟨tags, hholds, hentered.here fun hreach => ⟨hreach, rfl⟩⟩
  marked := h.marked

/-- A new label is not marked and holds no stack. -/
theorem getElem?_create {t : LabelTable} {name : String} {downstream i : Nat} {l : Label}
    (hl : (t.create name downstream).labels[i]? = some l) :
    t.labels[i]? = some l ∨ l.marked = false ∧ l.snapshot = none := by
  unfold LabelTable.create at hl
  rw [Array.getElem?_push] at hl
  split at hl
  · cases hl
    exact Or.inr ⟨rfl, rfl⟩
  · exact Or.inl hl

theorem Tracked.createLabel (h : Tracked s b seen k) (name : String) (downstream : Nat) :
    Tracked s b seen { k with labels := k.labels.create name downstream } where
  subject := h.subject
  method := h.method
  locals := h.locals
  prefixes := h.prefixes
  length := h.length
  within := h.within
  snapshots := by
    intro i l es hl hsnap
    rcases getElem?_create hl with hold | ⟨-, hnone⟩
    · exact h.snapshots i l es hold hsnap
    · exact nomatch hnone.symm.trans hsnap
  first := h.first.here fun hreach => ⟨hreach, rfl⟩
  fits := fun i site k₁ hsite hk₁ hreach =>
    (h.fits i site k₁ hsite hk₁ hreach).mono (LabelTable.grows_create _ _ _)
      fun h => h.here fun hreach => ⟨hreach, rfl⟩
  marks := by
    intro label i hmem
    obtain ⟨tags, hholds, hentered⟩ := h.marks label i hmem
    exact ⟨tags, hholds.grows (LabelTable.grows_create _ _ _),
      hentered.here fun hreach => ⟨hreach, rfl⟩⟩
  marked := by
    intro label l hl hmarked
    rcases getElem?_create hl with hold | ⟨hunmarked, -⟩
    · exact h.marked label l hold hmarked
    · exact nomatch hunmarked.symm.trans hmarked

/-- Control that comes from the instruction before finds the stack it left. -/
theorem enter_keeps (es : List Entry) (hreach : k.reachable = true) : k.enter es = k := by
  unfold enter
  rw [if_pos hreach]

theorem reachable_enter (k : Checker) (es : List Entry) : (k.enter es).reachable = true := by
  unfold enter
  split
  · assumption
  · rfl

theorem enter_unchanged (k : Checker) (es : List Entry) : (k.enter es).subject = k.subject ∧
    (k.enter es).locals = k.locals ∧ (k.enter es).pending = k.pending := by
  unfold enter
  split <;> exact ⟨rfl, rfl, rfl⟩

theorem Tracked.within_enter (h : Tracked s b seen k) {es : List Entry}
    (hes : es.length ≤ s.maxStack) : (k.enter es).stack.Within Entry.SameTag s.maxStack := by
  unfold enter
  split
  · exact h.within
  · exact ⟨h.within.maxDepth_eq, hes, fun _ _ => rfl⟩

theorem Tracked.markLabel (h : Tracked s b seen k) {label : Nat} {l : Label} {t : LabelTable}
    (hl : k.labels.labels[label]? = some l)
    (hreach : LabelTable.reach label (k.enter (l.snapshot.getD [])).stack.entries false
      (k.labels.put label { l with marked := true }) = .ok () t) :
    Tracked s { b with marks := b.marks ++ [(label, b.code.length)] } seen
      { k.enter (l.snapshot.getD []) with labels := t } := by
  have hmark : l.Grows { l with marked := true } := ⟨rfl, rfl, fun _ => rfl, id, fun _ => id⟩
  have hgrows : k.labels.Grows t :=
    (LabelTable.grows_put hl hmark).trans (LabelTable.grows_of_reach hreach)
  have hput := LabelTable.getElem?_put (l := { l with marked := true })
    (Array.getElem?_eq_some_iff.mp hl).1
  have hold : (l.snapshot.getD []).length ≤ s.maxStack := by
    cases hsnap : l.snapshot with
    | none => exact Nat.zero_le _
    | some es => exact h.snapshots label l es hl hsnap
  have hwithin := h.within_enter hold
  have hkeep : k.reachable = true →
      ({ k.enter (l.snapshot.getD []) with labels := t } : Checker).reachable = true ∧
        ({ k.enter (l.snapshot.getD []) with labels := t } : Checker).stack.tags = k.stack.tags := by
    intro hreachable
    rw [enter_keeps _ hreachable]
    exact ⟨hreachable, rfl⟩
  obtain ⟨hsubject, hlocals, hpending⟩ := enter_unchanged k (l.snapshot.getD [])
  refine ⟨hsubject.trans h.subject, h.method, h.locals.trans hlocals.symm,
    h.prefixes.trans hpending.symm, h.length, hwithin, ?snapshots, h.first.here hkeep, ?fits, ?marks,
    ?marked⟩
  case snapshots =>
    intro i m es hm hsnap
    obtain ⟨m', hm', -, hsame | hnew⟩ := LabelTable.derives_of_reach hreach i m hm
    · rw [hput] at hm'
      split at hm'
      · next hi =>
        cases hm'
        subst hi
        exact h.snapshots i l es hl (hsame.symm.trans hsnap)
      · exact h.snapshots i m' es hm' (hsame.symm.trans hsnap)
    · rw [hnew, Option.some.injEq] at hsnap
      exact hsnap ▸ hwithin.depth_le
  case fits =>
    intro i site k₁ hsite hk₁ hreachable
    exact (h.fits i site k₁ hsite hk₁ hreachable).mono hgrows fun h => h.here hkeep
  case marks =>
    intro m i hmem
    rcases List.mem_append.mp hmem with hmem | hmem
    · obtain ⟨tags, hholds, hentered⟩ := h.marks m i hmem
      exact ⟨tags, hholds.grows hgrows, hentered.here hkeep⟩
    · obtain ⟨rfl, rfl⟩ := Prod.mk.inj (List.mem_singleton.mp hmem)
      rw [← h.length]
      exact ⟨_, LabelTable.holds_of_reach hreach, entered_last (reachable_enter k _) rfl⟩
  case marked =>
    intro i m hm hmarked
    obtain ⟨m', hm', hsame, -⟩ := LabelTable.derives_of_reach hreach i m hm
    rw [hput] at hm'
    split at hm'
    · next hi => exact ⟨b.code.length, List.mem_append_right _ (hi ▸ List.mem_singleton_self _)⟩
    · obtain ⟨j, hj⟩ := h.marked i m' hm' (hsame.symm.trans hmarked)
      exact ⟨j, List.mem_append_left _ hj⟩

/-! ### Instructions -/

/-- The stack an instruction is taken up with. -/
theorem Tracked.within_entryStack (h : Tracked s b seen k) :
    k.entryStack.Within Entry.SameTag s.maxStack := by
  have hempty : ([] : List Entry).length ≤ s.maxStack := Nat.zero_le _
  obtain ⟨hmax, hdepth, hrelated⟩ := h.within_enter hempty
  exact ⟨hmax, hdepth, hrelated⟩

theorem tags_entryStack (hreach : k.reachable = true) : k.entryStack.tags = k.stack.tags := by
  unfold entryStack
  rw [enter_keeps _ hreach]
  rfl

/-- The rule that the body has for an instruction is the one that the checker takes. -/
theorem Tracked.rule?_eq (h : Tracked s b seen k) {c : Call} {op : Opcode}
    (hop : c.opcode? = some op) : c.rule? ⟨b.method, b.locals, b.prefixes⟩
      = c.rule? (k.frame (op.activePrefixes k.pending)) := by
  rw [h.method, h.locals, h.prefixes, frame, h.subject, Call.rule?_activePrefixes hop]

theorem Tracked.instruction (h : Tracked s b seen k) {c : Call} {op : Opcode}
    (hop : c.opcode? = some op) (hok : Checker.instruction op c.rule? c.targets k = .ok () k') :
    Tracked s (b.add c) (seen ++ [k]) k' := by
  obtain ⟨-, transition, st, t, hrule, htransition, hreachEach, rfl⟩ := instruction_ok.mp hok
  have hwithin : st.Within Entry.SameTag s.maxStack :=
    ((Transition.keeps_within_rule hrule).of_ok h.within_entryStack htransition).1
  have hgrows := LabelTable.grows_of_reachEach hreachEach
  rw [Body.add_of_opcode hop]
  refine ⟨h.subject, h.method, h.locals, ?prefixes, ?length, hwithin, ?snapshots, h.first.append _,
    ?fits, ?marks, ?marked⟩
  case prefixes => exact congrArg op.pendingPrefixes h.prefixes
  case length => simp [h.length]
  case snapshots =>
    intro i l es hl hsnap
    obtain ⟨l', hl', -, hsame | hnew⟩ := LabelTable.derives_of_reachEach hreachEach i l hl
    · exact h.snapshots i l' es hl' (hsame.symm.trans hsnap)
    · rw [hnew, Option.some.injEq] at hsnap
      exact hsnap ▸ hwithin.depth_le
  case fits =>
    intro i site k₁ hsite hk₁ hreach
    rcases getElem?_concat.mp hk₁ with hk₁ | ⟨rfl, rfl⟩
    · rw [List.getElem?_append_left (h.length ▸ (List.getElem?_eq_some_iff.mp hk₁).1)] at hsite
      exact (h.fits i site k₁ hsite hk₁ hreach).mono hgrows fun h => h.append _
    · rw [h.length, List.getElem?_concat_length, Option.some.injEq] at hsite
      subst hsite
      have htags := tags_entryStack hreach
      refine ⟨k.stack.length_tags ▸ h.within.depth_le, st.tags, ?_, ?_, ?_, ?_⟩
      · exact ⟨transition, k.entryStack, st, (h.rule?_eq hop).trans hrule,
          h.within_entryStack.maxDepth_eq, htags, htransition, rfl⟩
      · exact st.length_tags ▸ hwithin.depth_le
      · intro hflow
        have hlength : seen.length + 1 = (seen ++ [k]).length := by simp
        rw [hlength]
        exact entered_last (by rw [← Call.endsFlow_eq hop, hflow]; rfl) rfl
      · exact LabelTable.holds_of_reachEach hreachEach
  case marks =>
    intro label i hmem
    obtain ⟨tags, hholds, hentered⟩ := h.marks label i hmem
    exact ⟨tags, hholds.grows hgrows, hentered.append _⟩
  case marked =>
    intro label l hl hmarked
    obtain ⟨l', hl', hsame, -⟩ := LabelTable.derives_of_reachEach hreachEach label l hl
    exact h.marked label l' hl' (hsame.symm.trans hmarked)

end Checker

/-! ### Runs -/

namespace Verifier

variable {δ : Type} [Sink δ] {s : Subject} {b : Body} {seen : List Checker} {v v' : Verifier δ}

theorem statesBefore_cons {c : Call} (rest : List Call) {reply : Option Nat}
    (h : Sink.step c v = .ok reply v') :
    statesBefore (c :: rest) v
      = (if c.opcode?.isSome then [v.checker] else []) ++ statesBefore rest v' := by
  rw [statesBefore, h]
  cases c.opcode? <;> rfl

theorem instruction_of_step {c : Call} {op : Opcode} {reply : Option Nat} (hop : c.opcode? = some op)
    (hok : Sink.step c v = .ok reply v') :
    Checker.instruction op c.rule? c.targets v.checker = .ok () v'.checker := by
  obtain ⟨c', haccept⟩ := accept_of_step hop hok
  exact ((Checker.accept_instruction hop).mp haccept).2.1

/-- One accepted call. -/
theorem tracked_step {c : Call} {reply : Option Nat} (h : Checker.Tracked s b seen v.checker)
    (hok : Sink.step c v = .ok reply v') :
    Checker.Tracked s (b.add c) (seen ++ if c.opcode?.isSome then [v.checker] else [])
      v'.checker := by
  cases hop : c.opcode? with
  | some op => exact h.instruction hop (instruction_of_step hop hok)
  | none =>
    rw [if_neg (by simp), List.append_nil]
    obtain ⟨c', k, r, haccept, -, hsettle⟩ := step_ok.mp hok
    cases c with
    | declareLocal t name =>
      obtain ⟨-, -, rfl⟩ := Checker.accept_declareLocal.mp haccept
      rw [← (Prod.mk.inj hsettle).2]
      exact h.declareLocal t name
    | createLabel name =>
      obtain ⟨-, rfl⟩ := Checker.accept_createLabel.mp haccept
      rw [← (Prod.mk.inj hsettle).2]
      exact h.createLabel name _
    | markLabel label =>
      obtain ⟨l, t, hl, -, hreach, -, rfl⟩ := Checker.accept_markLabel.mp haccept
      rw [← (Prod.mk.inj hsettle).2]
      exact h.markLabel hl hreach
    | finish =>
      obtain ⟨-, -, -, -, -, rfl⟩ := Checker.accept_finish.mp haccept
      rw [← (Prod.mk.inj hsettle).2]
      exact h
    | _ => exact nomatch hop

/-- What every accepted call keeps, of the body so far, the states before its instructions and the state that
has been reached, is kept by a run. -/
theorem kept_along_run {P : Body → List Checker → Checker → Prop}
    (hstep : ∀ {b : Body} {seen : List Checker} {v v' : Verifier δ} {c : Call} {reply : Option Nat},
      P b seen v.checker → Sink.step c v = .ok reply v' →
      P (b.add c) (seen ++ if c.opcode?.isSome then [v.checker] else []) v'.checker)
    {calls : List Call} (h : P b seen v.checker) (hrun : Sink.run calls v = some v') :
    P (calls.foldl Body.add b) (seen ++ statesBefore calls v) v'.checker := by
  induction calls generalizing b seen v with
  | nil =>
    rw [Sink.run, Option.some.injEq] at hrun
    subst hrun
    rw [statesBefore, List.append_nil]
    exact h
  | cons c rest ih =>
    obtain ⟨reply, v₁, hok, hrest⟩ := Sink.run_cons.mp hrun
    rw [statesBefore_cons rest hok, ← List.append_assoc]
    exact ih (hstep h hok) hrest

theorem tracked_run {calls : List Call} (h : Checker.Tracked s b seen v.checker)
    (hrun : Sink.run calls v = some v') :
    Checker.Tracked s (calls.foldl Body.add b) (seen ++ statesBefore calls v) v'.checker :=
  kept_along_run tracked_step h hrun

end Verifier

namespace Checker

variable {s : Subject} {b : Body} {seen : List Checker} {k : Checker}

/-- At the end of a body control comes to none but the instructions seen. -/
theorem Entered.inside {i : Nat} {tags : List DataType} (h : Entered seen k i tags)
    (hend : k.reachable = false) :
    ∃ k₁, seen[i]? = some k₁ ∧ k₁.reachable = true ∧ k₁.stack.tags = tags := by
  obtain ⟨k₁, hk₁, hreach, htags⟩ := h
  rcases getElem?_concat.mp hk₁ with hk₁ | ⟨-, rfl⟩
  · exact ⟨k₁, hk₁, hreach, htags⟩
  · exact nomatch hend.symm.trans hreach

/-- What each path of a tracked body comes to. -/
theorem Tracked.path (h : Tracked s b seen k) (hend : k.reachable = false) {p : List Nat} {i : Nat}
    (hpath : b.Path p i) :
    ∃ k₁, seen[i]? = some k₁ ∧ k₁.reachable = true ∧
      b.Arrives s.maxStack p i k₁.stack.tags := by
  induction hpath with
  | start =>
    obtain ⟨k₁, hk₁, hreach, htags⟩ := h.first.inside hend
    exact ⟨k₁, hk₁, hreach, htags ▸ .start⟩
  | @step p i j _ hedge ih =>
    obtain ⟨k₁, hk₁, hreach, harrives⟩ := ih
    obtain ⟨site, hsite, hnext⟩ := id hedge
    obtain ⟨tags, heffect, -, hfalls, htargets⟩ := (h.fits i site k₁ hsite hk₁ hreach).leaves
    have hentered : Entered seen k j tags := by
      rcases hnext with ⟨hflow, rfl⟩ | ⟨label, hlabel, hmark⟩
      · exact hfalls hflow
      · obtain ⟨tags', hholds, hentered⟩ := h.marks label j hmark
        rwa [(htargets label hlabel).1.unique hholds]
    obtain ⟨k₂, hk₂, hreach₂, rfl⟩ := hentered.inside hend
    exact ⟨k₂, hk₂, hreach₂, .step harrives hedge hsite heffect⟩

end Checker

/-- **In an accepted body the machine on tags is safe along every path.**  It arrives at every
instruction with the tags that the verifier's stack had just before it accepted the instruction, and
with no others.  There it neither runs out of values nor exceeds the bound, control does not run past
the end, and every target is marked at an instruction. -/
theorem Verifier.arrives_iff_tags_before {δ : Type} [Sink δ] (s : Subject) (d : δ)
    (calls : List Call) (final : Verifier δ)
    (haccepted : Sink.run (calls ++ [.finish]) (Verifier.start s d) = some final)
    (p : List Nat) (i : Nat) (hpath : (Body.ofCalls s.method calls).Path p i) :
    ∃ site k, (Body.ofCalls s.method calls).code[i]? = some site ∧
      (statesBefore calls (Verifier.start s d))[i]? = some k ∧
      (∀ tags, (Body.ofCalls s.method calls).Arrives s.maxStack p i tags ↔ tags = k.stack.tags) ∧
      k.stack.tags.length ≤ s.maxStack ∧
      (∃ tags, site.Effect s.maxStack k.stack.tags tags ∧ tags.length ≤ s.maxStack) ∧
      (site.call.endsFlow = false → i + 1 < (Body.ofCalls s.method calls).code.length) ∧
      ∀ label ∈ site.call.targets, ∃ j < (Body.ofCalls s.method calls).code.length,
        (label, j) ∈ (Body.ofCalls s.method calls).marks := by
  obtain ⟨v, hrun, hfinish⟩ := Sink.run_append.mp haccepted
  obtain ⟨reply, v', hstep, -⟩ := Sink.run_cons.mp hfinish
  obtain ⟨c', k', r, haccept, -, -⟩ := step_ok.mp hstep
  obtain ⟨-, hunmarked, hend, -, -, -⟩ := Checker.accept_finish.mp haccept
  have htracked := tracked_run (Checker.tracked_start s) hrun
  rw [List.nil_append] at htracked
  obtain ⟨k, hk, hreach, harrives⟩ := htracked.path hend hpath
  have hi : i < (Body.ofCalls s.method calls).code.length :=
    htracked.length ▸ (List.getElem?_eq_some_iff.mp hk).1
  have hsite := List.getElem?_eq_getElem hi
  obtain ⟨hle, tags, heffect, hle', hfalls, htargets⟩ := htracked.fits i _ k hsite hk hreach
  have hinside : ∀ {j tags}, Checker.Entered (statesBefore calls (Verifier.start s d)) v.checker j
      tags → j < (Body.ofCalls s.method calls).code.length := by
    intro j tags hentered
    obtain ⟨k₁, hk₁, -⟩ := hentered.inside hend
    exact htracked.length ▸ (List.getElem?_eq_some_iff.mp hk₁).1
  refine ⟨_, k, hsite, hk, ?_, hle, ⟨tags, heffect, hle'⟩, fun hflow => hinside (hfalls hflow), ?_⟩
  · intro tags'
    constructor
    · intro h
      exact h.unique harrives
    · rintro rfl
      exact harrives
  · intro label hlabel
    obtain ⟨-, l, hl, htargeted⟩ := htargets label hlabel
    obtain ⟨j, hj⟩ := htracked.marked label l hl
      (LabelTable.marked_of_firstUnmarkedTarget? hunmarked hl htargeted)
    obtain ⟨tags', -, hentered⟩ := htracked.marks label j hj
    exact ⟨j, hinside hentered, hj⟩

/-- Counts down from eight: a loop that is left by a forward branch. -/
def countdown : List Call :=
  [.createLabel "loop", .createLabel "done", .emit .ldcI48 .none, .markLabel 0, .emit .ldcI41 .none,
    .emit .sub .none, .emit .dup .none, .branch .brtrueS 0, .branch .brS 1, .markLabel 1,
    .emit .pop .none, .emit .ret .none]

/-- A static method without parameters and results. -/
def countdownSubject : Subject where
  method := { name := "Countdown", declaringType := .object, parameters := [], returnType := none,
              isStatic := true }

/-- Once round the loop. -/
theorem Verifier.arrives_round_countdown :
    (Sink.run (countdown ++ [.finish]) (start countdownSubject ({} : Discard))).isSome = true ∧
      (Body.ofCalls countdownSubject.method countdown).Path [4, 3, 2, 1, 0] 1 ∧
      ∀ tags, (Body.ofCalls countdownSubject.method countdown).Arrives 8 [4, 3, 2, 1, 0] 1 tags ↔
        tags = [.int32] := by
  have haccepted :
      (Sink.run (countdown ++ [.finish]) (start countdownSubject ({} : Discard))).isSome = true := by
    decide +kernel
  have hpath : (Body.ofCalls countdownSubject.method countdown).Path [4, 3, 2, 1, 0] 1 := by
    refine .step (.step (.step (.step (.step .start ?_) ?_) ?_) ?_) ⟨_, rfl, Or.inr ⟨0, ?_, ?_⟩⟩
    all_goals first | exact ⟨_, rfl, Or.inl ⟨rfl, rfl⟩⟩ | decide
  have hstate : ((statesBefore countdown (start countdownSubject ({} : Discard)))[1]?.map
      fun k => k.stack.tags) = some [.int32] := by
    decide +kernel
  obtain ⟨final, hfinal⟩ := Option.isSome_iff_exists.mp haccepted
  obtain ⟨-, k, -, hk, hiff, -⟩ :=
    arrives_iff_tags_before countdownSubject ({} : Discard) countdown final hfinal [4, 3, 2, 1, 0] 1
      hpath
  rw [hk, Option.map_some, Option.some.injEq] at hstate
  exact ⟨haccepted, hpath, hstate ▸ hiff⟩

end Cil
