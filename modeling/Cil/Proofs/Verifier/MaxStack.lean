/-
How much room a body needs on the stack.

Only a push looks at the bound on the stack, and every rule pops all that it takes before it pushes what
it leaves.  So the stack is never deeper on the way through a rule than before it or after it, and a rule
overflows just if it leaves more than the bound allows (`Stops`).

The bound has no other effect.  Two verifiers that differ in it go through a body in the same states,
bound apart, until one of them comes to an instruction that leaves more than it allows.  A body that was
accepted once is therefore accepted under a bound if and only if it is never deeper than that after an
instruction (`accepted_iff_peak_le`).
-/
import Cil.Proofs.Verifier.Effect
import Cil.Proofs.Verifier.Paths
import Cil.Proofs.Verifier.Snapshots

namespace Cil

/-- The stack under another bound. -/
def Stack.withMaxDepth (s : Stack) (bound : Nat) : Stack := { s with maxDepth := bound }

namespace Transition

variable {α β : Type} {op : Opcode}

/-- The step does the same under every bound and leaves no more on the stack than it finds there. -/
def Lowers (m : Step Stack α) : Prop :=
  ∀ s a s', m s = .ok a s' →
    s'.depth ≤ s.depth ∧ ∀ bound, m (s.withMaxDepth bound) = .ok a (s'.withMaxDepth bound)

/-- Under any bound that the stack is within, the step does the same if what it leaves is within the
bound too, and it overflows otherwise. -/
def Stops (op : Opcode) (m : Step Stack α) : Prop :=
  ∀ s a s', m s = .ok a s' → ∀ bound, s.depth ≤ bound →
    (s'.depth ≤ bound → m (s.withMaxDepth bound) = .ok a (s'.withMaxDepth bound)) ∧
    (bound < s'.depth →
      ∃ t, m (s.withMaxDepth bound) = .error (.violation (.stackOverflow op bound)) t)

/-! ### Steps that pop -/

theorem Lowers.stops {m : Step Stack α} (h : Lowers m) : Stops op m := by
  intro s a s' hok bound hbound
  obtain ⟨hdepth, hsame⟩ := h s a s' hok
  refine ⟨fun _ => hsame bound, fun hdeep => ?_⟩
  omega

theorem Lowers.bind {m : Step Stack α} {f : α → Step Stack β} (hm : Lowers m)
    (hf : ∀ a, Lowers (f a)) : Lowers (m >>= f) := by
  intro s b s' hok
  obtain ⟨a, s₁, hfirst, hrest⟩ := Step.bind_ok.mp hok
  obtain ⟨hdepth, hsame⟩ := hm s a s₁ hfirst
  obtain ⟨hdepth', hsame'⟩ := hf a s₁ b s' hrest
  refine ⟨Nat.le_trans hdepth' hdepth, fun bound => ?_⟩
  rw [Step.bind_of_ok (hsame bound)]
  exact hsame' bound

/-- What a step pops first makes no difference to whether it overflows later. -/
theorem Lowers.bind_stops {m : Step Stack α} {f : α → Step Stack β} (hm : Lowers m)
    (hf : ∀ a, Stops op (f a)) : Stops op (m >>= f) := by
  intro s b s' hok bound hbound
  obtain ⟨a, s₁, hfirst, hrest⟩ := Step.bind_ok.mp hok
  obtain ⟨hdepth, hsame⟩ := hm s a s₁ hfirst
  rw [Step.bind_of_ok (hsame bound)]
  exact hf a s₁ b s' hrest bound (Nat.le_trans hdepth hbound)

theorem lowers_pure {a : α} : Lowers (pure a : Step Stack α) := by
  intro s b s' hok
  obtain ⟨rfl, rfl⟩ := Step.pure_ok.mp hok
  exact ⟨Nat.le_refl _, fun _ => rfl⟩

theorem lowers_refuse {v : Violation} : Lowers (refuse v : Step Stack α) :=
  fun _ _ _ hok => (Step.throw_ok.mp hok).elim

theorem lowers_clear : Lowers clear := by
  intro s u s' hok
  obtain rfl := Step.modify_ok.mp hok
  exact ⟨Nat.zero_le _, fun _ => rfl⟩

theorem lowers_pop : Lowers (pop op) := by
  intro s e s' hok
  obtain ⟨rest, hentries, rfl⟩ := pop_ok.mp hok
  refine ⟨?_, fun bound => pop_ok.mpr ⟨rest, hentries, rfl⟩⟩
  simp [Stack.depth, hentries]

/-- A look at the stack does not see the bound. -/
theorem lowers_get_bind {f : Stack → Step Stack α} (hf : ∀ s, Lowers (f s))
    (hbound : ∀ s bound, f (s.withMaxDepth bound) = f s) : Lowers (get >>= f) := by
  intro s a s' hok
  rw [Step.get_bind] at hok
  obtain ⟨hdepth, hsame⟩ := hf s s a s' hok
  refine ⟨hdepth, fun bound => ?_⟩
  rw [Step.get_bind, hbound]
  exact hsame bound

theorem Lowers.discard {m : Step Stack α} (hm : Lowers m) : Lowers (discard m : Step Stack Unit) := by
  rw [Step.discard_eq]
  exact hm.bind fun _ => lowers_pure

theorem Lowers.check {m : Step Stack α} {c : Prop} [Decidable c] {v : Violation} (hm : Lowers m) :
    Lowers (if c then m else refuse v) := by
  split
  · exact hm
  · exact lowers_refuse

theorem lowers_popOf {expected : DataTypeSet} : Lowers (popOf op expected) :=
  lowers_pop.bind fun _ => lowers_pure.check

theorem lowers_requireAssignable {e : Entry} {t : Ty} : Lowers (requireAssignable op e t) :=
  lowers_pure.check

theorem lowers_popAssignable {t : Ty} : Lowers (popAssignable op t) :=
  lowers_pop.bind fun _ => lowers_requireAssignable

theorem lowers_popInstance {t : Ty} {byValue : Bool} : Lowers (popInstance op t byValue) :=
  lowers_pop.bind fun _ => lowers_pure.check

theorem lowers_popArguments {parameters : List Ty} : Lowers (popArguments op parameters) := by
  have hforM : ∀ ts : List Ty, Lowers (ts.forM (popAssignable op) : Transition) := by
    intro ts
    induction ts with
    | nil => exact lowers_pure
    | cons t rest ih => exact lowers_popAssignable.bind fun _ => ih
  exact hforM parameters.reverse

theorem lowers_popArray : Lowers (popArray op) := by
  refine lowers_pop.bind fun e => ?_
  split
  · exact lowers_pure
  · split
    · exact lowers_pure
    · exact lowers_refuse

theorem lowers_popMany (n : Nat) : Lowers (popMany op n) := by
  induction n with
  | zero => exact lowers_pure
  | succ n ih => exact lowers_pop.bind fun _ => ih.bind fun _ => lowers_pure

theorem lowers_popElement {r : Referent} : Lowers (popElement op r) := by
  refine lowers_popOf.discard.bind fun _ => lowers_popArray.bind fun actual => ?_
  unfold elementType
  cases actual with
  | some t => exact lowers_pure.check
  | none => exact lowers_pure

theorem lowers_popReferent {expected : DataTypeSet} {r : Referent} :
    Lowers (popReferent op expected r) :=
  lowers_popOf.bind fun _ => lowers_pure.check

theorem lowers_requireEmpty : Lowers (requireEmpty op) :=
  lowers_get_bind (fun _ => lowers_pure.check) fun _ _ => rfl

/-! ### Steps that push -/

/-- A push is refused just if what it would leave is more than the bound allows. -/
theorem stops_push {e : Entry} : Stops op (push op e) := by
  intro s u s' hok bound hbound
  obtain ⟨-, rfl⟩ := push_ok.mp hok
  constructor
  · intro hroom
    exact push_ok.mpr ⟨hroom, rfl⟩
  · intro hdeep
    have hfull : ¬ (s.withMaxDepth bound).depth < (s.withMaxDepth bound).maxDepth := by
      have : bound < s.depth + 1 := hdeep
      simp only [Stack.withMaxDepth, Stack.depth] at this ⊢
      omega
    refine ⟨s.withMaxDepth bound, ?_⟩
    unfold push Stack.push?
    rw [if_neg hfull]
    rfl

theorem stops_pushType {t : Ty} : Stops op (pushType op t) :=
  stops_push

/-- One more push after a step makes it overflow earlier, if at all. -/
theorem Stops.bind_push {m : Step Stack α} {e : α → Entry} (hm : Stops op m) :
    Stops op (m >>= fun a => push op (e a)) := by
  intro s u s' hok bound hbound
  obtain ⟨a, s₁, hfirst, hpush⟩ := Step.bind_ok.mp hok
  obtain ⟨hroom, hfull⟩ := hm s a s₁ hfirst bound hbound
  have hdepth : s'.depth = s₁.depth + 1 := by
    obtain ⟨-, rfl⟩ := push_ok.mp hpush
    rfl
  by_cases hfirst' : s₁.depth ≤ bound
  · rw [Step.bind_of_ok (hroom hfirst')]
    exact stops_push s₁ u s' hpush bound hfirst'
  · obtain ⟨t, ht⟩ := hfull (by omega)
    refine ⟨fun hsmall => ?_, fun _ => ⟨t, Step.bind_of_error ht⟩⟩
    omega

theorem Stops.check {m : Step Stack α} {c : Prop} [Decidable c] {v : Violation} (hm : Stops op m) :
    Stops op (if c then m else refuse v) := by
  split
  · exact hm
  · exact lowers_refuse.stops

/-- A step that pops under a condition, before the rest. -/
theorem Stops.after {m : Transition} {rest : Unit → Transition} {c : Prop} [Decidable c]
    (hm : Lowers m) (hrest : Stops op (rest ())) :
    Stops op (if c then m >>= rest else rest ()) := by
  split
  · exact hm.bind_stops fun _ => hrest
  · exact hrest

/-! ### Rules -/

section Rules

variable {f : Frame} {access : Access} {t : Ty}

theorem stops_arithmetic {a : Arithmetic} : Stops op (arithmetic op a) := by
  refine (lowers_popMany a.arity).bind_stops fun operands => ?_
  cases a.result? (operands.map Entry.tag) with
  | some result => exact stops_push
  | none => exact lowers_refuse.stops

theorem stops_comparison {c : Comparison} : Stops op (comparison op c) :=
  lowers_pop.bind_stops fun _ => lowers_pop.bind_stops fun _ => stops_pushType.check

theorem stops_conversion {target : DataType} : Stops op (conversion op target) := by
  refine lowers_pop.bind_stops fun e => ?_
  cases Conversion.between? e.tag target with
  | some _ => exact stops_push
  | none => exact lowers_refuse.stops

theorem stops_constant {c : Constant} : Stops op (constant op c) := by
  cases c <;> exact stops_push

theorem lowers_branch {kind : BranchKind} : Lowers (branch op kind) := by
  cases kind with
  | always => exact lowers_pure
  | leave => exact lowers_clear
  | boolean branchIf => exact lowers_popOf.discard
  | comparison c => exact lowers_pop.discard.bind fun _ => lowers_pop.discard
  | table => exact lowers_popOf.discard

theorem stops_slot {kind : VariableKind} {index : Int} : Stops op (slot f op access kind index) := by
  unfold slot
  cases variableType? f kind index with
  | none => exact lowers_refuse.stops
  | some t =>
    cases access with
    | load => exact stops_pushType
    | address => exact stops_pushType
    | store => exact lowers_popAssignable.stops

theorem stops_fieldAccess {static : Bool} {field : Field} :
    Stops op (fieldAccess f op access static field) := by
  unfold fieldAccess
  refine .after lowers_refuse (.after lowers_refuse ?_)
  refine .after lowers_popAssignable (.after lowers_popInstance ?_)
  cases access with
  | load => exact stops_pushType
  | address => exact stops_pushType
  | store => exact lowers_pure.stops

theorem stops_element {r : Referent} : Stops op (element f op access r) := by
  cases access with
  | load => exact lowers_popElement.bind_stops fun _ => stops_pushType
  | address => exact lowers_popElement.bind_stops fun _ => stops_pushType
  | store =>
    refine Lowers.stops (lowers_pop.bind fun _ => ?_)
    exact lowers_popElement.bind fun _ => lowers_requireAssignable

theorem stops_indirect {r : Referent} : Stops op (indirect op access r) := by
  cases access with
  | store =>
    refine Lowers.stops (lowers_pop.bind fun _ => ?_)
    exact lowers_popReferent.bind fun _ => lowers_requireAssignable
  | _ => exact lowers_popReferent.bind_stops fun _ => stops_pushType

theorem stops_invoke {kind : CallKind} {m : Method} : Stops op (invoke f op kind m) := by
  have hreceiver : Lowers (popReceiver f op m) := by
    unfold popReceiver
    split
    · exact lowers_pure
    · split
      · exact lowers_popOf.discard
      · exact lowers_popInstance
  have hresult : Stops op (pushResult op m) := by
    unfold pushResult
    cases m.returnType with
    | some t => exact stops_pushType
    | none => exact lowers_pure.stops
  have hcall : Stops op (do popArguments op m.parameters; popReceiver f op m; pushResult op m) :=
    lowers_popArguments.bind_stops fun _ => hreceiver.bind_stops fun _ => hresult
  unfold invoke
  refine .after lowers_refuse ?_
  cases kind with
  | jump => exact lowers_requireEmpty.stops
  | loadFunction => exact stops_pushType
  | loadVirtualFunction => exact lowers_popInstance.bind_stops fun _ => stops_pushType
  | newObject =>
    refine .after lowers_refuse ?_
    exact lowers_popArguments.bind_stops fun _ => stops_pushType
  | _ => exact .after lowers_popOf.discard hcall

theorem stops_cast {kind : CastKind} : Stops op (cast op kind t) := by
  cases kind with
  | box => exact lowers_popAssignable.bind_stops fun _ => stops_pushType
  | _ => exact lowers_popOf.discard.bind_stops fun _ => stops_pushType

theorem lowers_ret : Lowers (ret f op) := by
  refine lowers_get_bind (fun s => ?_) fun _ _ => rfl
  cases f.method.returnType with
  | none =>
    dsimp only
    split
    · exact lowers_refuse
    · exact lowers_pure
  | some t =>
    dsimp only
    split
    · exact lowers_refuse
    · exact lowers_popAssignable

theorem stops_simple {transition : Transition} (h : simple f op = some transition) :
    Stops op transition := by
  have hpop : ∀ {expected : DataTypeSet} {rest : Transition}, Lowers rest →
      Lowers (do discard (popOf op expected); rest) :=
    fun hrest => lowers_popOf.discard.bind fun _ => hrest
  unfold simple at h
  split at h <;> cases h
  · exact lowers_pure.stops
  · exact lowers_pure.stops
  · exact lowers_pure.stops
  -- The one instruction that pushes twice.
  · exact lowers_pop.bind_stops fun _ => stops_push.bind_push
  · exact lowers_pop.discard.stops
  · exact lowers_ret.stops
  · exact lowers_popOf.discard.stops
  · exact lowers_popArray.discard.bind_stops fun _ => stops_pushType
  · exact lowers_popOf.bind_stops fun _ => stops_push
  · exact lowers_clear.stops
  · exact (hpop lowers_requireEmpty).stops
  · exact stops_pushType
  · exact lowers_popOf.discard.bind_stops fun _ => stops_pushType
  · exact (hpop (hpop lowers_popOf.discard)).stops
  · exact (hpop (hpop lowers_popOf.discard)).stops
  · exact lowers_popAssignable.bind_stops fun _ => stops_pushType

theorem stops_simpleType {transition : Transition} (h : simpleType op t = some transition) :
    Stops op transition := by
  unfold simpleType at h
  split at h <;> cases h
  · exact (lowers_popAssignable.bind fun _ => lowers_popAssignable).stops
  · exact lowers_popAssignable.stops
  · exact lowers_popOf.discard.bind_stops fun _ => stops_pushType
  · exact stops_pushType
  · exact lowers_popAssignable.bind_stops fun _ => stops_pushType
  · exact lowers_popAssignable.bind_stops fun _ => stops_pushType

/-- **A rule overflows just if it leaves more than the bound allows.** -/
theorem stops_rule {c : Call} {transition : Transition} (hop : c.opcode? = some op)
    (h : c.rule? f = some transition) : Stops op transition := by
  cases c with
  | emit op x =>
    cases hop
    change ofNumber op x f = some transition at h
    unfold ofNumber at h
    split at h
    · cases h
      exact stops_arithmetic
    · cases h
      exact stops_comparison
    · cases h
      exact stops_conversion
    · cases h
      exact stops_slot
    · cases h
      exact stops_constant
    · cases h
      exact stops_element
    · cases h
      exact stops_indirect
    · cases h
      exact lowers_pure.stops
    · exact stops_simple h
    · cases h
  | branch op target =>
    cases hop
    change ofTarget op f = some transition at h
    unfold ofTarget at h
    split at h <;> cases h
    exact lowers_branch.stops
  | switch targets =>
    cases h
    exact lowers_branch.stops
  | invoke op m =>
    cases hop
    change ofMethod op m f = some transition at h
    unfold ofMethod at h
    split at h <;> cases h
    exact stops_invoke
  | field op member =>
    cases hop
    change ofField op member f = some transition at h
    unfold ofField at h
    split at h <;> cases h
    exact stops_fieldAccess
  | type op t =>
    cases hop
    change ofType op t f = some transition at h
    unfold ofType at h
    split at h
    · cases h
      exact stops_cast
    · cases h
      exact stops_element
    · cases h
      exact stops_indirect
    · exact stops_simpleType h
    · cases h
      exact lowers_pure.stops
    · cases h
  | token op m =>
    cases hop
    cases m <;> cases h <;> exact stops_pushType
  | string op value =>
    cases hop
    cases h
    exact stops_constant
  | _ => cases hop

end Rules

end Transition

/-! ### The checker -/

namespace Checker

/-- The checker of the same method under another bound on the stack. -/
def withMaxStack (k : Checker) (bound : Nat) : Checker :=
  { k with
    subject := { k.subject with maxStack := bound }
    stack := k.stack.withMaxDepth bound }

variable {k k' : Checker} {c c' : Call} {op : Opcode} {bound : Nat}

theorem enter_withMaxStack (k : Checker) (entries : List Entry) (bound : Nat) :
    (k.withMaxStack bound).enter entries = (k.enter entries).withMaxStack bound := by
  unfold enter withMaxStack
  by_cases hreach : k.reachable = true
  · rw [if_pos hreach, if_pos hreach]
  · rw [if_neg hreach, if_neg hreach]
    rfl

theorem entryStack_withMaxStack (k : Checker) (bound : Nat) :
    (k.withMaxStack bound).entryStack = k.entryStack.withMaxDepth bound := by
  unfold entryStack
  rw [enter_withMaxStack]
  rfl

/-- An instruction that leaves no more than the new bound allows is accepted as before. -/
theorem accept_instruction_withMaxStack (hop : c.opcode? = some op) (h : accept c k = .ok c' k')
    (hentry : k.entryStack.depth ≤ bound) (hroom : k'.stack.depth ≤ bound) :
    accept c (k.withMaxStack bound) = .ok c' (k'.withMaxStack bound) := by
  obtain ⟨hformed, hinstruction, hforwarded⟩ := (accept_instruction hop).mp h
  obtain ⟨hadmits, transition, s, t, hrule, hs, hreach, rfl⟩ := instruction_ok.mp hinstruction
  have hs' := (Transition.stops_rule hop hrule _ _ _ hs bound hentry).1 hroom
  rw [← entryStack_withMaxStack] at hs'
  refine (accept_instruction hop).mpr ⟨hformed, ?_, hforwarded⟩
  exact instruction_ok.mpr ⟨hadmits, transition, s.withMaxDepth bound, t, hrule, hs', hreach, rfl⟩

/-- Any other call does not look at the bound. -/
theorem accept_other_withMaxStack (hop : c.opcode? = none) (h : accept c k = .ok c' k') (bound : Nat) :
    accept c (k.withMaxStack bound) = .ok c' (k'.withMaxStack bound) := by
  cases c with
  | declareLocal t name =>
    obtain ⟨hsize, hforwarded, rfl⟩ := accept_declareLocal.mp h
    exact accept_declareLocal.mpr ⟨hsize, hforwarded, rfl⟩
  | createLabel name =>
    obtain ⟨hforwarded, rfl⟩ := accept_createLabel.mp h
    exact accept_createLabel.mpr ⟨hforwarded, rfl⟩
  | markLabel index =>
    obtain ⟨l, t, hl, hmarked, hreach, hforwarded, rfl⟩ := accept_markLabel.mp h
    refine accept_markLabel.mpr ⟨l, t, hl, hmarked, ?_, hforwarded, ?_⟩
    · rw [enter_withMaxStack]
      exact hreach
    · rw [enter_withMaxStack]
      rfl
  | finish =>
    obtain ⟨hpending, hunmarked, hreach, hzeroed, hforwarded, rfl⟩ := accept_finish.mp h
    exact accept_finish.mpr ⟨hpending, hunmarked, hreach, hzeroed, hforwarded, rfl⟩
  | _ => cases hop

/-- An instruction that would leave more overflows. -/
theorem accept_overflows (hop : c.opcode? = some op) (h : accept c k = .ok c' k')
    (hentry : k.entryStack.depth ≤ bound) (hdeep : bound < k'.stack.depth) :
    ∃ k'', accept c (k.withMaxStack bound) = .error (.violation (.stackOverflow op bound)) k'' := by
  obtain ⟨hformed, hinstruction, -⟩ := (accept_instruction hop).mp h
  obtain ⟨hadmits, transition, s, t, hrule, hs, -, rfl⟩ := instruction_ok.mp hinstruction
  obtain ⟨s', hs'⟩ := (Transition.stops_rule hop hrule _ _ _ hs bound hentry).2 hdeep
  rw [← entryStack_withMaxStack] at hs'
  exact ⟨_, accept_error hop hformed (instruction_error hadmits hrule hs')⟩

theorem settle_withMaxStack (c : Call) (reply : Option Nat) (k : Checker) (bound : Nat) :
    settle c reply (k.withMaxStack bound)
      = ((settle c reply k).1, (settle c reply k).2.withMaxStack bound) := by
  cases c <;> rfl

end Checker

/-! ### Runs -/

/-- The attempt with other states in place of those that it was made in. -/
def Sink.Attempt.map {σ τ : Type} (f : σ → τ) (a : Sink.Attempt σ) : Sink.Attempt τ :=
  { call := a.call, before := f a.before, answer := a.answer, after := f a.after }

namespace Verifier

open Sink (Attempt)

variable {δ : Type}

/-- The verifier of the same method under another bound on the stack. -/
def withMaxStack (v : Verifier δ) (bound : Nat) : Verifier δ :=
  ⟨v.checker.withMaxStack bound, v.downstream⟩

/-- The depths of the stack after the instructions of a session. -/
def depths (log : List (Attempt (Verifier δ))) : List Nat :=
  (log.filter (·.call.opcode?.isSome)).map (·.after.checker.stack.depth)

/-- The largest depth of the stack after an instruction. -/
def peak (log : List (Attempt (Verifier δ))) : Nat := (depths log).foldr max 0

theorem mem_depths {log : List (Attempt (Verifier δ))} {d : Nat} :
    d ∈ depths log ↔
      ∃ a ∈ log, a.call.opcode?.isSome = true ∧ a.after.checker.stack.depth = d := by
  simp only [depths, List.mem_map, List.mem_filter, and_assoc]

theorem peak_le_iff {log : List (Attempt (Verifier δ))} {bound : Nat} :
    peak log ≤ bound ↔ ∀ d ∈ depths log, d ≤ bound := by
  unfold peak
  induction depths log with
  | nil => simp
  | cons d rest ih =>
    rw [List.foldr_cons, Nat.max_le, ih, List.forall_mem_cons]

/-- Neither the stack nor a stack that a label holds is deeper than the new bound. -/
def FitsIn (bound : Nat) (v : Verifier δ) : Prop :=
  (v.withMaxStack bound).checker.Holds (fun _ => True) bound

variable {v v' w : Verifier δ} {c : Call} {op : Opcode} {reply : Option Nat} {bound : Nat}
  {calls : List Call}

theorem fitsIn_start (s : Subject) (d : δ) (bound : Nat) : FitsIn bound (start s d) :=
  Checker.holds_start { s with maxStack := bound }

theorem FitsIn.depth_entryStack_le (h : FitsIn bound v) : v.checker.entryStack.depth ≤ bound := by
  have hdepth : v.checker.stack.depth ≤ bound := h.stack.depth_le
  rw [Checker.depth_entryStack, Checker.depthBefore]
  split
  · exact hdepth
  · exact Nat.zero_le bound

variable [Sink δ]

/-- A call that leaves no more than the new bound allows is answered as before. -/
theorem step_withMaxStack (hv : FitsIn bound v) (h : Sink.step c v = .ok reply v')
    (hroom : c.opcode?.isSome = true → v'.checker.stack.depth ≤ bound) :
    Sink.step c (v.withMaxStack bound) = .ok reply (v'.withMaxStack bound) := by
  obtain ⟨c', k, r, haccept, hdown, hsettle⟩ := step_ok.mp h
  refine step_ok.mpr ⟨c', k.withMaxStack bound, r, ?_, hdown, ?_⟩
  · cases hop : c.opcode? with
    | none => exact Checker.accept_other_withMaxStack hop haccept bound
    | some op =>
      obtain ⟨c'', haccept'⟩ := accept_of_step hop h
      rw [haccept] at haccept'
      cases haccept'
      exact Checker.accept_instruction_withMaxStack hop haccept hv.depth_entryStack_le
        (hroom (by rw [hop]; rfl))
  · rw [Checker.settle_withMaxStack, hsettle]
    rfl

/-- An instruction that leaves more is refused. -/
theorem step_overflows (hv : FitsIn bound v) (hop : c.opcode? = some op)
    (h : Sink.step c v = .ok reply v') (hdeep : bound < v'.checker.stack.depth) :
    ∃ w, Sink.step c (v.withMaxStack bound) = .error (.violation (.stackOverflow op bound)) w := by
  obtain ⟨c', haccept⟩ := accept_of_step hop h
  obtain ⟨k, hk⟩ := Checker.accept_overflows hop haccept hv.depth_entryStack_le hdeep
  exact ⟨_, step_of_unchecked hk⟩

/-- After a call that is answered as before the new bound is still kept. -/
theorem FitsIn.step (hv : FitsIn bound v)
    (h : Sink.step c (v.withMaxStack bound) = .ok reply (v'.withMaxStack bound)) :
    FitsIn bound v' := by
  have hkept := @keeps_session _ _ _ [c] (v.withMaxStack bound)
    (fun d _ => Checker.stable_holds (c := d) (fun _ => trivial) fun _ _ => trivial)
    (fun d _ r k hk => hk.settle d r) hv
  rwa [(Sink.session_cons_ok [] h).1] at hkept

/-- A body that is never deeper than the new bound goes as before. -/
theorem run_withMaxStack (hv : FitsIn bound v) (h : Sink.run calls v = some w)
    (hroom : ∀ d ∈ depths (Sink.attempts calls v), d ≤ bound) :
    Sink.run calls (v.withMaxStack bound) = some (w.withMaxStack bound) ∧
      Sink.attempts calls (v.withMaxStack bound)
        = (Sink.attempts calls v).map (Attempt.map (·.withMaxStack bound)) := by
  induction calls generalizing v with
  | nil =>
    cases h
    exact ⟨rfl, rfl⟩
  | cons c rest ih =>
    obtain ⟨reply, v', hstep, hrest⟩ := Sink.run_cons.mp h
    rw [Sink.attempts_cons_ok rest hstep] at hroom ⊢
    have hfirst : c.opcode?.isSome = true → v'.checker.stack.depth ≤ bound := by
      intro hop
      exact hroom _ (mem_depths.mpr ⟨_, List.mem_cons_self, hop, rfl⟩)
    have hstep' := step_withMaxStack hv hstep hfirst
    have hlater : ∀ d ∈ depths (Sink.attempts rest v'), d ≤ bound := by
      intro d hd
      obtain ⟨a, ha, hop, rfl⟩ := mem_depths.mp hd
      exact hroom _ (mem_depths.mpr ⟨a, List.mem_cons_of_mem _ ha, hop, rfl⟩)
    obtain ⟨hrun, hlog⟩ := ih (hv.step hstep') hrest hlater
    refine ⟨Sink.run_cons.mpr ⟨reply, _, hstep', hrun⟩, ?_⟩
    rw [Sink.attempts_cons_ok rest hstep', hlog]
    rfl

/-- Two runs part after a common front: the first goes deeper than the second allows, and there the
second overflows. -/
structure Parts (bound : Nat) (front : List (Attempt (Verifier δ))) (a b : Attempt (Verifier δ)) :
    Prop where
  accepted : ∀ x ∈ front, x.answer.isOk = true
  shallow : ∀ d ∈ depths front, d ≤ bound
  deep : bound < a.after.checker.stack.depth
  call_eq : b.call = a.call
  before_eq : b.before = a.before.withMaxStack bound
  overflow : ∃ op, a.call.opcode? = some op ∧ b.answer = .error (.violation (.stackOverflow op bound))

/-- A body that is deeper than the new bound after some instruction overflows at the first such one. -/
theorem run_overflows (hv : FitsIn bound v) (h : Sink.run calls v = some w)
    (hdeep : ∃ d ∈ depths (Sink.attempts calls v), bound < d) :
    Sink.run calls (v.withMaxStack bound) = none ∧
      ∃ front a back b back', Sink.attempts calls v = front ++ a :: back ∧
        Sink.attempts calls (v.withMaxStack bound)
          = front.map (Attempt.map (·.withMaxStack bound)) ++ b :: back' ∧
        Parts bound front a b := by
  induction calls generalizing v with
  | nil =>
    obtain ⟨d, hd, -⟩ := hdeep
    cases hd
  | cons c rest ih =>
    obtain ⟨reply, v', hstep, hrest⟩ := Sink.run_cons.mp h
    rw [Sink.attempts_cons_ok rest hstep] at hdeep ⊢
    by_cases hroom : c.opcode?.isSome = true → v'.checker.stack.depth ≤ bound
    · have hstep' := step_withMaxStack hv hstep hroom
      have hlater : ∃ d ∈ depths (Sink.attempts rest v'), bound < d := by
        obtain ⟨d, hd, hlt⟩ := hdeep
        obtain ⟨a, ha, hop, rfl⟩ := mem_depths.mp hd
        rcases List.mem_cons.mp ha with rfl | ha
        · exact absurd (hroom hop) (Nat.not_le.mpr hlt)
        · exact ⟨_, mem_depths.mpr ⟨a, ha, hop, rfl⟩, hlt⟩
      obtain ⟨hnone, front, a, back, b, back', hlog, hlog', hparts⟩ := ih (hv.step hstep') hrest hlater
      refine ⟨?_, _ :: front, a, back, b, back', by rw [hlog]; rfl, ?_, ?_⟩
      · rw [Sink.run, hstep']
        exact hnone
      · rw [Sink.attempts_cons_ok rest hstep', hlog']
        rfl
      · refine ⟨List.forall_mem_cons.mpr ⟨rfl, hparts.accepted⟩, fun d hd => ?_, hparts.deep,
          hparts.call_eq, hparts.before_eq, hparts.overflow⟩
        obtain ⟨x, hx, hop, rfl⟩ := mem_depths.mp hd
        rcases List.mem_cons.mp hx with rfl | hx
        · exact hroom hop
        · exact hparts.shallow _ (mem_depths.mpr ⟨x, hx, hop, rfl⟩)
    · obtain ⟨hop, hlt⟩ := Classical.not_imp.mp hroom
      obtain ⟨op, hop⟩ := Option.isSome_iff_exists.mp hop
      obtain ⟨w', hw'⟩ := step_overflows hv hop hstep (Nat.not_le.mp hlt)
      refine ⟨by rw [Sink.run, hw'], [], _, _, _, _, rfl, Sink.attempts_cons_error rest hw', ?_⟩
      exact ⟨fun x hx => absurd hx List.not_mem_nil, fun d hd => absurd hd List.not_mem_nil,
        Nat.not_le.mp hlt, rfl, rfl, op, hop, rfl⟩

/-- **The bound on the stack is a threshold.**  A body that is accepted under some bound is accepted
under another one if and only if its stack is never deeper than that after an instruction.  If so, all
calls go as before, with the same answers, stacks, labels and calls to the receiver.  If not, they do so
up to the first instruction that leaves more than the bound allows, and that one is refused as an
overflow. -/
theorem accepted_iff_peak_le (s : Subject) (d : δ) (calls : List Call) (w : Verifier δ)
    (haccepted : Sink.run calls (start s d) = some w) (bound : Nat) :
    let log := Sink.attempts calls (start s d)
    let log' := Sink.attempts calls (start { s with maxStack := bound } d)
    ((Sink.run calls (start { s with maxStack := bound } d)).isSome = true ↔ peak log ≤ bound) ∧
    (peak log ≤ bound → log' = log.map (Attempt.map (·.withMaxStack bound))) ∧
    (bound < peak log → ∃ front a back b back', log = front ++ a :: back ∧
      log' = front.map (Attempt.map (·.withMaxStack bound)) ++ b :: back' ∧
      Parts bound front a b) := by
  intro log log'
  have hfits : FitsIn bound (start s d) := fitsIn_start s d bound
  have hlower : peak log ≤ bound →
      Sink.run calls (start { s with maxStack := bound } d) = some (w.withMaxStack bound) ∧
        log' = log.map (Attempt.map (·.withMaxStack bound)) :=
    fun hpeak => run_withMaxStack hfits haccepted (peak_le_iff.mp hpeak)
  have hhigher : bound < peak log → Sink.run calls (start { s with maxStack := bound } d) = none ∧
      ∃ front a back b back', log = front ++ a :: back ∧
        log' = front.map (Attempt.map (·.withMaxStack bound)) ++ b :: back' ∧
        Parts bound front a b := by
    intro hpeak
    have hdeep : ¬ ∀ d ∈ depths log, d ≤ bound := fun h => absurd (peak_le_iff.mpr h) (by omega)
    simp only [not_forall, Nat.not_le] at hdeep
    obtain ⟨d, hd, hlt⟩ := hdeep
    exact run_overflows hfits haccepted ⟨d, hd, hlt⟩
  refine ⟨⟨fun hsome => ?_, fun hpeak => ?_⟩, fun hpeak => (hlower hpeak).2,
    fun hpeak => (hhigher hpeak).2⟩
  · by_contra hpeak
    rw [(hhigher (by omega)).1] at hsome
    cases hsome
  · rw [(hlower hpeak).1]
    rfl

/-- The loop that counts down needs room for two values and overflows with room for one. -/
theorem peak_countdown :
    (Sink.run (countdown ++ [.finish]) (start countdownSubject ({} : Recorder))).isSome = true ∧
    peak (Sink.attempts (countdown ++ [.finish]) (start countdownSubject ({} : Recorder))) = 2 ∧
    (Sink.run (countdown ++ [.finish])
      (start { countdownSubject with maxStack := 2 } ({} : Recorder))).isSome = true ∧
    ∃ front a back b back',
      Sink.attempts (countdown ++ [.finish]) (start countdownSubject ({} : Recorder))
        = front ++ a :: back ∧
      Sink.attempts (countdown ++ [.finish]) (start { countdownSubject with maxStack := 1 } {})
        = front.map (Attempt.map (·.withMaxStack 1)) ++ b :: back' ∧
      Parts 1 front a b := by
  have haccepted :
      (Sink.run (countdown ++ [.finish]) (start countdownSubject ({} : Recorder))).isSome = true := by
    decide +kernel
  have hpeak :
      peak (Sink.attempts (countdown ++ [.finish]) (start countdownSubject ({} : Recorder))) = 2 := by
    decide +kernel
  obtain ⟨w, hw⟩ := Option.isSome_iff_exists.mp haccepted
  obtain ⟨hiff, -, -⟩ := accepted_iff_peak_le countdownSubject ({} : Recorder) _ w hw 2
  obtain ⟨-, -, hparts⟩ := accepted_iff_peak_le countdownSubject ({} : Recorder) _ w hw 1
  exact ⟨haccepted, hpeak, hiff.mpr (Nat.le_of_eq hpeak), hparts (by rw [hpeak]; decide)⟩

end Verifier

end Cil
