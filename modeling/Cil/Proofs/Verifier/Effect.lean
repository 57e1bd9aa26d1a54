/-
What an instruction takes from the stack and what it leaves there.

The table of opcodes declares for most of them how many values they pop and push.  The rules are
written without a look at those columns, so that the two could disagree.  They do not: `Moves p q` says
that a step pops `p` values and after that pushes `q`, it is shown once for every rule, and what the
rule of a category moves is what every row of that category declares (`counted_rule`).

Besides, an instruction whose operand has the form that its opcode takes has a rule, so no call comes to
an opcode without one (`foreseen_accept`).
-/
import Cil.Proofs.Verifier.Lockstep

namespace Cil

/-! ### Declared counts -/

/-- Does a declared count agree with a number?  One that varies agrees with any. -/
def Count.Admits : Count → Nat → Prop
  | fixed n, m => m = n
  | varies, _ => True

namespace Access

/-- The values that are stored. -/
def stores : Access → Nat
  | store => 1
  | _ => 0

/-- The values that are loaded, be they contents or addresses. -/
def loads : Access → Nat
  | store => 0
  | _ => 1

end Access

/-- The values that the instructions of a category pop and push.  Those that belong to no category
differ. -/
def Category.counts? : Category → Option (Count × Count)
  | branch ⟨.always, _⟩ => some (0, 0)
  | branch ⟨.leave, _⟩ => some (.varies, 0)
  | branch ⟨.boolean _, _⟩ | branch ⟨.table, _⟩ => some (1, 0)
  | branch ⟨.comparison _, _⟩ => some (2, 0)
  | arithmetic a => some (.fixed a.arity, 1)
  | comparison _ => some (2, 1)
  | conversion _ | cast _ => some (1, 1)
  | field access static => some (.fixed (access.stores + (!static).toNat), .fixed access.loads)
  | element access _ => some (.fixed (access.stores + 2), .fixed access.loads)
  | indirect access _ => some (.fixed (access.stores + 1), .fixed access.loads)
  | slot access _ _ => some (.fixed access.stores, .fixed access.loads)
  | call .jump => some (0, 0)
  | call .loadFunction => some (0, 1)
  | call .loadVirtualFunction => some (1, 1)
  | call .newObject => some (.varies, 1)
  | call .direct | call .virtual | call .indirect => some (.varies, .varies)
  | constant _ => some (0, 1)
  | prefixOp _ => some (0, 0)
  | other => none

/-- Every row of the table declares what its category says. -/
theorem Opcode.counts?_category (op : Opcode) :
    op.category = .other ∨ op.category.counts? = some (op.pops, op.pushes) := by
  cases op <;> first | exact Or.inr rfl | exact Or.inl rfl

theorem Opcode.counts_eq {op : Opcode} {p q : Count} (h : op.category.counts? = some (p, q)) :
    op.pops = p ∧ op.pushes = q := by
  rcases op.counts?_category with hother | hcounts
  · rw [hother] at h
    cases h
  · rw [h] at hcounts
    cases hcounts
    exact ⟨rfl, rfl⟩

/-- The opcodes after which the stack is empty. -/
def Opcode.emptying : List Opcode :=
  [.ret, .leave, .leaveS, .endfinally, .endfilter, .jmp]

/-! ### Steps that pop and then push -/

/-- From a stack to the one after `p` pops and then `q` pushes. -/
structure Stack.Moved (p q : Nat) (s s' : Stack) : Prop where
  pops_eq : s'.pops = s.pops + p
  pushes_eq : s'.pushes = s.pushes + q
  le_depth : p ≤ s.depth
  depth_eq : s'.depth = s.depth - p + q

namespace Stack.Moved

variable {p p' q q' : Nat} {s s' s'' : Stack}

theorem refl (s : Stack) : Moved 0 0 s s :=
  ⟨rfl, rfl, Nat.zero_le _, rfl⟩

/-- Pops, and then all the rest. -/
theorem trans_pops (h : Moved p 0 s s') (h' : Moved p' q s' s'') : Moved (p' + p) q s s'' := by
  obtain ⟨hpops, hpushes, hle, hdepth⟩ := h
  obtain ⟨hpops', hpushes', hle', hdepth'⟩ := h'
  constructor <;> omega

/-- All the rest, and then pushes. -/
theorem trans_pushes (h : Moved p q s s') (h' : Moved 0 q' s' s'') : Moved p (q' + q) s s'' := by
  obtain ⟨hpops, hpushes, hle, hdepth⟩ := h
  obtain ⟨hpops', hpushes', hle', hdepth'⟩ := h'
  constructor <;> omega

end Stack.Moved

def Rejection.IsViolation (e : Rejection) : Prop :=
  ∃ v, e = .violation v

namespace Transition

/-- The step pops `p` values and then pushes `q`, or it finds a violation. -/
abbrev Moves {α : Type} (p q : Nat) (m : Step Stack α) : Prop :=
  Step.Meets Rejection.IsViolation (Stack.Moved p q) m

/-- The step pops and pushes as declared, or it finds a violation. -/
abbrev Counted {α : Type} (pops pushes : Count) (m : Step Stack α) : Prop :=
  Step.Meets Rejection.IsViolation
    (fun s s' => ∃ p q, pops.Admits p ∧ pushes.Admits q ∧ Stack.Moved p q s s') m

section Moves

variable {α β : Type} {p q n : Nat} {op : Opcode}

theorem Moves.bind {m : Step Stack α} {f : α → Step Stack β} (hm : Moves n 0 m)
    (hf : ∀ a, Moves p q (f a)) : Moves (p + n) q (m >>= f) :=
  Step.meets_bind hm hf fun _ _ _ h h' => h.trans_pops h'

theorem Moves.bind_push {m : Step Stack α} {f : α → Step Stack β} (hm : Moves p n m)
    (hf : ∀ a, Moves 0 q (f a)) : Moves p (q + n) (m >>= f) :=
  Step.meets_bind hm hf fun _ _ _ h h' => h.trans_pushes h'

theorem Moves.discard {m : Step Stack α} (hm : Moves n 0 m) :
    Moves n 0 (discard m : Step Stack Unit) := by
  rw [Step.discard_eq, ← Nat.zero_add n]
  exact hm.bind fun _ => Step.meets_pure Stack.Moved.refl

theorem Moves.counted {m : Step Stack α} {pops pushes : Count} (h : Moves p q m)
    (hpops : pops.Admits p) (hpushes : pushes.Admits q) : Counted pops pushes m :=
  h.mono fun _ _ hmoved => ⟨p, q, hpops, hpushes, hmoved⟩

theorem moves_pure {a : α} : Moves 0 0 (pure a) :=
  Step.meets_pure Stack.Moved.refl

theorem moves_refuse {v : Violation} : Moves p q (refuse v : Step Stack α) :=
  Step.meets_throw ⟨v, rfl⟩

/-- A check that changes nothing. -/
theorem Moves.check {m : Step Stack α} {c : Prop} [Decidable c] {v : Violation} (h : Moves p q m) :
    Moves p q (if c then m else refuse v) := by
  by_cases hc : c
  · rw [if_pos hc]
    exact h
  · rw [if_neg hc]
    exact moves_refuse

/-- A check before the rest. -/
theorem meets_unless {R : Stack → Stack → Prop} {rest : Unit → Step Stack α} {c : Prop} [Decidable c]
    {v : Violation} (h : Step.Meets Rejection.IsViolation R (rest ())) :
    Step.Meets Rejection.IsViolation R (if c then refuse v >>= rest else rest ()) := by
  by_cases hc : c
  · rw [if_pos hc]
    exact Step.meets_throw ⟨v, rfl⟩
  · rw [if_neg hc]
    exact h

theorem moves_pop : Moves 1 0 (pop op) := by
  refine Step.meets_of (fun s e s' hok => ?_) fun s e s' herror => ?_
  · obtain ⟨rest, hentries, rfl⟩ := pop_ok.mp hok
    have hdepth : s.depth = rest.length + 1 := by rw [Stack.depth, hentries, List.length_cons]
    exact ⟨rfl, rfl, by omega, by rw [hdepth]; rfl⟩
  · unfold pop at herror
    split at herror
    · cases herror
    · cases herror
      exact ⟨_, rfl⟩

theorem moves_push {e : Entry} : Moves 0 1 (push op e) := by
  refine Step.meets_of (fun s u s' hok => ?_) fun s e s' herror => ?_
  · obtain ⟨-, rfl⟩ := push_ok.mp hok
    exact ⟨rfl, rfl, Nat.zero_le _, rfl⟩
  · unfold push at herror
    split at herror
    · cases herror
    · cases herror
      exact ⟨_, rfl⟩

theorem moves_pushType {t : Ty} : Moves 0 1 (pushType op t) :=
  moves_push

theorem moves_popOf {expected : DataTypeSet} : Moves 1 0 (popOf op expected) :=
  moves_pop.bind fun _ => Moves.check moves_pure

theorem moves_requireAssignable {e : Entry} {t : Ty} : Moves 0 0 (requireAssignable op e t) :=
  Moves.check moves_pure

theorem moves_popAssignable {t : Ty} : Moves 1 0 (popAssignable op t) :=
  moves_pop.bind fun _ => moves_requireAssignable

theorem moves_popArguments {parameters : List Ty} :
    Moves parameters.length 0 (popArguments op parameters) := by
  have hforM : ∀ ts : List Ty, Moves ts.length 0 (ts.forM (popAssignable op) : Transition) := by
    intro ts
    induction ts with
    | nil => exact moves_pure
    | cons t rest ih => exact moves_popAssignable.bind fun _ => ih
  rw [← List.length_reverse]
  exact hforM parameters.reverse

theorem moves_popInstance {t : Ty} {byValue : Bool} : Moves 1 0 (popInstance op t byValue) :=
  moves_pop.bind fun _ => Moves.check moves_pure

theorem moves_popArray : Moves 1 0 (popArray op) := by
  refine moves_pop.bind fun e => ?_
  split
  · exact moves_pure
  · split
    · exact moves_pure
    · exact moves_refuse

theorem moves_popMany : Moves n 0 (popMany op n) := by
  induction n with
  | zero => exact moves_pure
  | succ n ih =>
    have hrest : ∀ e, Moves (0 + n) 0 (do return (← popMany op n) ++ [e]) :=
      fun _ => ih.bind fun _ => moves_pure
    rw [Nat.zero_add] at hrest
    exact moves_pop.bind hrest

theorem moves_popElement {r : Referent} : Moves 2 0 (popElement op r) := by
  refine moves_popOf.discard.bind fun _ => moves_popArray.bind fun actual => ?_
  unfold elementType
  cases actual with
  | some t => exact Moves.check moves_pure
  | none => exact moves_pure

theorem moves_popReferent {expected : DataTypeSet} {r : Referent} :
    Moves 1 0 (popReferent op expected r) :=
  moves_popOf.bind fun _ => Moves.check moves_pure

theorem moves_requireEmpty : Moves 0 0 (requireEmpty op) :=
  Step.meets_get_bind fun _ => Moves.check moves_pure

end Moves

/-! ### Rules -/

section Rules

variable {f : Frame} {op : Opcode} {access : Access} {t : Ty}

theorem moves_arithmetic {a : Arithmetic} : Moves a.arity 1 (arithmetic op a) := by
  rw [← Nat.zero_add a.arity]
  refine moves_popMany.bind fun operands => ?_
  cases a.result? (operands.map Entry.tag) with
  | some result => exact moves_push
  | none => exact moves_refuse

theorem moves_comparison {c : Comparison} : Moves 2 1 (comparison op c) :=
  moves_pop.bind fun _ => moves_pop.bind fun _ => Moves.check moves_pushType

theorem moves_conversion {target : DataType} : Moves 1 1 (conversion op target) := by
  refine moves_pop.bind fun e => ?_
  cases Conversion.between? e.tag target with
  | some _ => exact moves_push
  | none => exact moves_refuse

theorem moves_constant {c : Constant} : Moves 0 1 (constant op c) := by
  cases c <;> exact moves_push

theorem moves_slot {kind : VariableKind} {index : Int} :
    Moves access.stores access.loads (slot f op access kind index) := by
  unfold slot
  cases variableType? f kind index with
  | none => exact moves_refuse
  | some t =>
    cases access with
    | load => exact moves_pushType
    | address => exact moves_pushType
    | store => exact moves_popAssignable

theorem moves_fieldAccess {static : Bool} {field : Field} :
    Moves (access.stores + (!static).toNat) access.loads (fieldAccess f op access static field) := by
  unfold fieldAccess
  refine meets_unless (meets_unless ?_)
  cases static with
  | true =>
    cases access with
    | load => exact moves_pushType
    | address => exact moves_pushType
    | store => exact moves_popAssignable.bind fun _ => moves_pure
  | false =>
    cases access with
    | load => exact moves_popInstance.bind fun _ => moves_pushType
    | address => exact moves_popInstance.bind fun _ => moves_pushType
    | store => exact moves_popAssignable.bind fun _ => moves_popInstance.bind fun _ => moves_pure

theorem moves_element {r : Referent} :
    Moves (access.stores + 2) access.loads (element f op access r) := by
  cases access with
  | load => exact moves_popElement.bind fun _ => moves_pushType
  | address => exact moves_popElement.bind fun _ => moves_pushType
  | store =>
    exact moves_pop.bind fun _ => moves_popElement.bind fun _ => moves_requireAssignable

theorem moves_indirect {r : Referent} :
    Moves (access.stores + 1) access.loads (indirect op access r) := by
  cases access with
  | load => exact moves_popReferent.bind fun _ => moves_pushType
  | address => exact moves_popReferent.bind fun _ => moves_pushType
  | store =>
    exact moves_pop.bind fun _ => moves_popReferent.bind fun _ => moves_requireAssignable

theorem moves_cast {kind : CastKind} : Moves 1 1 (cast op kind t) := by
  cases kind with
  | box => exact moves_popAssignable.bind fun _ => moves_pushType
  | _ => exact moves_popOf.discard.bind fun _ => moves_pushType

/-- What moves as its category says moves as the opcode declares. -/
theorem counted_of_category {m : Transition} {category : Category} {pops pushes : Count}
    (hcategory : op.category = category) (hcounts : category.counts? = some (pops, pushes))
    (h : Counted pops pushes m) : Counted op.pops op.pushes m := by
  obtain ⟨hpops, hpushes⟩ := Opcode.counts_eq (hcategory ▸ hcounts)
  rw [hpops, hpushes]
  exact h

theorem counted_of_moves {m : Transition} {category : Category} {p q : Nat}
    (hcategory : op.category = category) (h : Moves p q m)
    (hcounts : category.counts? = some (.fixed p, .fixed q)) : Counted op.pops op.pushes m :=
  counted_of_category hcategory hcounts (h.counted rfl rfl)

/-- Emptying the stack pops whatever it holds. -/
theorem counted_clear : Counted .varies 0 clear := by
  refine Step.meets_of (fun s u s' hok => ?_) fun s e s' herror => ?_
  · obtain rfl := Step.modify_ok.mp hok
    exact ⟨s.depth, 0, trivial, rfl, rfl, rfl, Nat.le_refl _, by rw [Nat.sub_self]; rfl⟩
  · cases herror

theorem counted_branch {b : Branch} (h : op.category = .branch b) :
    Counted op.pops op.pushes (branch op b.kind) := by
  obtain ⟨kind, short⟩ := b
  cases kind with
  | always => exact counted_of_moves h moves_pure rfl
  | leave => exact counted_of_category h rfl counted_clear
  | boolean branchIf => exact counted_of_moves h moves_popOf.discard rfl
  | comparison c =>
    exact counted_of_moves h (moves_pop.discard.bind fun _ => moves_pop.discard) rfl
  | table => exact counted_of_moves h moves_popOf.discard rfl

/-- A call takes the arguments and the instance, if it has one, and leaves the result, if there is
one. -/
theorem moves_call (f : Frame) (op : Opcode) (m : Method) : ∃ p q,
    Moves p q (do popArguments op m.parameters; popReceiver f op m; pushResult op m) := by
  have hreceiver : ∃ p, Moves p 0 (popReceiver f op m) := by
    unfold popReceiver
    split
    · exact ⟨0, moves_pure⟩
    · split
      · exact ⟨1, moves_popOf.discard⟩
      · exact ⟨1, moves_popInstance⟩
  have hresult : ∃ q, Moves 0 q (pushResult op m) := by
    unfold pushResult
    cases m.returnType with
    | some t => exact ⟨1, moves_pushType⟩
    | none => exact ⟨0, moves_pure⟩
  obtain ⟨p, hp⟩ := hreceiver
  obtain ⟨q, hq⟩ := hresult
  exact ⟨_, q, moves_popArguments.bind fun _ => hp.bind fun _ => hq⟩

theorem counted_invoke {kind : CallKind} {m : Method} (h : op.category = .call kind) :
    Counted op.pops op.pushes (invoke f op kind m) := by
  obtain ⟨p, q, hcall⟩ := moves_call f op m
  unfold invoke
  refine meets_unless ?_
  cases kind with
  | jump => exact counted_of_moves h moves_requireEmpty rfl
  | loadFunction => exact counted_of_moves h moves_pushType rfl
  | loadVirtualFunction =>
    exact counted_of_moves h (moves_popInstance.bind fun _ => moves_pushType) rfl
  | newObject =>
    have hmoves : Moves _ 1 (do popArguments op m.parameters; pushType op m.declaringType) :=
      moves_popArguments.bind fun _ => moves_pushType
    exact meets_unless (counted_of_category h rfl (hmoves.counted trivial rfl))
  | indirect =>
    exact counted_of_category h rfl
      ((moves_popOf.discard.bind fun _ => hcall).counted trivial trivial)
  | direct => exact counted_of_category h rfl (hcall.counted trivial trivial)
  | virtual => exact counted_of_category h rfl (hcall.counted trivial trivial)

theorem counted_ret : Counted .varies 0 (ret f op) := by
  refine Step.meets_get_bind fun s => ?_
  cases f.method.returnType with
  | none =>
    dsimp only
    split
    · exact moves_refuse.counted trivial rfl (p := 0)
    · exact moves_pure.counted trivial rfl
  | some t =>
    dsimp only
    split
    · exact moves_refuse.counted trivial rfl (p := 0)
    · exact moves_popAssignable.counted trivial rfl

theorem counted_simple {transition : Transition} (h : simple f op = some transition) :
    Counted op.pops op.pushes transition := by
  unfold simple at h
  split at h <;> cases h
  · exact moves_pure.counted rfl rfl
  · exact moves_pure.counted rfl rfl
  · exact moves_pure.counted rfl rfl
  · have hmoves : Moves 1 2 (do let e ← pop .dup; push .dup e; push .dup e) :=
      moves_pop.bind fun _ => moves_push.bind_push fun _ => moves_push
    exact hmoves.counted rfl rfl
  · exact moves_pop.discard.counted rfl rfl
  · exact counted_ret
  · exact moves_popOf.discard.counted rfl rfl
  · exact (moves_popArray.discard.bind fun _ => moves_pushType).counted rfl rfl
  · exact (moves_popOf.bind fun _ => moves_push).counted rfl rfl
  · exact counted_clear
  · exact (moves_popOf.discard.bind fun _ => moves_requireEmpty).counted rfl rfl
  · exact moves_pushType.counted rfl rfl
  · exact (moves_popOf.discard.bind fun _ => moves_pushType).counted rfl rfl
  · exact (moves_popOf.discard.bind fun _ => moves_popOf.discard.bind fun _ =>
      moves_popOf.discard).counted rfl rfl
  · exact (moves_popOf.discard.bind fun _ => moves_popOf.discard.bind fun _ =>
      moves_popOf.discard).counted rfl rfl
  · exact (moves_popAssignable.bind fun _ => moves_pushType).counted rfl rfl

theorem counted_simpleType {transition : Transition} (h : simpleType op t = some transition) :
    Counted op.pops op.pushes transition := by
  unfold simpleType at h
  split at h <;> cases h
  · exact (moves_popAssignable.bind fun _ => moves_popAssignable).counted rfl rfl
  · exact moves_popAssignable.counted rfl rfl
  · exact (moves_popOf.discard.bind fun _ => moves_pushType).counted rfl rfl
  · exact moves_pushType.counted rfl rfl
  · exact (moves_popAssignable.bind fun _ => moves_pushType).counted rfl rfl
  · exact (moves_popAssignable.bind fun _ => moves_pushType).counted rfl rfl

end Rules

/-! ### The rule for an instruction -/

section Calls

variable {f : Frame} {op : Opcode} {c : Call} {labels : LabelTable} {transition : Transition}

theorem counts_of_member (h : op.operandKind = .member ∨ op.operandKind = .string) :
    op.pops = 0 ∧ op.pushes = 1 := by
  cases op <;> first | exact ⟨rfl, rfl⟩ | exact absurd h (by decide)

theorem isSome_ofNumber {x : Operand} (h : op.operandKind.isSymbolic = false) :
    (ofNumber op x f).isSome = true := by
  cases op <;> first | rfl | exact nomatch h

theorem isSome_ofTarget (h : Checker.branchesToOne op = true) : (ofTarget op f).isSome = true := by
  cases op <;> first | rfl | exact nomatch h

theorem isSome_ofType {t : Ty} (h : op.operandKind = .type) : (ofType op t f).isSome = true := by
  cases op <;> first | rfl | exact nomatch h

/-- An instruction whose operand has the form that its opcode takes has a rule. -/
theorem exists_rule (hop : c.opcode? = some op) (hformed : c.Formed labels) (f : Frame) :
    ∃ transition, c.rule? f = some transition := by
  rw [← Option.isSome_iff_exists]
  cases c with
  | emit op x => exact isSome_ofNumber hformed.1
  | branch op target => exact isSome_ofTarget (f := f) hformed.1
  | switch targets => rfl
  | invoke op m =>
    show (ofMethod op m f).isSome = true
    unfold ofMethod
    cases hcategory : op.category with
    | call kind => rfl
    | _ => simp [Call.Formed, hcategory, Category.call?] at hformed
  | field op member =>
    show (ofField op member f).isSome = true
    unfold ofField
    cases hcategory : op.category with
    | field access static => rfl
    | _ => simp [Call.Formed, hcategory, Category.isField] at hformed
  | type op t => exact isSome_ofType hformed
  | token op m => cases m <;> rfl
  | string op value => rfl
  | _ => cases hop

/-- **Every rule moves what its opcode declares.** -/
theorem counted_rule (hop : c.opcode? = some op) (hformed : c.Formed labels)
    (h : c.rule? f = some transition) : Counted op.pops op.pushes transition := by
  cases c with
  | emit op x =>
    cases hop
    change ofNumber op x f = some transition at h
    unfold ofNumber at h
    split at h
    · next hcategory =>
      cases h
      exact counted_of_moves hcategory moves_arithmetic rfl
    · next hcategory =>
      cases h
      exact counted_of_moves hcategory moves_comparison rfl
    · next hcategory =>
      cases h
      exact counted_of_moves hcategory moves_conversion rfl
    · next hcategory =>
      cases h
      exact counted_of_moves hcategory moves_slot rfl
    · next hcategory =>
      cases h
      exact counted_of_moves hcategory moves_constant rfl
    · next hcategory =>
      cases h
      exact counted_of_moves hcategory moves_element rfl
    · next hcategory =>
      cases h
      exact counted_of_moves hcategory moves_indirect rfl
    · next hcategory =>
      cases h
      exact counted_of_moves hcategory moves_pure rfl
    · exact counted_simple h
    · cases h
  | branch op target =>
    cases hop
    change ofTarget op f = some transition at h
    unfold ofTarget at h
    split at h <;> cases h
    next hcategory => exact counted_branch hcategory
  | switch targets =>
    cases hop
    cases h
    exact moves_popOf.discard.counted rfl rfl
  | invoke op m =>
    cases hop
    change ofMethod op m f = some transition at h
    unfold ofMethod at h
    split at h <;> cases h
    next hcategory => exact counted_invoke hcategory
  | field op member =>
    cases hop
    change ofField op member f = some transition at h
    unfold ofField at h
    split at h <;> cases h
    next hcategory => exact counted_of_moves hcategory moves_fieldAccess rfl
  | type op t =>
    cases hop
    change ofType op t f = some transition at h
    unfold ofType at h
    split at h
    · next hcategory =>
      cases h
      exact counted_of_moves hcategory moves_cast rfl
    · next hcategory =>
      cases h
      exact counted_of_moves hcategory moves_element rfl
    · next hcategory =>
      cases h
      exact counted_of_moves hcategory moves_indirect rfl
    · exact counted_simpleType h
    · next hcategory =>
      cases h
      exact counted_of_moves hcategory moves_pure rfl
    · cases h
  | token op m =>
    cases hop
    obtain ⟨hpops, hpushes⟩ := counts_of_member (Or.inl hformed)
    rw [hpops, hpushes]
    cases m <;> cases h <;> exact moves_pushType.counted rfl rfl
  | string op value =>
    cases hop
    obtain ⟨hpops, hpushes⟩ := counts_of_member (Or.inr hformed)
    rw [hpops, hpushes]
    cases h
    exact moves_constant.counted rfl rfl
  | declareLocal t name => exact nomatch hop
  | createLabel name => exact nomatch hop
  | markLabel index => exact nomatch hop
  | finish => exact nomatch hop

/-! ### Instructions that leave nothing -/

theorem depth_of_clear {s s' : Stack} (h : clear s = .ok () s') : s'.depth = 0 := by
  obtain rfl := Step.modify_ok.mp h
  rfl

theorem depth_of_requireEmpty {s s' : Stack} (h : requireEmpty op s = .ok () s') : s'.depth = 0 := by
  unfold requireEmpty at h
  rw [Step.get_bind] at h
  by_cases hempty : s.isEmpty = true
  · rw [if_pos hempty] at h
    obtain ⟨-, rfl⟩ := Step.pure_ok.mp h
    exact List.isEmpty_iff_length_eq_zero.mp hempty
  · rw [if_neg hempty] at h
    exact (Step.throw_ok.mp h).elim

theorem depth_of_ret {s s' : Stack} (h : ret f op s = .ok () s') : s'.depth = 0 := by
  unfold ret at h
  rw [Step.get_bind] at h
  cases hreturn : f.method.returnType with
  | none =>
    rw [hreturn] at h
    dsimp only at h
    split at h
    · exact (Step.throw_ok.mp h).elim
    · next hdepth =>
      obtain ⟨-, rfl⟩ := Step.pure_ok.mp h
      exact Decidable.not_not.mp hdepth
  | some t =>
    rw [hreturn] at h
    dsimp only at h
    split at h
    · exact (Step.throw_ok.mp h).elim
    · next hdepth =>
      rw [(moves_popAssignable.of_ok h).depth_eq, Decidable.not_not.mp hdepth]

/-- What returns, leaves a protected region or jumps to another method leaves an empty stack. -/
theorem depth_of_rule (hop : c.opcode? = some op) (hformed : c.Formed labels)
    (hempties : op ∈ Opcode.emptying) (h : c.rule? f = some transition) {s s' : Stack}
    (hs : transition s = .ok () s') : s'.depth = 0 := by
  simp only [Opcode.emptying, List.mem_cons, List.not_mem_nil, or_false] at hempties
  cases c with
  | emit op x =>
    cases hop
    rcases hempties with rfl | rfl | rfl | rfl | rfl | rfl <;> cases h
    · exact depth_of_ret hs
    · exact depth_of_clear hs
    · obtain ⟨⟨⟩, s₁, -, hempty⟩ := Step.bind_ok.mp hs
      exact depth_of_requireEmpty hempty
  | branch op target =>
    cases hop
    rcases hempties with rfl | rfl | rfl | rfl | rfl | rfl <;> cases h
    · exact depth_of_clear hs
    · exact depth_of_clear hs
  | invoke op m =>
    cases hop
    rcases hempties with rfl | rfl | rfl | rfl | rfl | rfl <;> cases h
    unfold invoke at hs
    split at hs
    · obtain ⟨a, s₁, hrefused, -⟩ := Step.bind_ok.mp hs
      exact (Step.throw_ok.mp hrefused).elim
    · exact depth_of_requireEmpty hs
  | switch targets =>
    cases hop
    simp at hempties
  | field op member =>
    cases hop
    rcases hempties with rfl | rfl | rfl | rfl | rfl | rfl <;> cases h
  | type op t =>
    cases hop
    rcases hempties with rfl | rfl | rfl | rfl | rfl | rfl <;> cases h
  | token op m =>
    cases hop
    rcases hempties with rfl | rfl | rfl | rfl | rfl | rfl <;> cases hformed
  | string op value =>
    cases hop
    rcases hempties with rfl | rfl | rfl | rfl | rfl | rfl <;> cases hformed
  | declareLocal t name => exact nomatch hop
  | createLabel name => exact nomatch hop
  | markLabel index => exact nomatch hop
  | finish => exact nomatch hop

end Calls

end Transition

/-! ### Why a call is refused -/

/-- Is the reason one that the checker was made to give?  An opcode without a rule is not. -/
def Rejection.Foreseen (e : Rejection) : Prop :=
  ∀ op, e ≠ .unsupported (.noRule op)

theorem Rejection.IsViolation.foreseen {e : Rejection} (h : e.IsViolation) : e.Foreseen := by
  obtain ⟨v, rfl⟩ := h
  exact nofun

namespace Step

variable {σ α β : Type}

/-- A step that refuses only for reasons it was made to give. -/
abbrev Foreseen (m : Step σ α) : Prop :=
  Meets Rejection.Foreseen (fun _ _ => True) m

/-- What follows needs to be shown only for answers that are given. -/
theorem Foreseen.bind_answer {m : Step σ α} {f : α → Step σ β} (hm : Foreseen m)
    (hf : ∀ s a t, m s = .ok a t → Foreseen (f a)) : Foreseen (m >>= f) := by
  refine meets_of (fun _ _ _ _ => trivial) fun s e u herror => ?_
  rcases bind_error.mp herror with hma | ⟨a, t, hma, hfa⟩
  · exact hm.of_error hma
  · exact (hf s a t hma).of_error hfa

theorem Foreseen.bind {m : Step σ α} {f : α → Step σ β} (hm : Foreseen m)
    (hf : ∀ a, Foreseen (f a)) : Foreseen (m >>= f) :=
  hm.bind_answer fun _ a _ _ => hf a

theorem foreseen_pure {a : α} : Foreseen (pure a : Step σ α) :=
  meets_pure fun _ => trivial

theorem foreseen_violation {v : Violation} : Foreseen (throw (.violation v) : Step σ α) :=
  meets_throw nofun

theorem foreseen_modify {f : σ → σ} : Foreseen (modify f : Step σ Unit) :=
  fun _ => trivial

theorem Foreseen.forM {f : α → Step σ Unit} {as : List α} (h : ∀ a, Foreseen (f a)) :
    Foreseen (as.forM f : Step σ Unit) := by
  induction as with
  | nil => exact foreseen_pure
  | cons a rest ih => exact (h a).bind fun _ => ih

end Step

namespace LabelTable

variable {t : LabelTable} {index : Nat}

theorem foreseen_find {e : Rejection} (h : t.find index = .error e) : e.Foreseen := by
  unfold find at h
  split at h
  · cases h
  · cases h
    exact nofun

theorem foreseen_mark : Step.Foreseen (mark index) := by
  refine Step.meets_of (fun _ _ _ _ => trivial) fun t e t' herror => ?_
  unfold mark at herror
  cases hfind : t.find index with
  | error e' =>
    rw [hfind] at herror
    cases herror
    exact foreseen_find hfind
  | ok l =>
    rw [hfind] at herror
    dsimp only at herror
    split at herror
    · cases herror
      exact nofun
    · cases herror

theorem foreseen_reach {entries : List Entry} {byBranch : Bool} :
    Step.Foreseen (reach index entries byBranch) := by
  refine Step.meets_of (fun _ _ _ _ => trivial) fun t e t' herror => ?_
  unfold reach at herror
  cases hfind : t.find index with
  | error e' =>
    rw [hfind] at herror
    cases herror
    exact foreseen_find hfind
  | ok l =>
    rw [hfind] at herror
    dsimp only at herror
    split at herror
    · cases herror
    · split at herror
      · cases herror
      · cases herror
        exact nofun

end LabelTable

namespace Checker

open Step (Foreseen foreseen_pure foreseen_violation foreseen_modify)

variable {c : Call} {op : Opcode} {labels : LabelTable} {index : Nat}

theorem foreseen_onStack {m : Step Stack Unit} (hm : Foreseen m) : Foreseen (onStack m) := by
  refine Step.meets_of (fun _ _ _ _ => trivial) fun k e k' herror => ?_
  unfold onStack at herror
  cases hs : m k.stack with
  | ok u s =>
    rw [hs] at herror
    cases herror
  | error e' s =>
    rw [hs] at herror
    cases herror
    exact hm.of_error hs

theorem foreseen_onLabels {m : Step LabelTable Unit} (hm : Foreseen m) : Foreseen (onLabels m) := by
  refine Step.meets_of (fun _ _ _ _ => trivial) fun k e k' herror => ?_
  unfold onLabels at herror
  cases ht : m k.labels with
  | ok u t =>
    rw [ht] at herror
    cases herror
  | error e' t =>
    rw [ht] at herror
    cases herror
    exact hm.of_error ht

theorem foreseen_label : Foreseen (label index) := by
  refine Step.meets_of (fun _ _ _ _ => trivial) fun k e k' herror => ?_
  unfold label at herror
  cases hfind : k.labels.find index with
  | ok l =>
    rw [hfind] at herror
    cases herror
  | error e' =>
    rw [hfind] at herror
    cases herror
    exact LabelTable.foreseen_find hfind

theorem foreseen_mapM_label {targets : List Nat} :
    Foreseen (targets.mapM label : Step Checker (List Label)) := by
  induction targets with
  | nil => exact foreseen_pure
  | cons target rest ih =>
    rw [List.mapM_cons]
    exact foreseen_label.bind fun _ => ih.bind fun _ => foreseen_pure

theorem foreseen_begin : Foreseen (begin op) := by
  refine foreseen_modify.bind fun _ => foreseen_modify.bind fun _ => ?_
  refine Step.meets_of (fun _ _ _ _ => trivial) fun k e k' herror => ?_
  unfold takePrefixes at herror
  split at herror
  · split at herror
    · cases herror
      exact nofun
    · cases herror
  · split at herror
    · cases herror
    · split at herror
      · cases herror
      · cases herror
        exact nofun

theorem foreseen_reachAll {targets : List Nat} : Foreseen (reachAll targets) :=
  Step.meets_get_bind fun _ => Foreseen.forM fun _ => foreseen_onLabels LabelTable.foreseen_reach

/-- An instruction whose operand has the form that its opcode takes comes to its rule. -/
theorem foreseen_instruction (hop : c.opcode? = some op) (hformed : c.Formed labels)
    {targets : List Nat} : Foreseen (instruction op c.rule? targets) := by
  refine foreseen_begin.bind fun active => Step.meets_get_bind fun k => ?_
  obtain ⟨transition, hrule⟩ := Transition.exists_rule hop hformed (k.frame active)
  have hcounted := Transition.counted_rule hop hformed hrule
  have hforeseen : Foreseen transition :=
    Step.meets_of (fun _ _ _ _ => trivial) fun _ _ _ herror => (hcounted.of_error herror).foreseen
  dsimp only
  rw [hrule]
  refine (foreseen_onStack hforeseen).bind fun _ => foreseen_reachAll.bind fun _ => ?_
  split
  · exact foreseen_modify
  · exact foreseen_pure

theorem foreseen_requireForm {takes : Bool} {form : String} {α : Type} {rest : Unit → Step Checker α}
    (h : takes = true → Foreseen (rest ())) : Foreseen (requireForm op takes form >>= rest) := by
  unfold requireForm
  cases takes with
  | true => exact h rfl
  | false => exact Step.meets_throw nofun

theorem foreseen_mark : Foreseen (mark index) := by
  refine (foreseen_onLabels LabelTable.foreseen_mark).bind fun _ => ?_
  refine foreseen_label.bind fun l => foreseen_modify.bind fun _ => ?_
  refine Step.meets_get_bind fun k => ?_
  exact (foreseen_onLabels LabelTable.foreseen_reach).bind fun _ => foreseen_pure

theorem foreseen_refusal {α β : Type} {v : Violation} {f : α → Step Checker β} :
    Foreseen (refuse v >>= f) :=
  fun _ => nofun

theorem foreseen_number {x : Operand} : Foreseen (number op x) := by
  unfold number
  cases hsymbolic : op.operandKind.isSymbolic with
  | true => exact fun _ => nofun
  | false =>
    cases hfits : x.fits op.operandKind with
    | false => exact foreseen_refusal
    | true =>
      have hformed : Call.Formed {} (.emit op x) := ⟨hsymbolic, hfits⟩
      exact foreseen_instruction rfl hformed

theorem foreseen_finish : Foreseen finish := by
  refine Step.meets_get_bind fun k => ?_
  cases k.pending with
  | cons last rest => exact foreseen_refusal
  | nil =>
    cases k.labels.firstUnmarkedTarget? with
    | some l => exact foreseen_refusal
    | none =>
      dsimp only
      split
      · exact foreseen_refusal
      · split
        · exact foreseen_violation
        · exact foreseen_pure

/-- A check of the operand's form, the instruction, the call to pass on. -/
theorem foreseen_formed {takes : Bool} {form : String} {passed : Call} (hop : c.opcode? = some op)
    (hformed : takes = true → c.Formed {}) :
    Foreseen (do requireForm op takes form; instruction op c.rule? []; return passed) :=
  foreseen_requireForm fun htakes =>
    (foreseen_instruction hop (hformed htakes)).bind fun _ => foreseen_pure

/-- **No call comes to an opcode without a rule.** -/
theorem foreseen_accept : Foreseen (accept c) := by
  cases c with
  | declareLocal t name =>
    refine Step.meets_get_bind fun k => ?_
    dsimp only
    split
    · exact foreseen_refusal
    · exact foreseen_pure
  | createLabel name => exact foreseen_pure
  | markLabel index => exact foreseen_mark.bind fun _ => foreseen_pure
  | emit op x => exact foreseen_number.bind fun _ => foreseen_pure
  | branch op target =>
    refine foreseen_requireForm fun htakes => ?_
    -- The instruction is checked only if the label is known.
    refine foreseen_label.bind_answer fun k l k₁ hlabel => ?_
    obtain ⟨hl, -⟩ := label_ok.mp hlabel
    have hformed : Call.Formed k.labels (.branch op target) :=
      ⟨htakes, (Array.getElem?_eq_some_iff.mp hl).1⟩
    exact (foreseen_instruction rfl hformed).bind fun _ => foreseen_pure
  | switch targets =>
    refine foreseen_mapM_label.bind_answer fun k ls k₁ hlabels => ?_
    obtain ⟨hls, -⟩ := mapM_label_ok.mp hlabels
    have hformed : Call.Formed k.labels (.switch targets) := (LabelTable.known_of_map hls).1
    exact (foreseen_instruction rfl hformed).bind fun _ => foreseen_pure
  | invoke op m => exact foreseen_formed (c := .invoke op m) rfl id
  | field op f => exact foreseen_formed (c := .field op f) rfl id
  | type op t => exact foreseen_formed (c := .type op t) rfl of_decide_eq_true
  | token op m => exact foreseen_formed (c := .token op m) rfl of_decide_eq_true
  | string op value => exact foreseen_formed (c := .string op value) rfl of_decide_eq_true
  | finish => exact foreseen_finish.bind fun _ => foreseen_pure

/-! ### What an accepted instruction does -/

/-- The depth an instruction starts from: nothing is on the stack where control does not arrive. -/
def depthBefore (k : Checker) : Nat :=
  if k.reachable then k.stack.depth else 0

theorem depth_entryStack (k : Checker) : k.entryStack.depth = k.depthBefore := by
  unfold entryStack depthBefore enter
  split <;> rfl

end Checker

/-- A stack as an instruction with the given opcode leaves it, if the depth was `d` before: as many
values were popped and pushed as declared, and nothing is left where nothing may be left. -/
structure Opcode.Leaves (op : Opcode) (d : Nat) (s : Stack) : Prop where
  pops : op.pops.Admits s.pops
  pushes : op.pushes.Admits s.pushes
  pops_le : s.pops ≤ d
  depth_eq : s.depth = d - s.pops + s.pushes
  empty : op ∈ emptying → s.depth = 0

namespace Checker

variable {c c' : Call} {op : Opcode} {k k' : Checker}

theorem leaves_of_accept (hop : c.opcode? = some op) (h : accept c k = .ok c' k') :
    op.Leaves k.depthBefore k'.stack := by
  obtain ⟨hformed, hinstr, -⟩ := (accept_instruction hop).mp h
  obtain ⟨-, transition, s, t, hrule, hs, -, rfl⟩ := instruction_ok.mp hinstr
  obtain ⟨p, q, hp, hq, hmoved⟩ := (Transition.counted_rule hop hformed hrule).of_ok hs
  have hpops : s.pops = p := hmoved.pops_eq.trans (Nat.zero_add p)
  have hpushes : s.pushes = q := hmoved.pushes_eq.trans (Nat.zero_add q)
  rw [← depth_entryStack]
  exact ⟨hpops ▸ hp, hpushes ▸ hq, hpops ▸ hmoved.le_depth, hpops ▸ hpushes ▸ hmoved.depth_eq,
    fun hempties => Transition.depth_of_rule hop hformed hempties hrule hs⟩

end Checker

namespace Verifier

variable {δ : Type} [Sink δ]

/-- **Instructions do what their opcodes declare**, in any state, reachable or not.  No call comes to
an opcode without a rule; and if an instruction passes the checks, it has popped and pushed as many
values as the table of opcodes says, which is what it has left if the receiver takes it too. -/
theorem leaves_of_step (v : Verifier δ) (c : Call) :
    (∀ op k, Checker.accept c v.checker ≠ .error (.unsupported (.noRule op)) k) ∧
    ∀ op, c.opcode? = some op →
      (∀ c' k, Checker.accept c v.checker = .ok c' k → op.Leaves v.checker.depthBefore k.stack) ∧
      ∀ reply v', Sink.step c v = .ok reply v' →
        op.Leaves v.checker.depthBefore v'.checker.stack := by
  refine ⟨fun op k herror => ?_, fun op hop => ⟨fun c' k haccept => ?_, fun reply v' hstep => ?_⟩⟩
  · exact Checker.foreseen_accept.of_error herror op rfl
  · exact Checker.leaves_of_accept hop haccept
  · obtain ⟨c', haccept⟩ := accept_of_step hop hstep
    exact Checker.leaves_of_accept hop haccept

end Verifier

end Cil
