/-
Two runs of one rule.

A rule looks at more than the tags of the entries: it also looks at the types the values were made
from, and may refuse because of them.  But what it pops and pushes does not depend on them.  Run on
two stacks whose entries are related place by place, a rule pops from both, pushes on both and reads
the depth of both at the same points, and what it pushes is related again.  If it refuses one of them
and not the other, it does so with a type mismatch.

`Lockstep` says that of two steps.  It is shown once for every rule (`lockstep_rule`), and what rules
can and cannot do follows from it by induction: entries that are related stay so (`related_ok`), the
stack never grows past its bound (`keeps_within`), a stack related to an accepted one is accepted or
else mismatches (`ok_or_mismatch`), and nothing matters but the depth and the entries that are popped
(`ok_of_agrees`).
-/
import Cil.Proofs.Verifier.Accept
import Mathlib.Data.List.Forall2

namespace Cil

open List (Forall₂)

/-- A relation between entries that sees tags at least and cannot tell apart two values just made of
types with the same stack type. -/
structure Entry.Fair (E : Entry → Entry → Prop) : Prop where
  tag : ∀ {e e' : Entry}, E e e' → e.tag = e'.tag
  of : ∀ {t t' : Ty}, t.stackType = t'.stackType → E (.of t) (.of t')

/-! ### What arithmetic yields -/

namespace Arithmetic

/-- What a row yields has a primitive type, or it is the type of one of the operands. -/
theorem result_of_mem_rules {a : Arithmetic} {row : BinaryRule} (h : row ∈ a.rules) :
    (Ty.ofDataType? row.result).isSome ∨
      row.result.isPointer ∧ (row.result = row.left ∨ row.result = row.right) := by
  have hrows : ∀ row ∈ integerRules ++ floatRules ++ pointerAdditionRules ++ pointerSubtractionRules,
      (Ty.ofDataType? row.result).isSome ∨
        row.result.isPointer ∧ (row.result = row.left ∨ row.result = row.right) := by
    decide
  refine hrows row ?_
  unfold rules at h
  simp only [List.mem_append] at h ⊢
  rcases h with (h | h) | h
  · exact Or.inl (Or.inl (Or.inl h))
  · split at h
    · exact Or.inl (Or.inl (Or.inr h))
    · exact absurd h List.not_mem_nil
  · split at h
    · split at h
      · exact Or.inl (Or.inr h)
      · exact absurd h List.not_mem_nil
    · split at h
      · exact Or.inr h
      · exact absurd h List.not_mem_nil
    · exact absurd h List.not_mem_nil

theorem isSome_of_isStackInteger {t : DataType} (h : isStackInteger t) :
    (Ty.ofDataType? t).isSome := by
  cases t <;> first | rfl | exact nomatch h

/-- Arithmetic yields a type with a primitive, or moves a pointer that is among the operands. -/
theorem result?_cases {a : Arithmetic} {ts : List DataType} {r : DataType}
    (h : a.result? ts = some r) :
    (Ty.ofDataType? r).isSome ∨ r.isPointer ∧ r ∈ ts := by
  have hshift : ∀ {t amount : DataType},
      (if isStackInteger t && DataTypeSet.index.contains amount then some t else none) = some r →
      (Ty.ofDataType? r).isSome := by
    intro t amount h
    obtain ⟨hint, h⟩ := Option.ite_none_right_eq_some.mp h
    obtain rfl := Option.some.inj h
    exact isSome_of_isStackInteger (Bool.and_eq_true_iff.mp hint).1
  unfold result? at h
  split at h
  · obtain ⟨hnumber, h⟩ := Option.ite_none_right_eq_some.mp h
    obtain rfl := Option.some.inj h
    rcases Bool.or_eq_true_iff.mp hnumber with hint | hfloat
    · exact Or.inl (isSome_of_isStackInteger hint)
    · obtain rfl := of_decide_eq_true hfloat
      exact Or.inl rfl
  · obtain ⟨hint, h⟩ := Option.ite_none_right_eq_some.mp h
    obtain rfl := Option.some.inj h
    exact Or.inl (isSome_of_isStackInteger hint)
  · exact nomatch h
  · exact nomatch h
  · exact Or.inl (hshift h)
  · exact Or.inl (hshift h)
  · next left right _ _ _ _ =>
    obtain ⟨row, hrow, rfl⟩ := Option.map_eq_some_iff.mp h
    have hoperands := List.find?_some hrow
    obtain ⟨hleft, hright⟩ := Bool.and_eq_true_iff.mp hoperands
    rcases result_of_mem_rules (List.mem_of_find?_eq_some hrow) with hsome | ⟨hpointer, hside⟩
    · exact Or.inl hsome
    · refine Or.inr ⟨hpointer, ?_⟩
      rw [of_decide_eq_true hleft, of_decide_eq_true hright] at hside
      simpa using hside
  · exact nomatch h

end Arithmetic

/-! ### Steps in lockstep -/

/-- Is a value refused for the type it was made from? -/
def Rejection.IsMismatch (e : Rejection) : Prop :=
  ∃ op expected found, e = .violation (.typeMismatch op expected found)

namespace Transition

/-- Two steps that pop, push and read the depth at the same points, up to the point where one of
them refuses.  One may refuse alone only with a type mismatch.  Their answers are related by `R` if the
entries they pop are related by `E`. -/
inductive Lockstep (E : Entry → Entry → Prop) :
    {α β : Type} → (α → β → Prop) → Step Stack α → Step Stack β → Prop where
  | pure {α β : Type} {R : α → β → Prop} {a : α} {b : β} (h : R a b) :
    Lockstep E R (pure a) (pure b)
  | mismatch_left {α β : Type} {R : α → β → Prop} {m : Step Stack α} {n : Step Stack β}
    {e : Rejection} (he : e.IsMismatch) (h : Lockstep E R m n) : Lockstep E R (throw e) n
  | mismatch_right {α β : Type} {R : α → β → Prop} {m : Step Stack α} {n : Step Stack β}
    {e : Rejection} (he : e.IsMismatch) (h : Lockstep E R m n) : Lockstep E R m (throw e)
  | refuse {α β : Type} {R : α → β → Prop} {e e' : Rejection} : Lockstep E R (throw e) (throw e')
  | bind {α β γ ε : Type} {R : α → β → Prop} {Q : γ → ε → Prop} {m : Step Stack α}
    {n : Step Stack β} {f : α → Step Stack γ} {g : β → Step Stack ε} (h : Lockstep E R m n)
    (hfg : ∀ a b, R a b → Lockstep E Q (f a) (g b)) : Lockstep E Q (m >>= f) (n >>= g)
  | push {op : Opcode} {e e' : Entry} (h : E e e') :
    Lockstep E (fun _ _ => True) (push op e) (push op e')
  | pop {op : Opcode} : Lockstep E E (pop op) (pop op)
  | clear : Lockstep E (fun _ _ => True) clear clear
  | depth {α β : Type} {R : α → β → Prop} {f : Nat → Step Stack α} {g : Nat → Step Stack β}
    (h : ∀ n, Lockstep E R (f n) (g n)) :
    Lockstep E R (get >>= fun s => f s.depth) (get >>= fun s => g s.depth)

/-- A rule against itself, where there is no answer to compare. -/
abbrev SelfLockstep (E : Entry → Entry → Prop) (m : Transition) : Prop :=
  Lockstep E (fun _ _ => True) m m

namespace Lockstep

variable {E : Entry → Entry → Prop} {α β : Type} {R : α → β → Prop}

/-- A check that the two runs pass or fail together. -/
theorem check {m : Step Stack α} {n : Step Stack β} {c c' : Prop} [Decidable c] [Decidable c']
    {e e' : Rejection} (hc : c ↔ c') (h : Lockstep E R m n) :
    Lockstep E R (if c then m else throw e) (if c' then n else throw e') := by
  by_cases hpass : c
  · rw [if_pos hpass, if_pos (hc.mp hpass)]
    exact h
  · rw [if_neg hpass, if_neg (hpass ∘ hc.mpr)]
    exact .refuse

/-- A check of types, which each of the two runs may pass or not. -/
theorem gate {m : Step Stack α} {n : Step Stack β} {c c' : Prop} [Decidable c] [Decidable c']
    {e e' : Rejection} (he : e.IsMismatch) (he' : e'.IsMismatch) (h : Lockstep E R m n) :
    Lockstep E R (if c then m else throw e) (if c' then n else throw e') := by
  by_cases hc : c
  · by_cases hc' : c'
    · rw [if_pos hc, if_pos hc']
      exact h
    · rw [if_pos hc, if_neg hc']
      exact .mismatch_right he' h
  · by_cases hc' : c'
    · rw [if_neg hc, if_pos hc']
      exact .mismatch_left he h
    · rw [if_neg hc, if_neg hc']
      exact .refuse

theorem discard {m : Step Stack α} {n : Step Stack β} (h : Lockstep E R m n) :
    Lockstep E (fun _ _ => True) (discard m : Step Stack Unit) (discard n : Step Stack Unit) := by
  rw [Step.discard_eq, Step.discard_eq]
  exact h.bind fun _ _ _ => .pure trivial

theorem forM {γ : Type} {f : γ → Transition} {xs : List γ} (h : ∀ x ∈ xs, SelfLockstep E (f x)) :
    SelfLockstep E (xs.forM f) := by
  induction xs with
  | nil => exact .pure trivial
  | cons x rest ih =>
    exact (h x List.mem_cons_self).bind fun _ _ _ =>
      ih fun y hy => h y (List.mem_cons_of_mem x hy)

/-- Two steps that do nothing but answer or find a mismatch. -/
theorem immediate {m n : Step Stack α}
    (hm : (∃ a, m = Pure.pure a) ∨ ∃ e : Rejection, e.IsMismatch ∧ m = throw e)
    (hn : (∃ a, n = Pure.pure a) ∨ ∃ e : Rejection, e.IsMismatch ∧ n = throw e) :
    Lockstep E (fun _ _ => True) m n := by
  rcases hm with ⟨a, rfl⟩ | ⟨e, he, rfl⟩
  · rcases hn with ⟨b, rfl⟩ | ⟨e', he', rfl⟩
    · exact .pure trivial
    · exact .mismatch_right (n := Pure.pure a) he' (.pure trivial)
  · rcases hn with ⟨b, rfl⟩ | ⟨e', -, rfl⟩
    · exact .mismatch_left (m := Pure.pure b) he (.pure trivial)
    · exact .refuse

end Lockstep

/-! ### Pushing and popping -/

theorem push_ok {op : Opcode} {e : Entry} {s s' : Stack} {u : Unit} :
    push op e s = .ok u s' ↔ s.depth < s.maxDepth ∧
      { s with entries := e :: s.entries, pushes := s.pushes + 1 } = s' := by
  unfold push Stack.push?
  by_cases hroom : s.depth < s.maxDepth
  · simp [hroom]
  · simp [hroom]

theorem pop_ok {op : Opcode} {e : Entry} {s s' : Stack} :
    pop op s = .ok e s' ↔ ∃ rest, s.entries = e :: rest ∧
      { s with entries := rest, pops := s.pops + 1 } = s' := by
  unfold pop Stack.pop?
  cases hentries : s.entries with
  | nil => simp
  | cons first rest =>
    constructor
    · intro h
      cases h
      exact ⟨rest, rfl, rfl⟩
    · rintro ⟨rest', h, rfl⟩
      cases h
      rfl

variable {E : Entry → Entry → Prop}

theorem isMismatch_typeMismatch {op : Opcode} {expected found : String} :
    (Rejection.violation (.typeMismatch op expected found)).IsMismatch :=
  ⟨op, expected, found, rfl⟩

theorem lockstep_requireAssignable {op : Opcode} {e e' : Entry} {t t' : Ty} :
    Lockstep E (fun _ _ => True) (requireAssignable op e t) (requireAssignable op e' t') :=
  .gate isMismatch_typeMismatch isMismatch_typeMismatch (.pure trivial)

theorem lockstep_popAssignable {op : Opcode} {t : Ty} : SelfLockstep E (popAssignable op t) :=
  Lockstep.pop.bind fun _ _ _ => lockstep_requireAssignable

theorem lockstep_popArguments {op : Opcode} {parameters : List Ty} :
    SelfLockstep E (popArguments op parameters) :=
  .forM fun _ _ => lockstep_popAssignable

theorem lockstep_popInstance {op : Opcode} {t : Ty} {byValue : Bool} :
    SelfLockstep E (popInstance op t byValue) :=
  Lockstep.pop.bind fun _ _ _ =>
    .gate isMismatch_typeMismatch isMismatch_typeMismatch (.pure trivial)

/-- What is known of the element type may differ between the runs. -/
theorem lockstep_popArray {op : Opcode} :
    Lockstep E (fun _ _ => True) (popArray op) (popArray op) := by
  refine Lockstep.pop.bind fun e e' _ => .immediate ?_ ?_
  all_goals
    split
    · exact Or.inl ⟨_, rfl⟩
    · split
      · exact Or.inl ⟨_, rfl⟩
      · exact Or.inr ⟨_, isMismatch_typeMismatch, rfl⟩

/-! ### Rules -/

section Rules

variable (fair : Entry.Fair E)
include fair

theorem lockstep_popOf {op : Opcode} {expected : DataTypeSet} :
    Lockstep E E (popOf op expected) (popOf op expected) :=
  Lockstep.pop.bind fun _ _ h => .check (by rw [fair.tag h]) (.pure h)

theorem lockstep_pushType {op : Opcode} {t t' : Ty} (h : t.stackType = t'.stackType) :
    Lockstep E (fun _ _ => True) (pushType op t) (pushType op t') :=
  .push (fair.of h)

/-- A data type that has a primitive type is pushed as a value of that type. -/
theorem related_ofDataType {d : DataType} (h : (Ty.ofDataType? d).isSome) :
    E (.ofDataType d) (.ofDataType d) := by
  obtain ⟨t, ht⟩ := Option.isSome_iff_exists.mp h
  have hof : Entry.ofDataType d = .of t := by
    have htag : d.stackType = t.stackType := by
      cases d <;> cases ht <;> rfl
    rw [Entry.ofDataType, Entry.of, ht, htag]
  rw [hof]
  exact fair.of rfl

omit fair in
theorem lockstep_popMany {op : Opcode} (n : Nat) :
    Lockstep E (Forall₂ E) (popMany op n) (popMany op n) := by
  induction n with
  | zero => exact .pure .nil
  | succ n ih =>
    refine Lockstep.pop.bind fun e e' h => ih.bind fun es es' hs => .pure ?_
    exact List.rel_append hs (.cons h .nil)

theorem map_tag_eq {es es' : List Entry} (h : Forall₂ E es es') :
    es.map Entry.tag = es'.map Entry.tag := by
  induction h with
  | nil => rfl
  | cons he _ ih => rw [List.map_cons, List.map_cons, fair.tag he, ih]

/-- Operands that are related leave a related entry. -/
theorem related_arithmeticEntry {a : Arithmetic} {es es' : List Entry} {result : DataType}
    (h : Forall₂ E es es') (hresult : a.result? (es.map Entry.tag) = some result) :
    E (arithmeticEntry result es) (arithmeticEntry result es') := by
  have hfind : ∀ {es es' : List Entry}, Forall₂ E es es' →
      (es.find? (fun e => result.isPointer && e.tag = result) = none ∧
        es'.find? (fun e => result.isPointer && e.tag = result) = none) ∨
      ∃ e e', es.find? (fun e => result.isPointer && e.tag = result) = some e ∧
        es'.find? (fun e => result.isPointer && e.tag = result) = some e' ∧ E e e' := by
    intro es es' h
    induction h with
    | nil => exact Or.inl ⟨rfl, rfl⟩
    | @cons e e' _ _ he _ ih =>
      rw [List.find?_cons, List.find?_cons, ← fair.tag he]
      cases result.isPointer && decide (e.tag = result) with
      | true => exact Or.inr ⟨e, e', rfl, rfl, he⟩
      | false => exact ih
  unfold arithmeticEntry
  rcases hfind h with ⟨hnone, hnone'⟩ | ⟨e, e', hsome, hsome', he⟩
  · rw [hnone, hnone']
    refine related_ofDataType fair ?_
    rcases Arithmetic.result?_cases hresult with hsome | ⟨hpointer, hmem⟩
    · exact hsome
    · obtain ⟨e, he, htag⟩ := List.mem_map.mp hmem
      have := List.find?_eq_none.mp hnone e he
      simp [hpointer, htag] at this
  · rw [hsome, hsome']
    exact he

theorem lockstep_arithmetic {op : Opcode} {a : Arithmetic} : SelfLockstep E (arithmetic op a) := by
  refine (lockstep_popMany a.arity).bind fun es es' h => ?_
  rw [← map_tag_eq fair h]
  cases hresult : a.result? (es.map Entry.tag) with
  | some result => exact .push (related_arithmeticEntry fair h hresult)
  | none => exact .refuse

theorem lockstep_comparison {op : Opcode} {c : Comparison} : SelfLockstep E (comparison op c) :=
  Lockstep.pop.bind fun _ _ hright => Lockstep.pop.bind fun _ _ hleft =>
    .check (by rw [fair.tag hleft, fair.tag hright]) (lockstep_pushType fair rfl)

theorem lockstep_conversion {op : Opcode} {target : DataType} :
    SelfLockstep E (conversion op target) := by
  refine Lockstep.pop.bind fun e e' h => ?_
  rw [← fair.tag h]
  cases hconversion : Conversion.between? e.tag target with
  | none => exact .refuse
  | some c =>
    refine .push (related_ofDataType fair ?_)
    have hnumeric : target.isNumeric = true := by
      cases hnumeric : target.isNumeric with
      | true => rfl
      | false => simp [Conversion.between?, hnumeric] at hconversion
    clear hconversion
    cases target <;> first | rfl | exact absurd hnumeric (by decide)

theorem lockstep_constant {op : Opcode} {c : Constant} (hnull : c = .null → E .null .null) :
    SelfLockstep E (constant op c) := by
  cases c with
  | null => exact .push (hnull rfl)
  | _ => exact lockstep_pushType fair rfl

theorem lockstep_branch {op : Opcode} {kind : BranchKind} : SelfLockstep E (branch op kind) := by
  cases kind with
  | always => exact .pure trivial
  | leave => exact .clear
  | boolean branchIf => exact .discard (lockstep_popOf fair)
  | comparison c => exact (Lockstep.discard .pop).bind fun _ _ _ => .discard .pop
  | table => exact .discard (lockstep_popOf fair)

theorem lockstep_slot {f : Frame} {op : Opcode} {access : Access} {kind : VariableKind}
    {index : Int} : SelfLockstep E (slot f op access kind index) := by
  unfold slot
  cases variableType? f kind index with
  | none => exact .refuse
  | some t =>
    cases access with
    | load => exact lockstep_pushType fair rfl
    | address => exact lockstep_pushType fair rfl
    | store => exact lockstep_popAssignable

omit fair in
/-- A step that stands before others under a condition. -/
theorem Lockstep.optional {c : Prop} [Decidable c] {m : Transition} {rest : Unit → Transition}
    (hm : SelfLockstep E m) (hrest : SelfLockstep E (rest ())) :
    SelfLockstep E (if c then m >>= rest else rest ()) := by
  split
  · exact hm.bind fun _ _ _ => hrest
  · exact hrest

theorem lockstep_fieldAccess {f : Frame} {op : Opcode} {access : Access} {static : Bool}
    {field : Field} : SelfLockstep E (fieldAccess f op access static field) := by
  unfold fieldAccess
  refine .optional .refuse ?_
  refine .optional .refuse ?_
  refine .optional lockstep_popAssignable ?_
  refine .optional lockstep_popInstance ?_
  cases access with
  | load => exact lockstep_pushType fair rfl
  | address => exact lockstep_pushType fair rfl
  | store => exact .pure trivial

omit fair in
/-- What is found in an element or behind a pointer does not change the stack type of the access. -/
theorem stackType_resolve (r : Referent) (actual actual' : Option Ty) :
    (r.resolve actual).stackType = (r.resolve actual').stackType := by
  have hobject : ∀ actual : Option Ty,
      ((actual.filter Ty.isReference).getD .object).stackType = .object := by
    intro actual
    cases hfilter : actual.filter Ty.isReference with
    | none => rfl
    | some t =>
      have href : t.dataType = .object :=
        of_decide_eq_true (Option.filter_eq_some_iff.mp hfilter).2
      rw [Option.getD_some, Ty.stackType, href]
      rfl
  cases r with
  | type t => rfl
  | data d =>
    cases d with
    | object => exact (hobject actual).trans (hobject actual').symm
    | _ => rfl

omit fair in
theorem stackType_pointer (t t' : Ty) (mutable : Bool) :
    (Ty.pointer t mutable).stackType = (Ty.pointer t' mutable).stackType := by
  cases mutable <;> rfl

theorem lockstep_popElement {op : Opcode} {r : Referent} :
    Lockstep E (fun t t' => t.stackType = t'.stackType) (popElement op r) (popElement op r) := by
  refine (Lockstep.discard (lockstep_popOf fair)).bind fun _ _ _ => ?_
  refine lockstep_popArray.bind fun actual actual' _ => ?_
  have hpure : Lockstep E (fun t t' => t.stackType = t'.stackType)
      (pure (r.resolve actual)) (pure (r.resolve actual')) :=
    .pure (stackType_resolve r actual actual')
  cases actual with
  | none =>
    cases actual' with
    | none => exact hpure
    | some t' =>
      unfold elementType
      dsimp only
      split
      · exact hpure
      · exact .mismatch_right isMismatch_typeMismatch hpure
  | some t =>
    cases actual' with
    | none =>
      unfold elementType
      dsimp only
      split
      · exact hpure
      · exact .mismatch_left isMismatch_typeMismatch hpure
    | some t' => exact .gate isMismatch_typeMismatch isMismatch_typeMismatch hpure

theorem lockstep_element {f : Frame} {op : Opcode} {access : Access} {r : Referent} :
    SelfLockstep E (element f op access r) := by
  cases access with
  | load => exact (lockstep_popElement fair).bind fun _ _ h => lockstep_pushType fair h
  | address => exact (lockstep_popElement fair).bind fun t t' _ =>
      lockstep_pushType fair (stackType_pointer t t' _)
  | store =>
    exact Lockstep.pop.bind fun _ _ _ => (lockstep_popElement fair).bind fun _ _ _ =>
      lockstep_requireAssignable

theorem lockstep_popReferent {op : Opcode} {expected : DataTypeSet} {r : Referent} :
    Lockstep E (fun t t' => t.stackType = t'.stackType) (popReferent op expected r)
      (popReferent op expected r) :=
  (lockstep_popOf fair).bind fun _ _ _ =>
    .gate isMismatch_typeMismatch isMismatch_typeMismatch (.pure (stackType_resolve r _ _))

theorem lockstep_indirect {op : Opcode} {access : Access} {r : Referent} :
    SelfLockstep E (indirect op access r) := by
  cases access with
  | store =>
    exact Lockstep.pop.bind fun _ _ _ => (lockstep_popReferent fair).bind fun _ _ _ =>
      lockstep_requireAssignable
  | _ => exact (lockstep_popReferent fair).bind fun _ _ h => lockstep_pushType fair h

omit fair in
theorem lockstep_requireEmpty {op : Opcode} : SelfLockstep E (requireEmpty op) := by
  have hdepth : requireEmpty op = get >>= fun s =>
      if s.depth = 0 then pure () else refuse (.nonEmptyStack op s.depth) := by
    unfold requireEmpty Stack.isEmpty Stack.depth
    simp only [List.isEmpty_iff_length_eq_zero]
  have hcheck : ∀ n, SelfLockstep E (if n = 0 then pure () else refuse (.nonEmptyStack op n)) :=
    fun n => .check Iff.rfl (.pure trivial)
  rw [hdepth]
  exact .depth hcheck

theorem lockstep_invoke {f : Frame} {op : Opcode} {kind : CallKind} {m : Method} :
    SelfLockstep E (invoke f op kind m) := by
  have hreceiver : SelfLockstep E (popReceiver f op m) := by
    unfold popReceiver
    split
    · exact .pure trivial
    · split
      · exact .discard (lockstep_popOf fair)
      · exact lockstep_popInstance
  have hresult : SelfLockstep E (pushResult op m) := by
    unfold pushResult
    cases m.returnType with
    | none => exact .pure trivial
    | some t => exact lockstep_pushType fair rfl
  have hcall : SelfLockstep E (do popArguments op m.parameters; popReceiver f op m; pushResult op m) :=
    lockstep_popArguments.bind fun _ _ _ => hreceiver.bind fun _ _ _ => hresult
  unfold invoke
  refine .optional .refuse ?_
  cases kind with
  | jump => exact lockstep_requireEmpty
  | loadFunction => exact lockstep_pushType fair rfl
  | loadVirtualFunction => exact lockstep_popInstance.bind fun _ _ _ => lockstep_pushType fair rfl
  | newObject =>
    refine .optional .refuse ?_
    exact lockstep_popArguments.bind fun _ _ _ => lockstep_pushType fair rfl
  | _ => exact .optional (.discard (lockstep_popOf fair)) hcall

theorem lockstep_cast {op : Opcode} {kind : CastKind} {t : Ty} :
    SelfLockstep E (cast op kind t) := by
  cases kind with
  | box => exact lockstep_popAssignable.bind fun _ _ _ => lockstep_pushType fair rfl
  | _ => exact (Lockstep.discard (lockstep_popOf fair)).bind fun _ _ _ => lockstep_pushType fair rfl

omit fair in
theorem lockstep_ret {f : Frame} {op : Opcode} : SelfLockstep E (ret f op) := by
  unfold ret
  cases f.method.returnType with
  | none =>
    have hcheck : ∀ depth, SelfLockstep E
        (if depth ≠ 0 then refuse (.returnMismatch op "void" depth) else pure ()) := by
      intro depth
      split
      · exact .refuse
      · exact .pure trivial
    exact .depth hcheck
  | some t =>
    have hcheck : ∀ depth, SelfLockstep E
        (if depth ≠ 1 then refuse (.returnMismatch op t.name depth) else popAssignable op t) := by
      intro depth
      split
      · exact .refuse
      · exact lockstep_popAssignable
    exact .depth hcheck

theorem lockstep_simple {f : Frame} {op : Opcode} {transition : Transition}
    (h : simple f op = some transition) : SelfLockstep E transition := by
  have hpop : ∀ {expected : DataTypeSet} {rest : Transition}, SelfLockstep E rest →
      SelfLockstep E (do discard (popOf op expected); rest) :=
    fun hrest => (Lockstep.discard (lockstep_popOf fair)).bind fun _ _ _ => hrest
  unfold simple at h
  split at h <;> cases h
  · exact .pure trivial
  · exact .pure trivial
  · exact .pure trivial
  · exact Lockstep.pop.bind fun _ _ h => (Lockstep.push h).bind fun _ _ _ => .push h
  · exact .discard .pop
  · exact lockstep_ret
  · exact .discard (lockstep_popOf fair)
  · exact (Lockstep.discard lockstep_popArray).bind fun _ _ _ => lockstep_pushType fair rfl
  · exact (lockstep_popOf fair).bind fun _ _ h => .push h
  · exact .clear
  · exact hpop lockstep_requireEmpty
  · exact lockstep_pushType fair rfl
  · exact hpop (lockstep_pushType fair rfl)
  · exact hpop (hpop (.discard (lockstep_popOf fair)))
  · exact hpop (hpop (.discard (lockstep_popOf fair)))
  · exact lockstep_popAssignable.bind fun _ _ _ => lockstep_pushType fair rfl

theorem lockstep_simpleType {op : Opcode} {t : Ty} {transition : Transition}
    (h : simpleType op t = some transition) : SelfLockstep E transition := by
  unfold simpleType at h
  split at h <;> cases h
  · exact lockstep_popAssignable.bind fun _ _ _ => lockstep_popAssignable
  · exact lockstep_popAssignable
  · exact (Lockstep.discard (lockstep_popOf fair)).bind fun _ _ _ => lockstep_pushType fair rfl
  · exact lockstep_pushType fair rfl
  · exact lockstep_popAssignable.bind fun _ _ _ => lockstep_pushType fair rfl
  · exact lockstep_popAssignable.bind fun _ _ _ => lockstep_pushType fair rfl

omit fair in
/-- Only `ldnull` pushes a null reference. -/
theorem eq_ldnull_of_constant {op : Opcode} (h : op.category = .constant .null) : op = .ldnull := by
  cases op <;> first | rfl | exact nomatch h

/-- **Every rule runs in lockstep with itself.** -/
theorem lockstep_rule {c : Call} {f : Frame} {transition : Transition}
    (hnull : ∀ x, c = .emit .ldnull x → E .null .null) (h : c.rule? f = some transition) :
    SelfLockstep E transition := by
  cases c with
  | emit op x =>
    change ofNumber op x f = some transition at h
    unfold ofNumber at h
    split at h
    · cases h
      exact lockstep_arithmetic fair
    · cases h
      exact lockstep_comparison fair
    · cases h
      exact lockstep_conversion fair
    · cases h
      exact lockstep_slot fair
    · next hconstant =>
      cases h
      refine lockstep_constant fair fun hc => hnull x ?_
      rw [hc] at hconstant
      rw [eq_ldnull_of_constant hconstant]
    · cases h
      exact lockstep_element fair
    · cases h
      exact lockstep_indirect fair
    · cases h
      exact .pure trivial
    · exact lockstep_simple fair h
    · exact nomatch h
  | branch op target =>
    change ofTarget op f = some transition at h
    unfold ofTarget at h
    split at h <;> cases h
    exact lockstep_branch fair
  | switch targets =>
    cases h
    exact lockstep_branch fair
  | invoke op m =>
    change ofMethod op m f = some transition at h
    unfold ofMethod at h
    split at h <;> cases h
    exact lockstep_invoke fair
  | field op member =>
    change ofField op member f = some transition at h
    unfold ofField at h
    split at h <;> cases h
    exact lockstep_fieldAccess fair
  | type op t =>
    change ofType op t f = some transition at h
    unfold ofType at h
    split at h
    · cases h
      exact lockstep_cast fair
    · cases h
      exact lockstep_element fair
    · cases h
      exact lockstep_indirect fair
    · exact lockstep_simpleType fair h
    · cases h
      exact .pure trivial
    · exact nomatch h
  | token op m =>
    cases m <;> cases h <;> exact lockstep_pushType fair rfl
  | string op value =>
    cases h
    exact lockstep_constant fair nofun
  | declareLocal t name => exact nomatch h
  | createLabel name => exact nomatch h
  | markLabel index => exact nomatch h
  | finish => exact nomatch h

end Rules

end Transition

/-! ### What follows -/

/-- Two stacks with the same bound, the same depth and the same entries in the `n` topmost places. -/
structure Stack.Agrees (n : Nat) (s t : Stack) : Prop where
  maxDepth_eq : s.maxDepth = t.maxDepth
  depth_eq : s.depth = t.depth
  getElem?_eq : ∀ i < n, s.entries[i]? = t.entries[i]?

/-- A stack that has the given bound, does not exceed it, and holds only entries that are related to
themselves. -/
structure Stack.Within (E : Entry → Entry → Prop) (bound : Nat) (s : Stack) : Prop where
  maxDepth_eq : s.maxDepth = bound
  depth_le : s.depth ≤ bound
  related : ∀ e ∈ s.entries, E e e

namespace Transition

namespace Lockstep

variable {E : Entry → Entry → Prop} {α β : Type} {R : α → β → Prop} {m : Step Stack α}
  {n : Step Stack β}

/-- Related stacks stay related, as long as neither run is refused. -/
theorem related_ok (h : Lockstep E R m n) {s s' t t' : Stack} {a : α} {b : β}
    (hst : Forall₂ E s.entries t.entries) (hm : m s = .ok a s') (hn : n t = .ok b t') :
    Forall₂ E s'.entries t'.entries ∧ R a b := by
  induction h generalizing s s' t t' with
  | pure hab =>
    obtain ⟨rfl, rfl⟩ := Step.pure_ok.mp hm
    obtain ⟨rfl, rfl⟩ := Step.pure_ok.mp hn
    exact ⟨hst, hab⟩
  | mismatch_left => exact (Step.throw_ok.mp hm).elim
  | mismatch_right => exact (Step.throw_ok.mp hn).elim
  | refuse => exact (Step.throw_ok.mp hm).elim
  | bind _ _ ih ihfg =>
    obtain ⟨a₁, s₁, hm, hf⟩ := Step.bind_ok.mp hm
    obtain ⟨b₁, t₁, hn, hg⟩ := Step.bind_ok.mp hn
    obtain ⟨hst₁, hab₁⟩ := ih hst hm hn
    exact ihfg a₁ b₁ hab₁ hst₁ hf hg
  | push he =>
    obtain ⟨-, rfl⟩ := push_ok.mp hm
    obtain ⟨-, rfl⟩ := push_ok.mp hn
    exact ⟨.cons he hst, trivial⟩
  | pop =>
    obtain ⟨es, hs, rfl⟩ := pop_ok.mp hm
    obtain ⟨fs, ht, rfl⟩ := pop_ok.mp hn
    rw [hs, ht, List.forall₂_cons] at hst
    exact ⟨hst.2, hst.1⟩
  | clear =>
    obtain rfl := Step.modify_ok.mp hm
    obtain rfl := Step.modify_ok.mp hn
    exact ⟨.nil, trivial⟩
  | depth _ ih =>
    rw [Step.get_bind] at hm hn
    have hdepth : t.depth = s.depth := hst.length_eq.symm
    rw [hdepth] at hn
    exact ih s.depth hst hm hn

/-- Whether or not it is refused, no step of a lockstep leaves more on the stack than fits. -/
theorem keeps_within (h : Lockstep E R m n) (hleft : ∀ e e', E e e' → E e e) (bound : Nat) :
    Step.Keeps (Stack.Within E bound) (fun a => ∃ b, R a b) m := by
  induction h with
  | pure hab => exact Step.keeps_pure ⟨_, hab⟩
  | mismatch_left => exact Step.keeps_throw
  | mismatch_right _ _ ih => exact ih
  | refuse => exact Step.keeps_throw
  | bind _ _ ih ihfg => exact Step.keeps_bind ih fun a ⟨b, hab⟩ => ihfg a b hab
  | @push op e e' he =>
    intro s hs
    unfold Transition.push Stack.push?
    by_cases hroom : s.depth < s.maxDepth
    · rw [if_pos hroom]
      refine ⟨⟨hs.maxDepth_eq, hs.maxDepth_eq ▸ hroom, ?_⟩, (), trivial⟩
      intro e₁ hmem
      rcases List.mem_cons.mp hmem with rfl | hmem
      · exact hleft _ _ he
      · exact hs.related e₁ hmem
    · rw [if_neg hroom]
      exact hs
  | pop =>
    intro s hs
    unfold Transition.pop Stack.pop?
    cases hentries : s.entries with
    | nil => exact hs
    | cons e rest =>
      have hdepth : rest.length + 1 ≤ bound := by
        have := hs.depth_le
        rwa [Stack.depth, hentries] at this
      have hrelated : ∀ e₁ ∈ e :: rest, E e₁ e₁ := hentries ▸ hs.related
      exact ⟨⟨hs.maxDepth_eq, Nat.le_of_succ_le hdepth,
        fun e₁ hmem => hrelated e₁ (List.mem_cons_of_mem e hmem)⟩, e, hrelated e List.mem_cons_self⟩
  | clear =>
    refine Step.keeps_modify ⟨(), trivial⟩ fun s hs => ?_
    exact ⟨hs.maxDepth_eq, Nat.zero_le bound, fun e hmem => absurd hmem List.not_mem_nil⟩
  | depth _ ih => exact Step.keeps_bind Step.keeps_get fun s _ => ih s.depth

/-- If one run succeeds, so does the other, unless it finds a mismatch. -/
theorem ok_or_mismatch (h : Lockstep E R m n) {s s' t : Stack} {a : α}
    (hst : Forall₂ E s.entries t.entries) (hmax : s.maxDepth = t.maxDepth) (hm : m s = .ok a s') :
    (∃ b t', n t = .ok b t' ∧ s'.maxDepth = t'.maxDepth) ∨
      ∃ e t', n t = .error e t' ∧ e.IsMismatch := by
  induction h generalizing s s' t with
  | pure _ =>
    obtain ⟨-, rfl⟩ := Step.pure_ok.mp hm
    exact Or.inl ⟨_, t, rfl, hmax⟩
  | mismatch_left => exact (Step.throw_ok.mp hm).elim
  | mismatch_right he => exact Or.inr ⟨_, t, rfl, he⟩
  | refuse => exact (Step.throw_ok.mp hm).elim
  | bind h _ ih ihfg =>
    obtain ⟨a₁, s₁, hm, hf⟩ := Step.bind_ok.mp hm
    rcases ih hst hmax hm with ⟨b₁, t₁, hn, hmax₁⟩ | ⟨e, t₁, hn, he⟩
    · obtain ⟨hst₁, hab₁⟩ := h.related_ok hst hm hn
      rw [Step.bind_of_ok hn]
      exact ihfg a₁ b₁ hab₁ hst₁ hmax₁ hf
    · exact Or.inr ⟨e, t₁, Step.bind_of_error hn, he⟩
  | push _ =>
    obtain ⟨hroom, rfl⟩ := push_ok.mp hm
    have hdepth : s.depth = t.depth := hst.length_eq
    exact Or.inl ⟨(), _, push_ok.mpr ⟨hdepth ▸ hmax ▸ hroom, rfl⟩, hmax⟩
  | pop =>
    obtain ⟨es, hs, rfl⟩ := pop_ok.mp hm
    rw [hs] at hst
    obtain ⟨e', es', -, -, ht⟩ := List.forall₂_cons_left_iff.mp hst
    exact Or.inl ⟨e', _, pop_ok.mpr ⟨es', ht, rfl⟩, hmax⟩
  | clear =>
    obtain rfl := Step.modify_ok.mp hm
    exact Or.inl ⟨(), _, Step.modify_ok.mpr rfl, hmax⟩
  | depth _ ih =>
    rw [Step.get_bind] at hm
    have hdepth : t.depth = s.depth := hst.length_eq.symm
    rw [Step.get_bind, hdepth]
    exact ih s.depth hst hmax hm

/-- A run that succeeds has looked at nothing but the depth and the entries it popped. -/
theorem ok_of_agrees (h : Lockstep E R m n) (hE : ∀ e, E e e) {s s' : Stack} {a : α}
    (hm : m s = .ok a s') :
    (∃ b, R a b) ∧ s.pops ≤ s'.pops ∧ ∀ (k : Nat) (t : Stack), s.Agrees (k + (s'.pops - s.pops)) t →
      ∃ t', m t = .ok a t' ∧ s'.Agrees k t' := by
  induction h generalizing s s' with
  | pure hab =>
    obtain ⟨rfl, rfl⟩ := Step.pure_ok.mp hm
    refine ⟨⟨_, hab⟩, Nat.le_refl _, fun k t hst => ⟨t, rfl, ?_⟩⟩
    simpa using hst
  | mismatch_left => exact (Step.throw_ok.mp hm).elim
  | mismatch_right _ _ ih => exact ih hm
  | refuse => exact (Step.throw_ok.mp hm).elim
  | bind _ _ ih ihfg =>
    obtain ⟨a₁, s₁, hm, hf⟩ := Step.bind_ok.mp hm
    obtain ⟨⟨b₁, hab₁⟩, hpops, hsame⟩ := ih hm
    obtain ⟨hb, hpops', hsame'⟩ := ihfg a₁ b₁ hab₁ hf
    refine ⟨hb, Nat.le_trans hpops hpops', fun k t hst => ?_⟩
    -- What the second step pops has to agree once the first is over.
    have hsplit : k + (s'.pops - s.pops) = k + (s'.pops - s₁.pops) + (s₁.pops - s.pops) := by omega
    rw [hsplit] at hst
    obtain ⟨t₁, hm', hst₁⟩ := hsame _ t hst
    obtain ⟨t', hf', hst'⟩ := hsame' k t₁ hst₁
    exact ⟨t', Step.bind_ok.mpr ⟨a₁, t₁, hm', hf'⟩, hst'⟩
  | push _ =>
    obtain ⟨hroom, rfl⟩ := push_ok.mp hm
    refine ⟨⟨(), trivial⟩, Nat.le_refl _, fun k t hst => ?_⟩
    refine ⟨_, push_ok.mpr ⟨hst.depth_eq ▸ hst.maxDepth_eq ▸ hroom, rfl⟩, ?_⟩
    refine ⟨hst.maxDepth_eq, congrArg (· + 1) hst.depth_eq, fun i hi => ?_⟩
    cases i with
    | zero => rfl
    | succ i => exact hst.getElem?_eq i (by omega)
  | @pop op =>
    obtain ⟨es, hs, rfl⟩ := pop_ok.mp hm
    refine ⟨⟨a, hE a⟩, Nat.le_succ _, fun k t hst => ?_⟩
    dsimp only at hst
    have htop := hst.getElem?_eq 0 (by omega)
    have hdepth := hst.depth_eq
    unfold Stack.depth at hdepth
    rw [hs] at htop hdepth
    cases ht : t.entries with
    | nil => simp [ht] at hdepth
    | cons e es' =>
      rw [ht] at htop hdepth
      cases htop
      refine ⟨_, pop_ok.mpr ⟨es', ht, rfl⟩, hst.maxDepth_eq, Nat.succ.inj hdepth, fun i hi => ?_⟩
      have hnext := hst.getElem?_eq (i + 1) (by omega)
      rwa [hs, ht] at hnext
  | clear =>
    obtain rfl := Step.modify_ok.mp hm
    refine ⟨⟨(), trivial⟩, Nat.le_add_right _ _, fun k t hst => ?_⟩
    exact ⟨_, Step.modify_ok.mpr rfl, hst.maxDepth_eq, rfl, fun _ _ => rfl⟩
  | depth _ ih =>
    rw [Step.get_bind] at hm
    obtain ⟨hb, hpops, hsame⟩ := ih s.depth hm
    refine ⟨hb, hpops, fun k t hst => ?_⟩
    rw [Step.get_bind, ← hst.depth_eq]
    exact hsame k t hst

end Lockstep

end Transition

end Cil
