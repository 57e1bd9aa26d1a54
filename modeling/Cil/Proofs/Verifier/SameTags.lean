/-
What an instruction does to tags depends on tags alone.

Some rules take the type of what they push from a value that they pop: an element, or what a pointer
leads to, is pushed with the type that was found there, and `dup` and pointer arithmetic push what they
popped.  So two states whose stacks differ in types may go on to differ in types.  `SameTags` says that
they differ in nothing else that a rule can see, and an instruction that both accept keeps it
(`SameTags.instruction`).  A label that the instruction branches to then holds the same tags in both
states, whichever of them reached it first.

The two states may have different labels, bounds and receivers, and prefixes may wait in them in a
different order: a rule asks whether a prefix stands before its instruction, and never where
(`Call.rule?_of_mem_iff`).
-/
import Cil.Proofs.Verifier.Paths

namespace Cil

/-! ### What a rule sees of the prefixes -/

section Prefixes

variable {m : Method} {locals : Array (Ty × String)} {ps qs : List Prefix}
  (h : ∀ p, p ∈ ps ↔ p ∈ qs)
include h

theorem Transition.element_of_mem_iff (op : Opcode) (access : Access) (r : Referent) :
    element ⟨m, locals, ps⟩ op access r = element ⟨m, locals, qs⟩ op access r := by
  unfold element
  simp only [h]

theorem Transition.invoke_of_mem_iff (op : Opcode) (kind : CallKind) (callee : Method) :
    invoke ⟨m, locals, ps⟩ op kind callee = invoke ⟨m, locals, qs⟩ op kind callee := by
  have hreceiver : popReceiver ⟨m, locals, ps⟩ op callee = popReceiver ⟨m, locals, qs⟩ op callee := by
    unfold popReceiver
    simp only [h]
  unfold invoke
  rw [hreceiver]

/-- The rule for an instruction depends on which prefixes stand before it and not on their order. -/
theorem Call.rule?_of_mem_iff (c : Call) : c.rule? ⟨m, locals, ps⟩ = c.rule? ⟨m, locals, qs⟩ := by
  cases c with
  | emit op x =>
    show Transition.ofNumber op x _ = Transition.ofNumber op x _
    unfold Transition.ofNumber
    simp only [Transition.element_of_mem_iff h]
    rfl
  | invoke op callee =>
    show Transition.ofMethod op callee _ = Transition.ofMethod op callee _
    unfold Transition.ofMethod
    simp only [Transition.invoke_of_mem_iff h]
  | type op t =>
    show Transition.ofType op t _ = Transition.ofType op t _
    unfold Transition.ofType
    simp only [Transition.element_of_mem_iff h]
  | _ => rfl

theorem Opcode.mem_pendingPrefixes_iff (op : Opcode) (p : Prefix) :
    p ∈ op.pendingPrefixes ps ↔ p ∈ op.pendingPrefixes qs := by
  unfold pendingPrefixes
  cases op.category with
  | prefixOp q => rw [List.mem_cons, List.mem_cons, h]
  | _ => exact Iff.rfl

end Prefixes

/-! ### States with the same tags -/

namespace Checker

/-- The states look the same to a rule, except that the values on their stacks may be made from
different types. -/
structure SameTags (k k' : Checker) : Prop where
  method : k.subject.method = k'.subject.method
  locals : k.locals = k'.locals
  pending : ∀ p, p ∈ k.pending ↔ p ∈ k'.pending
  reachable : k.reachable = k'.reachable
  tags : k.stack.tags = k'.stack.tags

variable {k k' k₁ k₁' : Checker} {c : Call} {op : Opcode}

/-- An instruction is taken up with the same tags, be it after one that control leaves at its end or
not. -/
theorem SameTags.tags_entryStack (h : k.SameTags k') : k.entryStack.tags = k'.entryStack.tags := by
  cases hreach : k.reachable with
  | true =>
    have hreach' : k'.reachable = true := h.reachable ▸ hreach
    rw [Checker.tags_entryStack hreach, Checker.tags_entryStack hreach', h.tags]
  | false =>
    have hreach' : k'.reachable = false := h.reachable ▸ hreach
    simp [entryStack, enter, hreach, hreach', Stack.tags, Stack.restore, Stack.resetCounts]

theorem SameTags.rule?_eq (h : k.SameTags k') (hop : c.opcode? = some op) :
    c.rule? (k.frame (op.activePrefixes k.pending))
      = c.rule? (k'.frame (op.activePrefixes k'.pending)) := by
  unfold frame
  rw [Call.rule?_activePrefixes hop, Call.rule?_activePrefixes hop, h.method, h.locals,
    Call.rule?_of_mem_iff h.pending]

/-- Two states with the same tags still have the same tags after an instruction that both accept. -/
theorem SameTags.instruction (h : k.SameTags k') (hop : c.opcode? = some op)
    (hok : Checker.instruction op c.rule? c.targets k = .ok () k₁)
    (hok' : Checker.instruction op c.rule? c.targets k' = .ok () k₁') : k₁.SameTags k₁' := by
  obtain ⟨-, transition, s, t, hrule, hs, -, rfl⟩ := instruction_ok.mp hok
  obtain ⟨-, transition', s', t', hrule', hs', -, rfl⟩ := instruction_ok.mp hok'
  -- It is one rule that runs on both stacks.
  rw [← h.rule?_eq hop, hrule, Option.some.injEq] at hrule'
  subst hrule'
  exact {
    method := h.method
    locals := h.locals
    pending := op.mem_pendingPrefixes_iff h.pending
    reachable := rfl
    tags := Transition.tags_eq_of_rule hrule h.tags_entryStack hs hs' }

/-- The targets of an accepted instruction hold the tags that it leaves. -/
theorem holds_of_instruction (hok : Checker.instruction op c.rule? c.targets k = .ok () k₁) :
    ∀ target ∈ c.targets, k₁.labels.Holds target k₁.stack.tags := by
  obtain ⟨-, transition, s, t, -, -, hreach, rfl⟩ := instruction_ok.mp hok
  exact fun target hmem => (LabelTable.holds_of_reachEach hreach target hmem).1

end Checker

/-- **What an instruction does to tags depends on tags alone.**  Take two verifiers that check the same
method and have the same locals, the same prefixes waiting, the same answer to whether control gets
there and the same tags on their stacks, place by place.  After an instruction that both accept, all of
that is the same again, and every label that the instruction may branch to has in both of them a
snapshot with the tags that are left. -/
theorem Verifier.sameTags_of_step {δ δ' : Type} [Sink δ] [Sink δ'] {v v₁ : Verifier δ}
    {v' v₁' : Verifier δ'} {c : Call} {op : Opcode} {reply reply' : Option Nat}
    (h : v.checker.SameTags v'.checker) (hop : c.opcode? = some op)
    (hok : Sink.step c v = .ok reply v₁) (hok' : Sink.step c v' = .ok reply' v₁') :
    v₁.checker.SameTags v₁'.checker ∧
      ∀ target ∈ c.targets, v₁.checker.labels.Holds target v₁.checker.stack.tags ∧
        v₁'.checker.labels.Holds target v₁.checker.stack.tags := by
  have hinstruction := instruction_of_step hop hok
  have hinstruction' := instruction_of_step hop hok'
  have hsame := h.instruction hop hinstruction hinstruction'
  refine ⟨hsame, fun target hmem => ⟨Checker.holds_of_instruction hinstruction target hmem, ?_⟩⟩
  rw [hsame.tags]
  exact Checker.holds_of_instruction hinstruction' target hmem

/-! ### Two ways to a reference -/

/-- A method that is given the address of a string and that of an object. -/
def referencesSubject : Subject where
  method := { name := "Load", declaringType := .object, returnType := none, isStatic := true,
              parameters := [.pointer .string true, .pointer .object true] }

/-- Takes the first address twice, with two prefixes for the instruction that is to come. -/
def addressOfString : List Call :=
  [.createLabel "next", .emit .ldarg0 .none, .emit .ldarg0 .none, .emit .unaligned (.int32 1),
    .emit .volatile .none]

/-- Takes the second address twice, with the same prefixes the other way round. -/
def addressOfObject : List Call :=
  [.createLabel "next", .emit .ldarg1 .none, .emit .ldarg1 .none, .emit .volatile .none,
    .emit .unaligned (.int32 1)]

/-- The two ways lead to states with the same tags. -/
theorem Checker.sameTags_addresses {v v' : Verifier Discard}
    (hv : Sink.run addressOfString (Verifier.start referencesSubject {}) = some v)
    (hv' : Sink.run addressOfObject (Verifier.start referencesSubject {}) = some v') :
    v.checker.SameTags v'.checker := by
  have htracked := Verifier.tracked_run (tracked_start referencesSubject) hv
  have htracked' := Verifier.tracked_run (tracked_start referencesSubject) hv'
  have hstate : (Sink.run addressOfString (Verifier.start referencesSubject ({} : Discard))).map
      (fun v => (v.checker.reachable, v.checker.stack.tags)) = some (true, [.pointer, .pointer]) := by
    decide +kernel
  have hstate' : (Sink.run addressOfObject (Verifier.start referencesSubject ({} : Discard))).map
      (fun v => (v.checker.reachable, v.checker.stack.tags)) = some (true, [.pointer, .pointer]) := by
    decide +kernel
  rw [hv, Option.map_some, Option.some.injEq, Prod.mk.injEq] at hstate
  rw [hv', Option.map_some, Option.some.injEq, Prod.mk.injEq] at hstate'
  have hswap : [Prefix.volatile, .unaligned].Perm [.unaligned, .volatile] := .swap _ _ _
  exact {
    method := by rw [htracked.subject, htracked'.subject]
    locals := htracked.locals.symm.trans htracked'.locals
    pending := by
      rw [← htracked.prefixes, ← htracked'.prefixes]
      exact fun p => hswap.mem_iff
    reachable := hstate.1.trans hstate'.1.symm
    tags := hstate.2.trans hstate'.2.symm }

/-- One way reads a string and the other an object.  A branch on what was read then takes the address
below it to the label, with the same tag either way. -/
theorem Verifier.sameTags_readReference :
    ∃ v v₁ v₂ v' v₁' v₂' : Verifier Discard,
      Sink.run addressOfString (start referencesSubject {}) = some v ∧
      Sink.run addressOfObject (start referencesSubject {}) = some v' ∧
      v.checker.SameTags v'.checker ∧
      Sink.run [.emit .ldindRef .none] v = some v₁ ∧ Sink.run [.emit .ldindRef .none] v' = some v₁' ∧
      v₁.checker.stack.entries.map Entry.text = ["string", "string&"] ∧
      v₁'.checker.stack.entries.map Entry.text = ["object", "object&"] ∧
      v₁.checker.SameTags v₁'.checker ∧
      Sink.run [.branch .brtrueS 0] v₁ = some v₂ ∧ Sink.run [.branch .brtrueS 0] v₁' = some v₂' ∧
      v₂.checker.labels.Holds 0 v₂.checker.stack.tags ∧
      v₂'.checker.labels.Holds 0 v₂.checker.stack.tags := by
  have hread : (Sink.run (addressOfString ++ [.emit .ldindRef .none])
      (start referencesSubject ({} : Discard))).map
        (fun v => v.checker.stack.entries.map Entry.text) = some ["string", "string&"] := by
    decide +kernel
  have hread' : (Sink.run (addressOfObject ++ [.emit .ldindRef .none])
      (start referencesSubject ({} : Discard))).map
        (fun v => v.checker.stack.entries.map Entry.text) = some ["object", "object&"] := by
    decide +kernel
  have hbranch : (Sink.run (addressOfString ++ [.emit .ldindRef .none] ++ [.branch .brtrueS 0])
      (start referencesSubject ({} : Discard))).isSome = true := by
    decide +kernel
  have hbranch' : (Sink.run (addressOfObject ++ [.emit .ldindRef .none] ++ [.branch .brtrueS 0])
      (start referencesSubject ({} : Discard))).isSome = true := by
    decide +kernel
  obtain ⟨v₂, hv₂⟩ := Option.isSome_iff_exists.mp hbranch
  obtain ⟨v₂', hv₂'⟩ := Option.isSome_iff_exists.mp hbranch'
  obtain ⟨v₁, hv₁, hsecond⟩ := Sink.run_append.mp hv₂
  obtain ⟨v₁', hv₁', hsecond'⟩ := Sink.run_append.mp hv₂'
  obtain ⟨v, hv, hfirst⟩ := Sink.run_append.mp hv₁
  obtain ⟨v', hv', hfirst'⟩ := Sink.run_append.mp hv₁'
  rw [hv₁, Option.map_some, Option.some.injEq] at hread
  rw [hv₁', Option.map_some, Option.some.injEq] at hread'
  have hone : ∀ {c : Call} {w w' : Verifier Discard}, Sink.run [c] w = some w' →
      ∃ reply, Sink.step c w = .ok reply w' := by
    intro c w w' hrun
    obtain ⟨reply, _, hstep, hnil⟩ := Sink.run_cons.mp hrun
    cases hnil
    exact ⟨reply, hstep⟩
  obtain ⟨_, hstep₁⟩ := hone hfirst
  obtain ⟨_, hstep₁'⟩ := hone hfirst'
  obtain ⟨_, hstep₂⟩ := hone hsecond
  obtain ⟨_, hstep₂'⟩ := hone hsecond'
  have hsame := Checker.sameTags_addresses hv hv'
  obtain ⟨hsame₁, -⟩ := sameTags_of_step hsame rfl hstep₁ hstep₁'
  obtain ⟨-, htargets⟩ := sameTags_of_step hsame₁ rfl hstep₂ hstep₂'
  obtain ⟨hholds, hholds'⟩ := htargets 0 List.mem_cons_self
  exact ⟨v, v₁, v₂, v', v₁', v₂', hv, hv', hsame, hfirst, hfirst', hread, hread', hsame₁, hsecond,
    hsecond', hholds, hholds'⟩

end Cil
