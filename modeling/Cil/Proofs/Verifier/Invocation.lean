/-
What a call takes from the stack and what it leaves there.

A call pops its operands one by one from the top: the function pointer if the call is indirect, the
arguments from the last to the first, and the instance if there is one.  Read from the bottom up they
stand in the order in which they were pushed: the instance, the arguments, the function pointer.

A rule that only pops is described by the entries it takes, bottom first (`Takes`).  Such descriptions
compose: of two rules in a row the second takes what lies below (`Takes.bind`), and so the arguments meet
their parameters by induction on the parameters (`takes_popArguments`).  What is left once everything is
taken has room for the result, and then the result lies on top of it (`Takes.leave`).
-/
import Cil.Proofs.Verifier.Stores

namespace Cil

theorem Entry.isAssignable_of (t : Ty) : (Entry.of t).isAssignable t = true := by
  simp [Entry.isAssignable, Entry.isNull, Entry.of]

namespace Stack

/-- The stack without the entries above the given ones, bottom first, after `n` pops. -/
def loweredTo (s : Stack) (rest : List Entry) (n : Nat) : Stack :=
  { s with entries := rest.reverse, pops := s.pops + n }

@[simp] theorem bottomUp_loweredTo (s : Stack) (rest : List Entry) (n : Nat) :
    (s.loweredTo rest n).bottomUp = rest :=
  List.reverse_reverse rest

@[simp] theorem depth_loweredTo (s : Stack) (rest : List Entry) (n : Nat) :
    (s.loweredTo rest n).depth = rest.length :=
  List.length_reverse

theorem length_bottomUp (s : Stack) : s.bottomUp.length = s.depth :=
  List.length_reverse

end Stack

namespace Transition

variable {s : Stack} {m m' : Transition} {P P' : List Entry → Prop}

/-! ### Rules that only pop -/

/-- The rule takes entries that satisfy `P`, bottom first, from the top of the stack, and nothing else. -/
def Takes (P : List Entry → Prop) (m : Transition) : Prop :=
  ∀ s s', m s = .ok () s' ↔ ∃ rest taken, s.bottomUp = rest ++ taken ∧ P taken ∧
    s.loweredTo rest taken.length = s'

theorem takes_pure : Takes (· = []) (pure ()) := by
  intro s s'
  have hsame : s.loweredTo s.bottomUp 0 = s := by
    unfold Stack.loweredTo Stack.bottomUp
    rw [List.reverse_reverse, Nat.add_zero]
  rw [Step.pure_ok]
  constructor
  · rintro ⟨-, rfl⟩
    exact ⟨s.bottomUp, [], by simp, rfl, hsame⟩
  · rintro ⟨rest, taken, hsplit, rfl, rfl⟩
    rw [List.append_nil] at hsplit
    rw [← hsplit]
    exact ⟨rfl, hsame.symm⟩

theorem Takes.congr (hm : Takes P m) (h : ∀ taken, P taken ↔ P' taken) : Takes P' m := by
  intro s s'
  simp only [← h]
  exact hm s s'

/-- A rule that pops one entry and looks at it. -/
theorem takes_of_pop (op : Opcode) {Q : Entry → Prop}
    (h : ∀ s s', m s = .ok () s' ↔ ∃ e, pop op s = .ok e s' ∧ Q e) :
    Takes (fun taken => ∃ e, taken = [e] ∧ Q e) m := by
  intro s s'
  rw [h]
  constructor
  · rintro ⟨e, hpop, he⟩
    obtain ⟨rest, hentries, rfl⟩ := pop_ok.mp hpop
    refine ⟨rest.reverse, [e], by simp [Stack.bottomUp, hentries], ⟨e, rfl, he⟩, ?_⟩
    simp [Stack.loweredTo]
  · rintro ⟨rest, taken, hsplit, ⟨e, rfl, he⟩, rfl⟩
    refine ⟨e, pop_ok.mpr ⟨rest.reverse, ?_, rfl⟩, he⟩
    rw [Stack.bottomUp, List.reverse_eq_iff] at hsplit
    simpa using hsplit

theorem takes_popAssignable (op : Opcode) (t : Ty) :
    Takes (fun taken => ∃ e, taken = [e] ∧ e.isAssignable t = true) (popAssignable op t) :=
  takes_of_pop op fun _ _ => popAssignable_ok

theorem takes_popInstance (op : Opcode) (t : Ty) (byValue : Bool) :
    Takes (fun taken => ∃ e, taken = [e] ∧ isInstance e t byValue = true) (popInstance op t byValue) :=
  takes_of_pop op fun _ _ => popInstance_ok

theorem takes_popOf (op : Opcode) (expected : DataTypeSet) :
    Takes (fun taken => ∃ e, taken = [e] ∧ expected.contains e.tag = true)
      (discard <| popOf op expected) := by
  refine takes_of_pop op fun s s' => ?_
  simp only [Step.discard_eq, Step.bind_ok, Step.pure_ok, popOf_ok, true_and]
  constructor
  · rintro ⟨e, s₁, h, rfl⟩
    exact ⟨e, h⟩
  · rintro ⟨e, h⟩
    exact ⟨e, s', h, rfl⟩

/-- Of two rules in a row the second takes what lies below. -/
theorem Takes.bind (hm : Takes P m) (hm' : Takes P' m') :
    Takes (fun taken => ∃ below above, taken = below ++ above ∧ P' below ∧ P above)
      (m >>= fun _ => m') := by
  have hlower : ∀ (s : Stack) (rest₁ rest below above : List Entry),
      (s.loweredTo rest₁ above.length).loweredTo rest below.length
        = s.loweredTo rest (below ++ above).length := by
    intro s rest₁ rest below above
    rw [List.length_append, Nat.add_comm below.length]
    exact congrArg (Stack.mk _ _ _) (Nat.add_assoc _ _ _)
  intro s s'
  rw [Step.bind_ok]
  constructor
  · rintro ⟨⟨⟩, s₁, h, h'⟩
    obtain ⟨rest₁, above, hsplit, habove, rfl⟩ := (hm _ _).mp h
    obtain ⟨rest, below, hsplit', hbelow, rfl⟩ := (hm' _ _).mp h'
    rw [Stack.bottomUp_loweredTo] at hsplit'
    rw [hsplit', List.append_assoc] at hsplit
    exact ⟨rest, below ++ above, hsplit, ⟨below, above, rfl, hbelow, habove⟩, (hlower _ _ _ _ _).symm⟩
  · rintro ⟨rest, taken, hsplit, ⟨below, above, rfl, hbelow, habove⟩, rfl⟩
    rw [← List.append_assoc] at hsplit
    refine ⟨(), _, (hm _ _).mpr ⟨_, above, hsplit, habove, rfl⟩, ?_⟩
    exact (hm' _ _).mpr ⟨rest, below, Stack.bottomUp_loweredTo _ _ _, hbelow, hlower _ _ _ _ _⟩

/-- Each entry suits the type in its place, and there are as many of the ones as of the others. -/
def Suit (args : List Entry) (types : List Ty) : Prop :=
  List.Forall₂ (fun e t => e.isAssignable t = true) args types

theorem suit_concat {args : List Entry} {types : List Ty} {t : Ty} :
    Suit args (types ++ [t]) ↔ ∃ earlier last, args = earlier ++ last ∧ Suit earlier types ∧
      ∃ e, last = [e] ∧ e.isAssignable t = true := by
  constructor
  · intro h
    obtain ⟨e, last, he, hlast, hdrop⟩ :=
      List.forall₂_cons_right_iff.mp (List.forall₂_drop_append _ _ _ h)
    rw [List.forall₂_nil_right_iff] at hlast
    subst hlast
    exact ⟨_, _, (List.take_append_drop _ _).symm, List.forall₂_take_append _ _ _ h, e, hdrop, he⟩
  · rintro ⟨earlier, last, rfl, hearlier, e, rfl, he⟩
    exact List.rel_append hearlier (.cons he .nil)

/-- **Arguments stand in the order of their parameters**, though the last is popped first. -/
theorem takes_popArguments (op : Opcode) (parameters : List Ty) :
    Takes (Suit · parameters) (popArguments op parameters) := by
  -- The loop runs through the parameters backwards, and so does the induction.
  have hloop : ∀ backwards : List Ty,
      Takes (Suit · backwards.reverse) (backwards.forM (popAssignable op)) := by
    intro backwards
    induction backwards with
    | nil => exact takes_pure.congr fun _ => List.forall₂_nil_right_iff.symm
    | cons t earlier ih =>
      rw [List.reverse_cons]
      exact ((takes_popAssignable op t).bind ih).congr fun _ => suit_concat.symm
  have hall := hloop parameters.reverse
  rw [List.reverse_reverse] at hall
  exact hall

/-! ### Rules that only push -/

/-- The rule puts the entries, bottom first, on the stack if there is room for them. -/
def Puts (es : List Entry) (m : Transition) : Prop :=
  ∀ s s', s.depth ≤ s.maxDepth → (m s = .ok () s' ↔ s.depth + es.length ≤ s.maxDepth ∧
    { s with entries := es.reverse ++ s.entries, pushes := s.pushes + es.length } = s')

theorem puts_pushType (op : Opcode) (t : Ty) : Puts [.of t] (pushType op t) :=
  fun _ _ _ => push_ok

theorem puts_pushResult (op : Opcode) (m : Method) :
    Puts (m.returnType.toList.map Entry.of) (pushResult op m) := by
  unfold pushResult
  cases m.returnType with
  | some t => exact puts_pushType op t
  | none =>
    intro s s' hs
    rw [Step.pure_ok]
    exact ⟨fun h => ⟨hs, h.2⟩, fun h => ⟨rfl, h.2⟩⟩

/-- What lies below the entries that are taken stays, and the new entries lie on top of it. -/
theorem Takes.puts {es after : List Entry} (hm : Takes P m) (hm' : Puts es m')
    (hs : s.depth ≤ s.maxDepth) :
    (∃ s', (m >>= fun _ => m') s = .ok () s' ∧ s'.bottomUp = after) ↔
      ∃ rest taken, s.bottomUp = rest ++ taken ∧ P taken ∧ rest.length + es.length ≤ s.maxDepth ∧
        after = rest ++ es := by
  have hbottomUp : ∀ (s : Stack) pushes,
      ({ s with entries := es.reverse ++ s.entries, pushes := pushes } : Stack).bottomUp
        = s.bottomUp ++ es := by
    intro s pushes
    simp [Stack.bottomUp]
  have hroom : ∀ {rest taken}, s.bottomUp = rest ++ taken →
      (s.loweredTo rest taken.length).depth ≤ (s.loweredTo rest taken.length).maxDepth := by
    intro rest taken hsplit
    have hlength := congrArg List.length hsplit
    rw [Stack.length_bottomUp, List.length_append] at hlength
    rw [Stack.depth_loweredTo]
    show rest.length ≤ s.maxDepth
    omega
  simp only [Step.bind_ok]
  constructor
  · rintro ⟨s', ⟨⟨⟩, s₁, h, h'⟩, rfl⟩
    obtain ⟨rest, taken, hsplit, htaken, rfl⟩ := (hm _ _).mp h
    obtain ⟨hdepth, rfl⟩ := (hm' _ _ (hroom hsplit)).mp h'
    rw [Stack.depth_loweredTo] at hdepth
    exact ⟨rest, taken, hsplit, htaken, hdepth, by rw [hbottomUp, Stack.bottomUp_loweredTo]⟩
  · rintro ⟨rest, taken, hsplit, htaken, hdepth, rfl⟩
    refine ⟨_, ⟨(), _, (hm _ _).mpr ⟨rest, taken, hsplit, htaken, rfl⟩,
      (hm' _ _ (hroom hsplit)).mpr ⟨?_, rfl⟩⟩, ?_⟩
    · rw [Stack.depth_loweredTo]
      exact hdepth
    · rw [hbottomUp, Stack.bottomUp_loweredTo]

end Transition

/-! ### Calls -/

/-- The entries from which a method takes its instance: none if it is static.  After `constrained.` any
pointer is one; otherwise it is a value of the declaring type, or a pointer to one if that is a value
type. -/
def Method.Receives (m : Method) (prefixes : List Prefix) (receiver : List Entry) : Prop :=
  if m.isStatic then receiver = []
  else ∃ e, receiver = [e] ∧
    if .constrained ∈ prefixes then e.tag.isPointer = true
    else if m.declaringType.isValueType then e.isAssignable (.pointer m.declaringType false) = true
    else e.isAssignable m.declaringType = true

namespace Transition

variable {f : Frame} {op : Opcode} {s : Stack} {kind : CallKind} {m : Method}

theorem isInstance_false_iff {e : Entry} {t : Ty} :
    isInstance e t false = true ↔
      if t.isValueType then e.isAssignable (.pointer t false) = true else e.isAssignable t = true := by
  unfold isInstance
  split <;> simp

theorem takes_popReceiver (f : Frame) (op : Opcode) (m : Method) :
    Takes (m.Receives f.prefixes) (popReceiver f op m) := by
  unfold popReceiver Method.Receives
  by_cases hstatic : m.isStatic = true
  · simp only [if_pos hstatic]
    exact takes_pure
  · by_cases hconstrained : Prefix.constrained ∈ f.prefixes
    · simp only [if_neg hstatic, if_pos hconstrained]
      exact takes_popOf op .pointer
    · simp only [if_neg hstatic, if_neg hconstrained, ← isInstance_false_iff]
      exact takes_popInstance op m.declaringType false

/-- Pops the function that an indirect call goes to. -/
def popFunction (op : Opcode) (kind : CallKind) : Transition :=
  if kind = .indirect then discard <| popOf op (.singleton .nativeInt) else pure ()

theorem takes_popFunction (op : Opcode) (kind : CallKind) :
    Takes (fun function => if kind = .indirect then ∃ e, function = [e] ∧ e.tag = .nativeInt
      else function = []) (popFunction op kind) := by
  unfold popFunction
  by_cases hkind : kind = .indirect
  · simp only [if_pos hkind]
    refine (takes_popOf op _).congr fun _ => ?_
    simp [DataTypeSet.contains, DataTypeSet.singleton]
  · simp only [if_neg hkind]
    exact takes_pure

/-- A call takes the function, the arguments and the instance, and then it leaves the result. -/
theorem invoke_eq_bind (f : Frame) (op : Opcode) (hm : (m.isGeneric || m.declaringType.isGeneric) = false)
    (hkind : kind = .direct ∨ kind = .virtual ∨ kind = .indirect) :
    invoke f op kind m = (popFunction op kind >>= fun _ => popArguments op m.parameters >>= fun _ =>
      popReceiver f op m) >>= fun _ => pushResult op m := by
  unfold invoke
  rw [hm]
  rcases hkind with rfl | rfl | rfl
  · simp [popFunction]
  · simp [popFunction]
  · simp [popFunction]

/-- A constructor takes its arguments, and then it leaves the new instance. -/
theorem invoke_newObject_ok (hm : (m.isGeneric || m.declaringType.isGeneric) = false) {s' : Stack} :
    invoke f op .newObject m s = .ok () s' ↔ m.isConstructor = true ∧
      (popArguments op m.parameters >>= fun _ => pushType op m.declaringType) s = .ok () s' := by
  unfold invoke
  rw [hm]
  simp only [Bool.false_eq_true, if_false, guard_ok]
  simp

end Transition

/-! ### The verifier -/

/-- The sink takes every call. -/
def Sink.NeverRefuses (δ : Type) [Sink δ] : Prop :=
  ∀ (c : Call) (d : δ), ∃ reply d', Sink.step c d = .ok reply d'

namespace Checker

/-- The entries an instruction finds, bottom first: nothing is on the stack where control does not
arrive. -/
def entriesBefore (k : Checker) : List Entry :=
  if k.reachable then k.stack.bottomUp else []

theorem bottomUp_entryStack (k : Checker) : k.entryStack.bottomUp = k.entriesBefore := by
  unfold entryStack entriesBefore enter
  split <;> rfl

end Checker

namespace Verifier

variable {δ : Type} [Sink δ]

/-- A call is accepted just if its prefixes may stand there and its rule runs. -/
theorem exists_invoke_iff (hδ : Sink.NeverRefuses δ) (v : Verifier δ) {op : Opcode} {kind : CallKind}
    (hop : op.category = .call kind) (m : Method) {after : List Entry} :
    (∃ reply v', Sink.step (.invoke op m) v = .ok reply v' ∧ v'.checker.stack.bottomUp = after) ↔
      (∀ p ∈ v.checker.pending, p ∈ op.prefixes) ∧
      ∃ s, Transition.invoke (v.checker.frame v.checker.pending) op kind m v.checker.entryStack
        = .ok () s ∧ s.bottomUp = after := by
  have hadmits : op.AdmitsPrefixes v.checker.pending ↔ ∀ p ∈ v.checker.pending, p ∈ op.prefixes := by
    rw [Opcode.AdmitsPrefixes, hop]
  have hrule : (Call.invoke op m).rule? (v.checker.frame (op.activePrefixes v.checker.pending))
      = some (Transition.invoke (v.checker.frame v.checker.pending) op kind m) := by
    show Transition.ofMethod op m _ = _
    rw [Transition.ofMethod, Opcode.activePrefixes, hop]
  rw [← hadmits]
  constructor
  · rintro ⟨reply, v', hstep, rfl⟩
    obtain ⟨c', haccept⟩ := accept_of_step rfl hstep
    obtain ⟨-, hinstr, -⟩ := (Checker.accept_instruction rfl).mp haccept
    obtain ⟨hprefixes, transition, s, t, htransition, hs, -, hv'⟩ := Checker.instruction_ok.mp hinstr
    rw [hrule, Option.some.injEq] at htransition
    subst htransition
    exact ⟨hprefixes, s, hs, by rw [← hv']⟩
  · rintro ⟨hprefixes, s, hs, rfl⟩
    have hformed : (Call.invoke op m).Formed v.checker.labels := by
      rw [Call.Formed, hop]
      rfl
    have hreach : LabelTable.reachEach [] s.entries v.checker.labels = .ok () v.checker.labels := rfl
    have hinstr := Checker.instruction_ok.mpr ⟨hprefixes, _, s, _, hrule, hs, hreach, rfl⟩
    have haccept := (Checker.accept_instruction rfl).mpr ⟨hformed, hinstr, rfl⟩
    obtain ⟨reply, d, hd⟩ := hδ (.invoke op m) v.downstream
    exact ⟨_, ⟨_, d⟩, step_ok.mpr ⟨_, _, reply, haccept, hd, rfl⟩, rfl⟩

/-- The stack an instruction starts from is within its bound. -/
theorem depth_entryStack_le (s : Subject) (d : δ) (calls : List Call) {k : Checker}
    (hk : (Sink.session calls (start s d)).2.checker = k) :
    k.entryStack.depth ≤ k.entryStack.maxDepth ∧ k.entryStack.maxDepth = s.maxStack := by
  have hholds := ((holds_session s d calls).enter Stack.fit_nil).stack
  rw [hk] at hholds
  have hmax : k.entryStack.maxDepth = s.maxStack := hholds.maxDepth_eq
  exact ⟨hmax ▸ hholds.depth_le, hmax⟩

/-- **A call takes the instance, the arguments and the function that lie on top, in this order, and
leaves the result in their place.**  So for every method that is no generic definition, in every state a
session can come to, if the prefixes before the call may stand there and the sink behind the verifier takes
every call: the call is accepted just if the stack can be split in this way, with an entry for each parameter
that suits it, and what is left has room for the result.  `newobj` takes arguments only, and leaves an
instance of the type whose constructor it names. -/
theorem invoke_takes_operands (hδ : Sink.NeverRefuses δ) (s : Subject) (d : δ) (calls : List Call)
    (m : Method) (hm : m.isGeneric = false) (hdeclaring : m.declaringType.isGeneric = false)
    (op : Opcode) (v : Verifier δ) (hv : (Sink.session calls (start s d)).2 = v)
    (hprefixes : ∀ p ∈ v.checker.pending, p ∈ op.prefixes) (after : List Entry) :
    (op = .call ∨ op = .callvirt ∨ op = .calli →
      ((∃ reply v', Sink.step (.invoke op m) v = .ok reply v' ∧ v'.checker.stack.bottomUp = after) ↔
        ∃ rest receiver args function,
          v.checker.entriesBefore = rest ++ receiver ++ args ++ function ∧
          (if op = .calli then ∃ e, function = [e] ∧ e.tag = .nativeInt else function = []) ∧
          List.Forall₂ (fun e t => e.isAssignable t = true) args m.parameters ∧
          m.Receives v.checker.pending receiver ∧
          rest.length + m.returnType.toList.length ≤ s.maxStack ∧
          after = rest ++ m.returnType.toList.map Entry.of)) ∧
    (op = .newobj →
      ((∃ reply v', Sink.step (.invoke op m) v = .ok reply v' ∧ v'.checker.stack.bottomUp = after) ↔
        m.isConstructor = true ∧ ∃ rest args, v.checker.entriesBefore = rest ++ args ∧
          List.Forall₂ (fun e t => e.isAssignable t = true) args m.parameters ∧
          rest.length + 1 ≤ s.maxStack ∧ after = rest ++ [Entry.of m.declaringType])) := by
  obtain ⟨hdepth, hmax⟩ := depth_entryStack_le s d calls (congrArg checker hv)
  have hgeneric : (m.isGeneric || m.declaringType.isGeneric) = false := by simp [hm, hdeclaring]
  constructor
  · intro hop
    obtain ⟨kind, hcategory, hkind, hindirect⟩ : ∃ kind, op.category = .call kind ∧
        (kind = .direct ∨ kind = .virtual ∨ kind = .indirect) ∧ (kind = .indirect ↔ op = .calli) := by
      rcases hop with rfl | rfl | rfl
      · exact ⟨.direct, rfl, by decide⟩
      · exact ⟨.virtual, rfl, by decide⟩
      · exact ⟨.indirect, rfl, by decide⟩
    have htakes := (Transition.takes_popFunction op kind).bind
      ((Transition.takes_popArguments op m.parameters).bind
        (Transition.takes_popReceiver (v.checker.frame v.checker.pending) op m))
    rw [exists_invoke_iff hδ v hcategory, Transition.invoke_eq_bind _ _ hgeneric hkind,
      htakes.puts (Transition.puts_pushResult op m) hdepth, Checker.bottomUp_entryStack, hmax,
      List.length_map]
    simp only [hindirect]
    constructor
    · rintro ⟨-, rest, taken, hsplit, ⟨below, function, rfl, ⟨receiver, args, rfl, hreceiver, hargs⟩,
        hfunction⟩, hroom, hafter⟩
      rw [← List.append_assoc, ← List.append_assoc] at hsplit
      exact ⟨rest, receiver, args, function, hsplit, hfunction, hargs, hreceiver, hroom, hafter⟩
    · rintro ⟨rest, receiver, args, function, hsplit, hfunction, hargs, hreceiver, hroom, hafter⟩
      rw [List.append_assoc, List.append_assoc, ← List.append_assoc receiver] at hsplit
      exact ⟨hprefixes, rest, _, hsplit, ⟨_, function, rfl, ⟨receiver, args, rfl, hreceiver, hargs⟩,
        hfunction⟩, hroom, hafter⟩
  · rintro rfl
    have htakes := Transition.takes_popArguments .newobj m.parameters
    rw [exists_invoke_iff hδ v rfl]
    simp only [Transition.invoke_newObject_ok hgeneric, and_assoc, exists_and_left]
    rw [htakes.puts (Transition.puts_pushType .newobj m.declaringType) hdepth,
      Checker.bottomUp_entryStack, hmax]
    exact and_iff_right hprefixes

end Verifier

/-! ### An indirect call -/

/-- An instance method with two parameters. -/
def resize : Method where
  name := "Resize"
  declaringType := .plainClass "Shape" (some .object)
  parameters := [.int64, .int32]
  returnType := some .int32
  isStatic := false

def resizeSubject : Subject where
  method := { name := "Main", declaringType := .plainClass "Program" (some .object),
              parameters := [resize.declaringType, .int64], returnType := none, isStatic := true }

/-- The instance, the two arguments, and the function. -/
def resizeOperands : List Call :=
  [.emit .ldarg0 .none, .emit .ldarg1 .none, .emit .ldcI41 .none, .emit .ldcI40 .none,
    .emit .convI .none]

theorem Verifier.invoke_takes_operands_resize :
    Sink.NeverRefuses Discard ∧ resize.isGeneric = false ∧ resize.declaringType.isGeneric = false ∧
    (∀ p ∈ (Sink.session resizeOperands (start resizeSubject ({} : Discard))).2.checker.pending,
      p ∈ Opcode.calli.prefixes) ∧
    ∃ reply v', Sink.step (.invoke .calli resize)
        (Sink.session resizeOperands (start resizeSubject ({} : Discard))).2 = .ok reply v' ∧
      v'.checker.stack.bottomUp = [.of .int32] := by
  have hδ : Sink.NeverRefuses Discard := by
    intro c d
    cases c <;> exact ⟨_, _, rfl⟩
  have hprefixes : ∀ p ∈ (Sink.session resizeOperands
      (start resizeSubject ({} : Discard))).2.checker.pending, p ∈ Opcode.calli.prefixes :=
    fun p hp => absurd hp List.not_mem_nil
  refine ⟨hδ, rfl, rfl, hprefixes, ?_⟩
  refine ((invoke_takes_operands hδ resizeSubject {} resizeOperands resize rfl rfl .calli _ rfl hprefixes
    [.of .int32]).1 (by decide)).mpr ?_
  refine ⟨[], [.of resize.declaringType], [.of .int64, .of .int32], [.of .nativeInt], rfl, ?_, ?_, ?_, ?_,
    ?_⟩
  · exact ⟨_, rfl, rfl⟩
  · exact .cons (Entry.isAssignable_of _) (.cons (Entry.isAssignable_of _) .nil)
  · exact ⟨_, rfl, Entry.isAssignable_of _⟩
  · decide
  · rfl

end Cil
