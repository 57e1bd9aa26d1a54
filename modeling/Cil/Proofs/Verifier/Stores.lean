/-
Which addresses are written through.

A read-only pointer says that what it points to is not to be changed: `ldflda` and `ldsflda` give one
for a field that only its constructors may write, `unbox` and `ldelema` after `readonly.` give others.
Each storing rule guards against them by itself.  An indirect store asks for the stack type of a mutable
pointer, `initobj` and `cpobj` ask for a value that can stand for a mutable pointer, and `stfld` asks for
an instance of the type that declares the field.

The last of these lets a read-only pointer pass where the declaring type is a value type, since an
instance may be given by any pointer.  It is the only hole, as long as no two types have one name:
`mutable_of_store` says so for every storing instruction that is accepted in any session, and
`stores_readonly` is a session that goes through the hole.
-/
import Cil.Proofs.Verifier.Snapshots

namespace Cil

/-! ### Types of read-only pointers -/

namespace DataType

theorem eq_readonlyPointer_of_stackType {d : DataType} (h : d.stackType = .readonlyPointer) :
    d = .readonlyPointer := by
  cases d <;> first | rfl | exact nomatch h

end DataType

namespace Ty

/-- A type of read-only pointers stands for no type but those of read-only pointers, value types and
types with its own name. -/
theorem name_eq_of_isSubtype {t w : Ty} (ht : t.dataType = .readonlyPointer)
    (hvalue : w.isValueType = false) (hw : w.dataType ≠ .readonlyPointer)
    (h : t.isSubtype w = true) : t.name = w.name := by
  cases t with
  | classType n base is g => exact nomatch ht
  | interfaceType n is g => exact nomatch ht
  | array e => exact nomatch ht
  | valueType n d is g =>
    rw [isSubtype, hvalue, Bool.false_and, Bool.or_false] at h
    exact eq_of_beq h
  | pointer e mutable =>
    cases mutable with
    | true => exact nomatch ht
    | false =>
      cases w with
      | pointer e' mutable' =>
        cases mutable' with
        | false => exact absurd rfl hw
        | true => simpa [isSubtype] using h
      | _ => simpa [isSubtype] using h

end Ty

/-- A value with the tag of a read-only pointer was made of a type of read-only pointers. -/
theorem Entry.Typed.of_readonlyPointer {e : Entry} (h : e.Typed) (htag : e.tag = .readonlyPointer) :
    ∃ t, e.concrete = some t ∧ t.dataType = .readonlyPointer := by
  rcases h with rfl | ⟨t, ht, hstack⟩
  · exact nomatch htag
  · exact ⟨t, ht, DataType.eq_readonlyPointer_of_stackType (hstack.symm.trans htag)⟩

/-- Where a read-only pointer is usable, read-only pointers or values are wanted, or a name is shared. -/
theorem Entry.Typed.name_eq_of_isAssignable {e : Entry} (h : e.Typed) (htag : e.tag = .readonlyPointer)
    {w : Ty} (hvalue : w.isValueType = false) (hw : w.dataType ≠ .readonlyPointer)
    (hassignable : e.isAssignable w = true) : ∃ t, e.concrete = some t ∧ t.name = w.name := by
  obtain ⟨t, ht, hdata⟩ := h.of_readonlyPointer htag
  refine ⟨t, ht, Ty.name_eq_of_isSubtype hdata hvalue hw ?_⟩
  unfold isAssignable isNull at hassignable
  rw [ht, htag] at hassignable
  have hstack : w.stackType ≠ .readonlyPointer := fun hc =>
    hw (DataType.eq_readonlyPointer_of_stackType hc)
  simpa [hstack] using hassignable

/-! ### Storing instructions -/

/-- How far below the top the address lies that an instruction writes through. -/
def Opcode.addressPlace? (op : Opcode) : Option Nat :=
  match op with
  | .initobj => some 0
  | .cpobj | .stfld => some 1
  | _ =>
    match op.category with
    | .indirect .store _ => some 1
    | _ => none

theorem Opcode.addressPlace?_cases {op : Opcode} {i : Nat} (h : op.addressPlace? = some i) :
    op = .initobj ∧ i = 0 ∨ op = .cpobj ∧ i = 1 ∨ op = .stfld ∧ i = 1 ∨
      (∃ type?, op.category = .indirect .store type?) ∧ i = 1 := by
  unfold addressPlace? at h
  split at h
  · exact Or.inl ⟨rfl, (Option.some.inj h).symm⟩
  · exact Or.inr (Or.inl ⟨rfl, (Option.some.inj h).symm⟩)
  · exact Or.inr (Or.inr (Or.inl ⟨rfl, (Option.some.inj h).symm⟩))
  · split at h
    · next type? hcategory =>
      exact Or.inr (Or.inr (Or.inr ⟨⟨type?, hcategory⟩, (Option.some.inj h).symm⟩))
    · cases h

/-- A storing instruction has no operand, or it names a type or, if it is `stfld`, a field. -/
theorem Call.form_of_addressPlace? {c : Call} {op : Opcode} {i : Nat} {labels : LabelTable}
    (hop : c.opcode? = some op) (hplace : op.addressPlace? = some i) (hformed : c.Formed labels) :
    (∃ x, c = .emit op x) ∨ (∃ t, c = .type op t) ∨ ∃ f, c = .field .stfld f := by
  cases c with
  | emit op x =>
    cases hop
    exact Or.inl ⟨x, rfl⟩
  | type op t =>
    cases hop
    exact Or.inr (Or.inl ⟨t, rfl⟩)
  | field op f =>
    cases hop
    have hstfld : op = .stfld := by cases op <;> first | rfl | (cases hplace; done) | cases hformed
    exact Or.inr (Or.inr ⟨f, by rw [hstfld]⟩)
  | branch op target =>
    cases hop
    have hbranch := hformed.1
    cases op <;> first | (cases hplace; done) | cases hbranch
  | invoke op m =>
    cases hop
    cases op <;> first | (cases hplace; done) | cases hformed
  | token op m =>
    cases hop
    cases op <;> first | (cases hplace; done) | cases hformed
  | string op value =>
    cases hop
    cases op <;> first | (cases hplace; done) | cases hformed
  | switch targets =>
    cases hop
    cases hplace
  | declareLocal t name => exact nomatch hop
  | createLabel name => exact nomatch hop
  | markLabel index => exact nomatch hop
  | finish => exact nomatch hop

/-- The type that the address is checked against.  An indirect store checks its stack type alone. -/
def Call.addressType? : Call → Option Ty
  | .field _ f => some f.declaringType
  | .type op t => if op.category = .other then some (.pointer t true) else none
  | _ => none

/-- What the rule of a storing instruction asks of the address. -/
def Call.TakesAddress (c : Call) (e : Entry) : Prop :=
  match c with
  | .field _ f => Transition.isInstance e f.declaringType false = true
  | .type op t =>
    if op.category = .other then e.isAssignable (.pointer t true) = true else e.tag = .pointer
  | _ => e.tag = .pointer

namespace Transition

variable {op : Opcode} {s s' : Stack}

theorem popOf_ok {expected : DataTypeSet} {e : Entry} :
    popOf op expected s = .ok e s' ↔ pop op s = .ok e s' ∧ expected.contains e.tag = true := by
  unfold popOf
  rw [Step.bind_ok]
  constructor
  · rintro ⟨e₁, s₁, hpop, h⟩
    by_cases hc : expected.contains e₁.tag = true
    · rw [if_pos hc] at h
      obtain ⟨rfl, rfl⟩ := Step.pure_ok.mp h
      exact ⟨hpop, hc⟩
    · rw [if_neg hc] at h
      exact (Step.throw_ok.mp h).elim
  · rintro ⟨hpop, hc⟩
    exact ⟨e, s', hpop, by rw [if_pos hc]; rfl⟩

theorem requireAssignable_ok {e : Entry} {t : Ty} {u : Unit} :
    requireAssignable op e t s = .ok u s' ↔ e.isAssignable t = true ∧ s = s' := by
  unfold requireAssignable
  by_cases h : e.isAssignable t = true
  · simp [h, Step.pure_ok]
  · rw [if_neg h]
    exact ⟨fun hrefused => (Step.throw_ok.mp hrefused).elim, fun hok => absurd hok.1 h⟩

theorem popAssignable_ok {t : Ty} {u : Unit} :
    popAssignable op t s = .ok u s' ↔ ∃ e, pop op s = .ok e s' ∧ e.isAssignable t = true := by
  unfold popAssignable
  simp only [Step.bind_ok, requireAssignable_ok]
  constructor
  · rintro ⟨e, s₁, hpop, h, rfl⟩
    exact ⟨e, hpop, h⟩
  · rintro ⟨e, hpop, h⟩
    exact ⟨e, s', hpop, h, rfl⟩

theorem popInstance_ok {t : Ty} {byValue : Bool} {u : Unit} :
    popInstance op t byValue s = .ok u s' ↔
      ∃ e, pop op s = .ok e s' ∧ isInstance e t byValue = true := by
  unfold popInstance
  rw [Step.bind_ok]
  constructor
  · rintro ⟨e, s₁, hpop, h⟩
    by_cases hc : isInstance e t byValue = true
    · rw [if_pos hc] at h
      obtain ⟨-, rfl⟩ := Step.pure_ok.mp h
      exact ⟨e, hpop, hc⟩
    · rw [if_neg hc] at h
      exact (Step.throw_ok.mp h).elim
  · rintro ⟨e, hpop, hc⟩
    exact ⟨e, s', hpop, by rw [if_pos hc]; rfl⟩

/-- The entry below one that is popped. -/
theorem getElem?_of_pop {e e' : Entry} {s₁ : Stack} (h : pop op s = .ok e s₁)
    (h' : pop op s₁ = .ok e' s') : s.entries[1]? = some e' := by
  obtain ⟨rest, hentries, rfl⟩ := pop_ok.mp h
  obtain ⟨rest', hentries', rfl⟩ := pop_ok.mp h'
  rw [hentries]
  change rest = e' :: rest' at hentries'
  rw [hentries']
  rfl

theorem address_of_indirect {r : Referent} (h : indirect op .store r s = .ok () s') :
    ∃ e, s.entries[1]? = some e ∧ e.tag = .pointer := by
  obtain ⟨value, s₁, hvalue, h⟩ := Step.bind_ok.mp h
  obtain ⟨t, s₂, hreferent, -⟩ := Step.bind_ok.mp h
  obtain ⟨e, s₃, haddress, -⟩ := Step.bind_ok.mp hreferent
  obtain ⟨hpop, htag⟩ := popOf_ok.mp haddress
  refine ⟨e, getElem?_of_pop hvalue hpop, ?_⟩
  simpa [DataTypeSet.contains, DataTypeSet.singleton] using htag

/-- What stands after a check runs just if the check has nothing against it. -/
theorem guard_ok {p : Prop} [Decidable p] {v : Violation} {g : Unit → Transition} {m : Transition} :
    (if p then refuse v >>= g else m) s = .ok () s' ↔ ¬ p ∧ m s = .ok () s' := by
  by_cases hp : p
  · simp [hp, Step.bind_ok, refuse, Step.throw_ok]
  · simp [hp]

/-- A store to a field looks at the value and the instance, and at how the field is declared, save for
whether only constructors may write it.  It looks at nothing of the method. -/
theorem fieldAccess_store_ok {f : Frame} {static : Bool} {field : Field} :
    fieldAccess f op .store static field s = .ok () s' ↔
      static = field.isStatic ∧ field.declaringType.isGeneric = false ∧
        ∃ s₁, popAssignable op field.type s = .ok () s₁ ∧
          if static then s₁ = s' else popInstance op field.declaringType false s₁ = .ok () s' := by
  unfold fieldAccess
  dsimp only
  rw [guard_ok, guard_ok, Decidable.not_not, Bool.not_eq_true, if_pos rfl, Step.bind_ok]
  refine and_congr_right fun _ => and_congr_right fun _ => ?_
  by_cases hstatic : static = true
  · simp only [hstatic, Bool.not_true, Bool.false_eq_true, if_false, if_true, Step.pure_ok, true_and]
    exact ⟨fun ⟨_, h⟩ => h, fun h => ⟨(), h⟩⟩
  · simp only [hstatic, Bool.not_false, if_true, bind_pure_unit, Bool.false_eq_true, if_false]
    exact ⟨fun ⟨_, h⟩ => h, fun h => ⟨(), h⟩⟩

theorem address_of_fieldAccess {f : Frame} {field : Field}
    (h : fieldAccess f op .store false field s = .ok () s') :
    ∃ e, s.entries[1]? = some e ∧ isInstance e field.declaringType false = true := by
  obtain ⟨-, -, s₁, hstore, hinstance⟩ := fieldAccess_store_ok.mp h
  rw [if_neg Bool.false_ne_true] at hinstance
  obtain ⟨value, hvalue, -⟩ := popAssignable_ok.mp hstore
  obtain ⟨e, hpop, he⟩ := popInstance_ok.mp hinstance
  exact ⟨e, getElem?_of_pop hvalue hpop, he⟩

/-- The rule of a storing instruction checks the address that it writes through. -/
theorem address_of_rule {c : Call} {labels : LabelTable} {f : Frame} {transition : Transition}
    {i : Nat} (hop : c.opcode? = some op) (hformed : c.Formed labels)
    (hplace : op.addressPlace? = some i) (hrule : c.rule? f = some transition)
    (hs : transition s = .ok () s') : ∃ e, s.entries[i]? = some e ∧ c.TakesAddress e := by
  rcases Call.form_of_addressPlace? hop hplace hformed with ⟨x, rfl⟩ | ⟨t, rfl⟩ | ⟨member, rfl⟩
  · change ofNumber op x f = some transition at hrule
    rcases op.addressPlace?_cases hplace with
      ⟨rfl, -⟩ | ⟨rfl, -⟩ | ⟨rfl, -⟩ | ⟨⟨type?, hcategory⟩, rfl⟩
    · cases hrule
    · cases hrule
    · cases hrule
    · unfold ofNumber at hrule
      rw [hcategory] at hrule
      cases type? with
      | none => cases hrule
      | some d =>
        cases hrule
        exact address_of_indirect hs
  · change ofType op t f = some transition at hrule
    rcases op.addressPlace?_cases hplace with
      ⟨rfl, rfl⟩ | ⟨rfl, rfl⟩ | ⟨rfl, rfl⟩ | ⟨⟨type?, hcategory⟩, rfl⟩
    · cases hrule
      obtain ⟨e, hpop, he⟩ := popAssignable_ok.mp hs
      obtain ⟨rest, hentries, -⟩ := pop_ok.mp hpop
      exact ⟨e, by rw [hentries]; rfl, he⟩
    · cases hrule
      obtain ⟨⟨⟩, s₁, hsource, hs⟩ := Step.bind_ok.mp hs
      obtain ⟨source, hpop, -⟩ := popAssignable_ok.mp hsource
      obtain ⟨e, hpop', he⟩ := popAssignable_ok.mp hs
      exact ⟨e, getElem?_of_pop hpop hpop', he⟩
    · cases hrule
    · unfold ofType at hrule
      rw [hcategory] at hrule
      cases hrule
      obtain ⟨e, hentry, htag⟩ := address_of_indirect hs
      exact ⟨e, hentry, by simpa [Call.TakesAddress, hcategory] using htag⟩
  · cases hop
    cases hplace
    cases hrule
    exact address_of_fieldAccess hs

end Transition

/-! ### Sessions -/

theorem Checker.mem_of_entryStack {k : Checker} {e : Entry} (h : e ∈ k.entryStack.entries) :
    e ∈ k.stack.entries := by
  unfold entryStack enter at h
  split at h
  · exact h
  · exact absurd h List.not_mem_nil

/-- A read-only pointer passes for an address only through `stfld` on the field of a value, or by its
name. -/
theorem Call.TakesAddress.of_readonlyPointer {c : Call} {e : Entry} (h : c.TakesAddress e)
    (htyped : e.Typed) (htag : e.tag = .readonlyPointer) :
    (∃ op f, c = .field op f ∧
      (f.declaringType.isValueType = true ∨ f.declaringType.dataType = .readonlyPointer)) ∨
    ∃ t w, e.concrete = some t ∧ c.addressType? = some w ∧ t.name = w.name := by
  have hpointer : ¬ e.tag = .pointer := by rw [htag]; exact nofun
  cases c with
  | field op f =>
    by_cases hvalue : f.declaringType.isValueType = true
    · exact Or.inl ⟨op, f, rfl, Or.inl hvalue⟩
    · by_cases hdata : f.declaringType.dataType = .readonlyPointer
      · exact Or.inl ⟨op, f, rfl, Or.inr hdata⟩
      · have hassignable : e.isAssignable f.declaringType = true := by
          simpa [TakesAddress, Transition.isInstance, hvalue] using h
        obtain ⟨t, ht, hname⟩ := htyped.name_eq_of_isAssignable htag
          (Bool.eq_false_iff.mpr hvalue) hdata hassignable
        exact Or.inr ⟨t, f.declaringType, ht, rfl, hname⟩
  | type op t =>
    by_cases hother : op.category = .other
    · rw [TakesAddress, if_pos hother] at h
      have hmutable : (Ty.pointer t true).dataType ≠ .readonlyPointer := nofun
      obtain ⟨t', ht', hname⟩ := htyped.name_eq_of_isAssignable htag rfl hmutable h
      exact Or.inr ⟨t', .pointer t true, ht', if_pos hother, hname⟩
    · rw [TakesAddress, if_neg hother] at h
      exact absurd h hpointer
  | _ => exact absurd h hpointer

namespace Verifier

variable {δ : Type} [Sink δ]

/-- **What is written through is writable**, save for one case.  In any session the address that an
accepted `stind`, `stobj`, `initobj`, `cpobj` or `stfld` writes through is no read-only pointer, unless
the instruction stores to a field of a value type, whose instances may be given by any pointer, or the
pointer's type is mistaken for another type of the same name. -/
theorem mutable_of_store (s : Subject) (d : δ) (calls : List Call) {c : Call} {op : Opcode} {i : Nat}
    {reply : Option Nat} {v' : Verifier δ} (hop : c.opcode? = some op)
    (hplace : op.addressPlace? = some i)
    (hstep : Sink.step c (Sink.session calls (start s d)).2 = .ok reply v') :
    ∃ e, (Sink.session calls (start s d)).2.checker.entryStack.entries[i]? = some e ∧
      (e.tag = .readonlyPointer →
        (∃ f, c = .field .stfld f ∧
          (f.declaringType.isValueType = true ∨ f.declaringType.dataType = .readonlyPointer)) ∨
        ∃ t w, e.concrete = some t ∧ c.addressType? = some w ∧ t.name = w.name) := by
  obtain ⟨c', haccept⟩ := accept_of_step hop hstep
  obtain ⟨hformed, hinstr, -⟩ := (Checker.accept_instruction hop).mp haccept
  obtain ⟨-, transition, s₁, t₁, hrule, hs, -, -⟩ := Checker.instruction_ok.mp hinstr
  obtain ⟨e, hentry, htakes⟩ := Transition.address_of_rule hop hformed hplace hrule hs
  refine ⟨e, hentry, fun htag => ?_⟩
  have hmem := Checker.mem_of_entryStack (List.mem_of_getElem? hentry)
  have htyped : e.Typed := ((holds_session s d calls).fit.2 e hmem).typed
  rcases htakes.of_readonlyPointer htyped htag with ⟨op', f, rfl, hreceiver⟩ | hname
  · rcases Call.form_of_addressPlace? hop hplace hformed with ⟨x, hc⟩ | ⟨t, hc⟩ | ⟨f', hc⟩
    · cases hc
    · cases hc
    · cases hc
      exact Or.inl ⟨f, rfl, hreceiver⟩
  · exact Or.inr hname

end Verifier

/-! ### A store through a read-only pointer -/

/-- A value type with a field that anyone may write. -/
def point : Ty := .plainValue "Point" .valueType

def pointX : Field where
  name := "x"
  declaringType := point
  type := .int32
  isStatic := false

/-- A point that only the constructor of its class may write. -/
def origin : Field where
  name := "origin"
  declaringType := .plainClass "Shapes" (some .object)
  type := point
  isStatic := true
  isInitOnly := true

def moverSubject : Subject where
  method := { name := "Main", declaringType := .plainClass "Program" (some .object), parameters := [],
              returnType := none, isStatic := true }

/-- Takes the address of the origin, and then a number to store. -/
def moveOrigin : List Call :=
  [.field .ldsflda origin, .emit .ldcI41 .none]

/-- A method that is no constructor writes to the origin: the address is read-only, and the store is
accepted because the field it names belongs to a value type. -/
theorem Verifier.stores_readonly :
    ∃ v' e, Sink.step (.field .stfld pointX)
        (Sink.session moveOrigin (start moverSubject ({} : Discard))).2 = .ok none v' ∧
      (Sink.session moveOrigin (start moverSubject ({} : Discard))).2.checker.entryStack.entries[1]?
        = some e ∧
      e.tag = .readonlyPointer ∧ pointX.declaringType.isValueType = true ∧
      ((∃ f, Call.field .stfld pointX = .field .stfld f ∧
          (f.declaringType.isValueType = true ∨ f.declaringType.dataType = .readonlyPointer)) ∨
        ∃ t w, e.concrete = some t ∧ (Call.field .stfld pointX).addressType? = some w ∧
          t.name = w.name) := by
  obtain ⟨v', hstep⟩ : ∃ v', Sink.step (.field .stfld pointX)
      (Sink.session moveOrigin (start moverSubject ({} : Discard))).2 = .ok none v' := ⟨_, rfl⟩
  obtain ⟨e, hentry, hreadonly⟩ :=
    mutable_of_store moverSubject ({} : Discard) moveOrigin rfl rfl hstep
  have htag : e.tag = .readonlyPointer := by
    cases hentry
    rfl
  exact ⟨v', e, hstep, hentry, htag, rfl, hreadonly htag⟩

end Cil
