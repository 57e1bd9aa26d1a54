/-
Fields that only constructors may write.

An init-only field is guarded where its address is taken: outside the constructors of the type that
declares it `ldflda` and `ldsflda` give a read-only pointer.  Nothing guards it where it is stored to by
name.  The rule of `stfld` and `stsfld` looks at the value and at the instance, but neither at whether the
field is init-only nor at the method (`fieldAccess_store_ok`), so a store that is accepted anywhere is
accepted for an init-only field and in any method.
-/
import Cil.Proofs.Verifier.Paths
import Cil.Proofs.Verifier.Stores

namespace Cil

/-- Is the method a constructor, of instances or of the type itself, of the type that declares the
field? -/
def Method.Constructs (m : Method) (f : Field) : Prop :=
  (m.isConstructor = true ∨ m.name = ".cctor") ∧ m.declaringType.name = f.declaringType.name

theorem Frame.constructs_iff {f : Frame} {field : Field} :
    f.constructs field = true ↔ f.method.Constructs field := by
  simp [constructs, Method.Constructs]

/-- The stack type of a field's address. -/
theorem Transition.tag_address (f : Frame) (field : Field) :
    (Entry.of (.pointer field.type (addressMutable f field))).tag = .readonlyPointer ↔
      field.isInitOnly = true ∧ ¬ f.method.Constructs field := by
  have hmutable : addressMutable f field = true ↔
      field.isInitOnly = false ∨ f.method.Constructs field := by
    simp [addressMutable, Frame.constructs_iff]
  have htag : (Entry.of (.pointer field.type (addressMutable f field))).tag = .readonlyPointer ↔
      ¬ addressMutable f field = true := by
    cases addressMutable f field <;> simp [Entry.of, Ty.stackType, Ty.dataType, DataType.stackType]
  rw [htag, hmutable]
  simp

/-! ### Rules for fields -/

namespace Transition

variable {op : Opcode} {f : Frame} {static : Bool} {field : Field} {s s' : Stack}

/-- Taking the address of a field leaves a pointer on top. -/
theorem entries_of_fieldAccess_address
    (h : fieldAccess f op .address static field s = .ok () s') :
    ∃ rest, s'.entries = .of (.pointer field.type (addressMutable f field)) :: rest := by
  have hpush : ∀ {s : Stack}, pushType op (.pointer field.type (addressMutable f field)) s = .ok () s' →
      ∃ rest, s'.entries = .of (.pointer field.type (addressMutable f field)) :: rest := by
    intro s hs
    obtain ⟨-, rfl⟩ := push_ok.mp hs
    exact ⟨s.entries, rfl⟩
  unfold fieldAccess at h
  dsimp only at h
  rw [guard_ok, guard_ok, if_neg nofun] at h
  obtain ⟨-, -, h⟩ := h
  by_cases hstatic : static = true
  · rw [if_neg (by simp [hstatic])] at h
    exact hpush h
  · rw [if_pos (by simp [hstatic])] at h
    obtain ⟨⟨⟩, s₁, -, hs₁⟩ := Step.bind_ok.mp h
    exact hpush hs₁

end Transition

/-! ### Sessions -/

namespace Checker

/-- The same state in the course of another method. -/
def inMethod (k : Checker) (m : Method) : Checker :=
  { k with subject := { k.subject with method := m } }

theorem entryStack_inMethod (k : Checker) (m : Method) : (k.inMethod m).entryStack = k.entryStack := by
  unfold entryStack enter inMethod
  by_cases hreachable : k.reachable = true <;> simp [hreachable]

/-- A store is accepted whether or not the field is init-only, and whatever the method. -/
theorem accept_store {op : Opcode} {static : Bool} {f : Field} {k k' : Checker}
    (hop : op.category = .field .store static) (h : accept (.field op f) k = .ok (.field op f) k')
    (initOnly : Bool) (m : Method) :
    accept (.field op { f with isInitOnly := initOnly }) (k.inMethod m)
      = .ok (.field op { f with isInitOnly := initOnly }) (k'.inMethod m) := by
  obtain ⟨hformed, hinstr, -⟩ := (accept_instruction rfl).mp h
  obtain ⟨hadmits, transition, s, t, hrule, hs, hreach, rfl⟩ := instruction_ok.mp hinstr
  have hrule₀ : ∀ (member : Field) (frame : Frame), (Call.field op member).rule? frame
      = some (Transition.fieldAccess frame op .store static member) := by
    intro member frame
    show Transition.ofField op member frame = _
    rw [Transition.ofField, hop]
  obtain rfl := Option.some.inj ((hrule₀ _ _).symm.trans hrule)
  refine (accept_instruction rfl).mpr ⟨hformed, instruction_ok.mpr ⟨hadmits, _, s, t, hrule₀ _ _, ?_,
    hreach, rfl⟩, rfl⟩
  rw [entryStack_inMethod]
  have hstore := Transition.fieldAccess_store_ok.mp hs
  exact Transition.fieldAccess_store_ok.mpr hstore

/-- Nothing changes the method that is checked. -/
theorem stable_subject (s : Subject) (c : Call) : Stable (fun k => k.subject = s) c where
  begins := by
    intro op
    refine Step.keeps_bind (Q := fun _ => True) (Step.keeps_modify trivial fun k hk => ?_) fun _ _ => ?_
    · exact (enter_unchanged k []).1.trans hk
    · refine Step.keeps_bind (Q := fun _ => True)
        (Step.keeps_modify trivial fun k hk => hk) fun _ _ => ?_
      exact keeps_takePrefixes fun k pending hk => hk
  runs := fun _ _ _ => keeps_onStack fun k => Step.keeps_const (p := k.subject = s)
  reaches := by
    intro targets
    refine Step.keeps_bind Step.keeps_get fun k _ => ?_
    refine Step.keeps_forM trivial fun target _ => ?_
    exact keeps_onLabels fun k => Step.keeps_const (p := k.subject = s)
  ends := Step.keeps_modify trivial fun k hk => hk
  marks := by
    intro index
    refine Step.keeps_bind (keeps_onLabels fun k => Step.keeps_const (p := k.subject = s)) fun _ _ => ?_
    refine Step.keeps_bind Stable.keeps_label fun l _ => ?_
    refine Step.keeps_bind (Q := fun _ => True) (Step.keeps_modify trivial fun k hk => ?_) fun _ _ => ?_
    · exact (enter_unchanged k _).1.trans hk
    · refine Step.keeps_bind Step.keeps_get fun k _ => ?_
      refine Step.keeps_bind (keeps_onLabels fun k => Step.keeps_const (p := k.subject = s)) fun _ _ => ?_
      exact Step.keeps_pure trivial

end Checker

namespace Verifier

variable {δ : Type} [Sink δ]

theorem subject_session (s : Subject) (d : δ) (calls : List Call) :
    (Sink.session calls (start s d)).2.checker.subject = s := by
  refine keeps_session (fun c _ => Checker.stable_subject s c) ?_ rfl
  intro c _ reply k hk
  cases c <;> exact hk

/-- **An init-only field is guarded where its address is taken, and not where it is stored to.**  In any
session an accepted `ldflda` or `ldsflda` leaves a read-only pointer on top just if the field is init-only
and the method is no constructor of the type that declares it.  A store to a field that the verifier
accepts it accepts as well if the field is init-only, and in every method. -/
theorem initOnly_guards_address (s : Subject) (d : δ) (calls : List Call) (f : Field) :
    (∀ op reply v', op = .ldflda ∨ op = .ldsflda →
      Sink.step (.field op f) (Sink.session calls (start s d)).2 = .ok reply v' →
      ∃ e rest, v'.checker.stack.entries = e :: rest ∧
        (e.tag = .readonlyPointer ↔ f.isInitOnly = true ∧ ¬ s.method.Constructs f)) ∧
    ∀ op k', op = .stfld ∨ op = .stsfld →
      Checker.accept (.field op f) (Sink.session calls (start s d)).2.checker = .ok (.field op f) k' →
      ∀ initOnly m, Checker.accept (.field op { f with isInitOnly := initOnly })
          ((Sink.session calls (start s d)).2.checker.inMethod m)
        = .ok (.field op { f with isInitOnly := initOnly }) (k'.inMethod m) := by
  constructor
  · intro op reply v' hop hstep
    obtain ⟨static, hcategory⟩ : ∃ static, op.category = .field .address static := by
      rcases hop with rfl | rfl
      · exact ⟨false, rfl⟩
      · exact ⟨true, rfl⟩
    obtain ⟨c', haccept⟩ := accept_of_step rfl hstep
    obtain ⟨-, hinstr, -⟩ := (Checker.accept_instruction rfl).mp haccept
    obtain ⟨-, transition, s₁, t₁, hrule, hs, -, hv'⟩ := Checker.instruction_ok.mp hinstr
    change Transition.ofField op f _ = some transition at hrule
    rw [Transition.ofField, hcategory, Option.some.injEq] at hrule
    subst hrule
    obtain ⟨rest, hrest⟩ := Transition.entries_of_fieldAccess_address hs
    refine ⟨_, rest, by rw [← hv']; exact hrest, ?_⟩
    rw [Transition.tag_address, Checker.frame, subject_session]
  · intro op k' hop haccept initOnly m
    rcases hop with rfl | rfl
    · exact Checker.accept_store rfl haccept initOnly m
    · exact Checker.accept_store rfl haccept initOnly m

/-! A method of another class takes the address of a number that only the constructors of its class may
write, and stores to it. -/

def shapeCount : Field where
  name := "count"
  declaringType := .plainClass "Shapes" (some .object)
  type := .int32
  isStatic := true
  isInitOnly := true

/-- A number is ready to be stored. -/
def counting : Verifier Discard :=
  (Sink.session [.emit .ldcI41 .none] (start moverSubject ({} : Discard))).2

/-- The address is read-only, and the store is accepted. -/
theorem stores_initOnly :
    ¬ moverSubject.method.Constructs shapeCount ∧
    (∃ v' e rest, Sink.step (.field .ldsflda shapeCount) counting = .ok none v' ∧
      v'.checker.stack.entries = e :: rest ∧ e.tag = .readonlyPointer) ∧
    (∃ v', Sink.step (.field .stsfld shapeCount) counting = .ok none v') ∧
    ∃ k', Checker.accept (.field .stsfld shapeCount) counting.checker
        = .ok (.field .stsfld shapeCount) k' ∧
      ∀ initOnly m,
        Checker.accept (.field .stsfld { shapeCount with isInitOnly := initOnly })
            (counting.checker.inMethod m)
          = .ok (.field .stsfld { shapeCount with isInitOnly := initOnly }) (k'.inMethod m) := by
  have hother : ¬ moverSubject.method.Constructs shapeCount := by
    simp [Method.Constructs, moverSubject, shapeCount]
  obtain ⟨haddress, hstore⟩ := initOnly_guards_address moverSubject ({} : Discard)
    [.emit .ldcI41 .none] shapeCount
  obtain ⟨v', hstep⟩ : ∃ v', Sink.step (.field .ldsflda shapeCount) counting = .ok none v' := ⟨_, rfl⟩
  obtain ⟨e, rest, hentries, hreadonly⟩ := haddress .ldsflda none v' (Or.inr rfl) hstep
  obtain ⟨k', haccept⟩ : ∃ k', Checker.accept (.field .stsfld shapeCount) counting.checker
      = .ok (.field .stsfld shapeCount) k' := ⟨_, rfl⟩
  have htag := hreadonly.mpr ⟨rfl, hother⟩
  refine ⟨hother, ⟨v', e, rest, hstep, hentries, htag⟩, ⟨_, rfl⟩, k', haccept, ?_⟩
  exact hstore .stsfld k' (Or.inr rfl) haccept

end Verifier

end Cil
