/-
Subtyping over a hierarchy of types.

Types are told apart by name, so subtyping is well behaved only where a name means one type.  A
hierarchy is a set of types in which that is so and which holds with every type what the type derives
from, what it implements and what it has for elements (`Hierarchy`).

In a hierarchy every shape of type keeps to itself.  An object stands only for objects, a value type
only for itself, and a pointer only for pointers to the same type.  So where a value of one type is
wanted, a value of another is usable just if both have the same stack type, read-only pointers apart
(`isAssignable_iff_stackType`): the walk over bases and interfaces never leaves a stack type.

Subtyping is an order there.  Transitivity goes by induction on the first type, along the rule by which
it stands for the second.  Antisymmetry follows from it, for a class that stands for a type which in turn
stands for the class would stand for its own base, which is a part of it.
-/
import Cil.Stack
import Mathlib.Data.List.Nodup
import Mathlib.Data.Set.Defs

namespace Cil

namespace Ty

/-- Is the type one that derives from others by name? -/
def isNominal : Ty → Bool
  | classType .. | interfaceType .. => true
  | valueType .. | array _ | pointer .. => false

def isInterface : Ty → Bool
  | interfaceType .. => true
  | _ => false

/-- Are the values objects? -/
def isObject : Ty → Bool
  | classType .. | interfaceType .. | array _ => true
  | valueType .. | pointer .. => false

/-- What the type derives from and what it implements. -/
def parents (t : Ty) : List Ty :=
  t.base?.toList ++ t.interfaces

theorem isObject_of_isNominal {t : Ty} (h : t.isNominal = true) : t.isObject = true := by
  cases t <;> first | rfl | exact nomatch h

theorem isPointer_of_isObject {t : Ty} (h : t.isObject = true) : t.isPointer = false := by
  cases t <;> first | rfl | exact nomatch h

theorem isValueType_of_isObject {t : Ty} (h : t.isObject = true) : t.isValueType = false := by
  cases t <;> first | rfl | exact nomatch h

theorem isObject_of_isInterface {t : Ty} (h : t.isInterface = true) : t.isObject = true := by
  cases t <;> first | rfl | exact nomatch h

theorem stackType_of_isObject {t : Ty} (h : t.isObject = true) : t.stackType = .object := by
  cases t <;> first | rfl | exact nomatch h

/-! ### Parts of a type -/

/-- What a class or an interface derives from or implements is a part of it. -/
theorem sizeOf_lt_of_mem_parents {t p : Ty} (ht : t.isNominal = true) (hp : p ∈ t.parents) :
    sizeOf p < sizeOf t := by
  cases t with
  | classType name base is g =>
    rcases List.mem_append.mp hp with hbase | his
    · cases base with
      | none => exact absurd hbase List.not_mem_nil
      | some b =>
        obtain rfl : p = b := List.mem_singleton.mp hbase
        simp only [classType.sizeOf_spec, Option.some.sizeOf_spec]
        omega
    · have hlt := List.sizeOf_lt_of_mem his
      simp only [classType.sizeOf_spec, interfaces] at hlt ⊢
      omega
  | interfaceType name is g =>
    have hlt := List.sizeOf_lt_of_mem (show p ∈ is from hp)
    simp only [interfaceType.sizeOf_spec]
    omega
  | _ => exact nomatch ht

/-- Induction along the rules of subtyping. -/
@[elab_as_elim]
theorem induction_on_rules {motive : Ty → Prop}
    (nominal : ∀ t, t.isNominal = true → (∀ p ∈ t.parents, motive p) → motive t)
    (value : ∀ name d is g, motive (valueType name d is g))
    (array : ∀ e, motive e → motive (array e))
    (pointer : ∀ e mutable, motive (pointer e mutable)) (t : Ty) : motive t := by
  by_cases ht : t.isNominal = true
  · exact nominal t ht fun p hp => induction_on_rules nominal value array pointer p
  · cases t with
    | classType name base is g => exact absurd rfl ht
    | interfaceType name is g => exact absurd rfl ht
    | valueType name d is g => exact value name d is g
    | array e => exact array e (induction_on_rules nominal value array pointer e)
    | pointer e mutable => exact pointer e mutable
termination_by sizeOf t
decreasing_by
  · exact sizeOf_lt_of_mem_parents ht hp
  · simp

/-! ### The rules -/

section

variable {s t : Ty}

theorem isAnySubtype_iff {ss : List Ty} :
    isAnySubtype ss t = true ↔ ∃ s ∈ ss, s.isSubtype t = true := by
  induction ss with
  | nil => simp [isAnySubtype]
  | cons s rest ih => simp [isAnySubtype, ih]

theorem isSubtype_nominal (hs : s.isNominal = true) :
    s.isSubtype t = true ↔ s.name = t.name ∨
      t.isPointer = false ∧ (t.name = object.name ∨ ∃ p ∈ s.parents, p.isSubtype t = true) := by
  cases s with
  | classType name base is g =>
    cases base <;>
      simp [isSubtype, isBaseSubtype, isAnySubtype_iff, parents, base?, interfaces, or_assoc]
  | interfaceType name is g => simp [isSubtype, isAnySubtype_iff, parents, base?, interfaces]
  | _ => exact nomatch hs

theorem isSubtype_value (hs : s.isValueType = true) :
    s.isSubtype t = true ↔ s.name = t.name ∨
      t.isValueType = true ∧ (t.name = valueTypeBase.name ∨ t.name = object.name ∨
        ∃ i ∈ s.interfaces, i.isSubtype t = true) := by
  cases s with
  | valueType name d is g => simp [isSubtype, isAnySubtype_iff, interfaces, or_assoc]
  | _ => exact nomatch hs

theorem isSubtype_array {e : Ty} :
    (array e).isSubtype t = true ↔ (array e).name = t.name ∨
      t.isPointer = false ∧ (t.name = arrayBase.name ∨ t.name = object.name ∨
        ∃ e', t = array e' ∧ e.isReference = true ∧ e'.isReference = true ∧
          e.isSubtype e' = true) := by
  cases t <;> simp [isSubtype, or_assoc, and_assoc]

theorem isSubtype_pointer {e : Ty} {mutable : Bool} :
    (pointer e mutable).isSubtype t = true ↔ (pointer e mutable).name = t.name ∨
      ∃ e' mutable', t = pointer e' mutable' ∧ e.name = e'.name ∧
        (mutable = true ∨ mutable' = false) := by
  cases t with
  | pointer e' mutable' => cases mutable' <;> simp [isSubtype]
  | _ => simp [isSubtype]

theorem isSubtype_self (t : Ty) : t.isSubtype t = true := by
  cases t <;> simp [isSubtype]

theorem isSubtype_object : object.isSubtype t = true ↔ t.name = object.name := by
  have hparents : object.parents = [] := rfl
  rw [isSubtype_nominal rfl, hparents, eq_comm]
  simp

theorem isSubtype_arrayBase :
    arrayBase.isSubtype t = true ↔ t.name = arrayBase.name ∨
      t.isPointer = false ∧ t.name = object.name := by
  have hparents : arrayBase.parents = [object] := rfl
  rw [isSubtype_nominal rfl, hparents, eq_comm]
  simp [isSubtype_object]

end

/-! ### Hierarchies -/

/-- A set of types in which a name means one type, and which holds with every type what the type derives
from, what it implements and what it has for elements. -/
structure Hierarchy (U : Set Ty) : Prop where
  parents : ∀ t ∈ U, ∀ p ∈ t.parents, p ∈ U
  elements : ∀ t ∈ U, ∀ e, t.element? = some e → e ∈ U
  names : ∀ s ∈ U, ∀ t ∈ U, s.name = t.name → s = t
  /-- Classes and interfaces derive from objects and implement objects. -/
  objects : ∀ t ∈ U, t.isNominal = true → ∀ p ∈ t.parents, p.isObject = true
  /-- Value types implement interfaces. -/
  interfaces : ∀ t ∈ U, t.isValueType = true → ∀ i ∈ t.interfaces, i.isInterface = true

/-! A hierarchy with a class that derives from an array, and with a value type that implements an
interface. -/

def shape : Ty := interfaceType "Shape" [] false

def square : Ty := classType "Square" (some object) [shape] false

def squares : Ty := classType "Squares" (some (array square)) [] false

def spot : Ty := valueType "Spot" .valueType [shape] false

def figures : List Ty :=
  [object, valueTypeBase, arrayBase, shape, square, array shape, array square, squares, spot,
    pointer spot true, pointer spot false]

/-- No two figures and no figure and another builtin type share a name. -/
theorem eq_of_name_figures : ∀ s ∈ figures ++ builtins.drop 3, ∀ t ∈ figures ++ builtins.drop 3,
    s.name = t.name → s = t := by
  have hnodup : ((figures ++ builtins.drop 3).map name).Nodup := by decide
  exact fun s hs t ht => List.inj_on_of_nodup_map hnodup hs ht

theorem hierarchy_figures : Hierarchy {t | t ∈ figures} where
  parents := by
    have hparents : ∀ t ∈ figures, t.parents ⊆ figures := by
      simp [figures, parents, base?, interfaces, object, plainClass, valueTypeBase, arrayBase, shape,
        square, squares, spot]
    exact fun t ht p hp => hparents t ht hp
  elements := by
    have helements : ∀ t ∈ figures, t.element?.toList ⊆ figures := by
      simp [figures, element?, object, plainClass, valueTypeBase, arrayBase, shape, square, squares, spot]
    exact fun t ht e he => helements t ht (by simp [he])
  names := fun s hs t ht =>
    eq_of_name_figures s (List.mem_append_left _ hs) t (List.mem_append_left _ ht)
  objects := by
    have hobjects : ∀ t ∈ figures, t.isNominal = true → ∀ p ∈ t.parents, p.isObject = true := by decide
    exact hobjects
  interfaces := by
    have hinterfaces : ∀ t ∈ figures, t.isValueType = true →
        ∀ i ∈ t.interfaces, i.isInterface = true := by decide
    exact hinterfaces

/-! ### Shapes of types keep to themselves -/

namespace Hierarchy

variable {U : Set Ty} {s t u : Ty}

theorem valueTypeBase_mem (hU : Hierarchy U) (ht : t ∈ U) (hvalue : t.isValueType = true) :
    valueTypeBase ∈ U := by
  refine hU.parents t ht valueTypeBase ?_
  cases t with
  | valueType name d is g => exact List.mem_cons_self
  | _ => exact nomatch hvalue

/-- Every value type brings in the root, from which the base of all value types derives. -/
theorem object_mem (hU : Hierarchy U) (ht : t ∈ U) (hvalue : t.isValueType = true) : object ∈ U :=
  hU.parents valueTypeBase (hU.valueTypeBase_mem ht hvalue) object List.mem_cons_self

theorem arrayBase_mem (hU : Hierarchy U) {e : Ty} (he : array e ∈ U) : arrayBase ∈ U :=
  hU.parents (array e) he arrayBase List.mem_cons_self

/-- No value type has the name of the root. -/
theorem isObject_of_name (hU : Hierarchy U) (ht : t ∈ U) (hpointer : t.isPointer = false)
    (hname : t.name = object.name) : t.isObject = true := by
  cases t with
  | valueType name d is g => exact nomatch hU.names _ ht object (hU.object_mem ht rfl) hname
  | pointer e mutable => exact nomatch hpointer
  | _ => rfl

/-- **An object stands only for objects.** -/
theorem isObject_of_isSubtype (hU : Hierarchy U) (hs : s ∈ U) (ht : t ∈ U)
    (hobject : s.isObject = true) (h : s.isSubtype t = true) : t.isObject = true := by
  induction s using induction_on_rules with
  | nominal s hnominal ih =>
    rcases (isSubtype_nominal hnominal).mp h with hname | ⟨hpointer, hroot | ⟨p, hp, hpt⟩⟩
    · exact hU.names s hs t ht hname ▸ hobject
    · exact hU.isObject_of_name ht hpointer hroot
    · exact ih p hp (hU.parents s hs p hp) (hU.objects s hs hnominal p hp) hpt
  | array e _ =>
    rcases isSubtype_array.mp h with hname | ⟨hpointer, hbase | hroot | ⟨e', rfl, -⟩⟩
    · exact hU.names _ hs t ht hname ▸ rfl
    · exact hU.names t ht _ (hU.arrayBase_mem hs) hbase ▸ rfl
    · exact hU.isObject_of_name ht hpointer hroot
    · rfl
  | value name d is g => exact nomatch hobject
  | pointer e mutable => exact nomatch hobject

/-- **A value type stands only for itself.**  Its interfaces are objects, and so is all they stand for. -/
theorem eq_of_isSubtype_value (hU : Hierarchy U) (hs : s ∈ U) (ht : t ∈ U)
    (hvalue : s.isValueType = true) (h : s.isSubtype t = true) : s = t := by
  rcases (isSubtype_value hvalue).mp h with hname | ⟨htvalue, hother⟩
  · exact hU.names s hs t ht hname
  have hobject : t.isObject = true := by
    rcases hother with hbase | hroot | ⟨i, hi, hit⟩
    · exact hU.names t ht _ (hU.valueTypeBase_mem ht htvalue) hbase ▸ rfl
    · exact hU.names t ht _ (hU.object_mem ht htvalue) hroot ▸ rfl
    · have himem : i ∈ U := hU.parents s hs i (List.mem_append_right _ hi)
      have hinterface := isObject_of_isInterface (hU.interfaces s hs hvalue i hi)
      exact hU.isObject_of_isSubtype himem ht hinterface hit
  rw [isValueType_of_isObject hobject] at htvalue
  cases htvalue

/-- What a type stands for has the same stack type, unless a writable pointer stands for a read-only one. -/
theorem stackType_of_isSubtype (hU : Hierarchy U) (hs : s ∈ U) (ht : t ∈ U)
    (h : s.isSubtype t = true) : s.stackType = t.stackType ∨
      ∃ e e', s = .pointer e true ∧ t = .pointer e' false ∧ e.name = e'.name := by
  have hobject : s.isObject = true → s.stackType = t.stackType := by
    intro hs'
    rw [stackType_of_isObject hs', stackType_of_isObject (hU.isObject_of_isSubtype hs ht hs' h)]
  cases s with
  | classType name base is g => exact Or.inl (hobject rfl)
  | interfaceType name is g => exact Or.inl (hobject rfl)
  | array e => exact Or.inl (hobject rfl)
  | valueType name d is g => exact Or.inl (hU.eq_of_isSubtype_value hs ht rfl h ▸ rfl)
  | pointer e mutable =>
    rcases isSubtype_pointer.mp h with hname | ⟨e', mutable', rfl, helement, hmutable⟩
    · exact Or.inl (hU.names _ hs t ht hname ▸ rfl)
    · cases mutable with
      | true =>
        cases mutable' with
        | true => exact Or.inl rfl
        | false => exact Or.inr ⟨e, e', rfl, rfl, helement⟩
      | false =>
        obtain rfl : mutable' = false := by simpa using hmutable
        exact Or.inl rfl

/-- **Usability is a matter of stack types.**  In a hierarchy a value of one type is usable where another
type is wanted just if both have the same stack type, or if a writable pointer is given where a read-only
pointer to the same type is wanted.  A null reference is usable where an object reference is wanted. -/
theorem isAssignable_iff_stackType (hU : Hierarchy U) (ht : t ∈ U) (hu : u ∈ U) :
    ((Entry.of t).isAssignable u = true ↔ t.stackType = u.stackType ∨
      ∃ e e', t = .pointer e true ∧ u = .pointer e' false ∧ e.name = e'.name) ∧
    (Entry.null.isAssignable u = true ↔ u.dataType = .object) := by
  have hof : (Entry.of t).isAssignable u = true ↔
      t.isSubtype u = true ∨ u.stackType = t.stackType := by
    show (t.isSubtype u || decide (u.stackType = t.stackType)) = true ↔ _
    rw [Bool.or_eq_true, decide_eq_true_iff]
  have hnull : Entry.null.isAssignable u = u.isReference := rfl
  refine ⟨hof.trans ⟨?_, ?_⟩, ?_⟩
  · rintro (hsub | hstack)
    · exact hU.stackType_of_isSubtype ht hu hsub
    · exact Or.inl hstack.symm
  · rintro (hstack | ⟨e, e', rfl, rfl, helement⟩)
    · exact Or.inr hstack.symm
    · exact Or.inl (isSubtype_pointer.mpr (Or.inr ⟨e', false, rfl, helement, Or.inl rfl⟩))
  · rw [hnull, isReference, decide_eq_true_iff]

/-- A writable pointer is usable as a read-only one, but a read-only pointer is not usable as a writable
one. -/
theorem isAssignable_figures :
    (Entry.of (pointer spot true)).isAssignable (pointer spot false) = true ∧
      (Entry.of (pointer spot false)).isAssignable (pointer spot true) = false ∧
      Entry.null.isAssignable (array shape) = true := by
  have hread : pointer spot false ∈ figures := by simp [figures]
  have hwrite : pointer spot true ∈ figures := by simp [figures]
  have hshapes : array shape ∈ figures := by simp [figures]
  refine ⟨(hierarchy_figures.isAssignable_iff_stackType hwrite hread).1.mpr ?_, ?_,
    (hierarchy_figures.isAssignable_iff_stackType hread hshapes).2.mpr rfl⟩
  · exact Or.inr ⟨spot, spot, rfl, rfl, rfl⟩
  · refine Bool.eq_false_iff.mpr fun h => ?_
    rcases (hierarchy_figures.isAssignable_iff_stackType hread hwrite).1.mp h with hstack | ⟨e, e', he, -⟩
    · cases hstack
    · cases he

/-! ### Subtyping as an order -/

section

variable (hU : Hierarchy U) (hbuiltins : ∀ t ∈ U, ∀ b ∈ builtins, t.name = b.name → t = b)

include hbuiltins in
theorem eq_object_of_name (ht : t ∈ U) (hname : t.name = object.name) : t = object :=
  hbuiltins t ht object (by simp [builtins]) hname

include hU hbuiltins

theorem isSubtype_trans (hs : s ∈ U) (ht : t ∈ U) (hu : u ∈ U) (hst : s.isSubtype t = true)
    (htu : t.isSubtype u = true) : s.isSubtype u = true := by
  induction s using induction_on_rules generalizing t u with
  | nominal s hnominal ih =>
    have htobject := hU.isObject_of_isSubtype hs ht (isObject_of_isNominal hnominal) hst
    have huobject := hU.isObject_of_isSubtype ht hu htobject htu
    rcases (isSubtype_nominal hnominal).mp hst with hname | ⟨-, hname | ⟨p, hp, hpt⟩⟩
    · exact hU.names s hs t ht hname ▸ htu
    · rw [eq_object_of_name hbuiltins ht hname, isSubtype_object] at htu
      exact (isSubtype_nominal hnominal).mpr (Or.inr ⟨isPointer_of_isObject huobject, Or.inl htu⟩)
    · have hpu := ih p hp (hU.parents s hs p hp) ht hu hpt htu
      exact (isSubtype_nominal hnominal).mpr
        (Or.inr ⟨isPointer_of_isObject huobject, Or.inr ⟨p, hp, hpu⟩⟩)
  | value name d is g => exact hU.eq_of_isSubtype_value hs ht rfl hst ▸ htu
  | array e ih =>
    have htobject := hU.isObject_of_isSubtype hs ht rfl hst
    have hupointer := isPointer_of_isObject (hU.isObject_of_isSubtype ht hu htobject htu)
    rcases isSubtype_array.mp hst with hname | ⟨-, hname | hname | ⟨e', rfl, he, he', hee'⟩⟩
    · exact hU.names _ hs t ht hname ▸ htu
    · rw [hU.names t ht _ (hU.arrayBase_mem hs) hname, isSubtype_arrayBase] at htu
      rcases htu with hbase | ⟨-, hobject⟩
      · exact isSubtype_array.mpr (Or.inr ⟨hupointer, Or.inl hbase⟩)
      · exact isSubtype_array.mpr (Or.inr ⟨hupointer, Or.inr (Or.inl hobject)⟩)
    · rw [eq_object_of_name hbuiltins ht hname, isSubtype_object] at htu
      exact isSubtype_array.mpr (Or.inr ⟨hupointer, Or.inr (Or.inl htu)⟩)
    · rcases isSubtype_array.mp htu with hname | ⟨-, hbase | hobject | ⟨e'', rfl, -, he'', he'e''⟩⟩
      · exact hU.names _ ht u hu hname ▸ hst
      · exact isSubtype_array.mpr (Or.inr ⟨hupointer, Or.inl hbase⟩)
      · exact isSubtype_array.mpr (Or.inr ⟨hupointer, Or.inr (Or.inl hobject)⟩)
      · have hee'' := ih (hU.elements _ hs e rfl) (hU.elements _ ht e' rfl) (hU.elements _ hu e'' rfl)
          hee' he'e''
        exact isSubtype_array.mpr (Or.inr ⟨hupointer, Or.inr (Or.inr ⟨e'', rfl, he, he'', hee''⟩)⟩)
  | pointer e mutable =>
    rcases isSubtype_pointer.mp hst with hname | ⟨e', mutable', rfl, hee', hmutable⟩
    · exact hU.names _ hs t ht hname ▸ htu
    · rcases isSubtype_pointer.mp htu with hname | ⟨e'', mutable'', rfl, he'e'', hmutable'⟩
      · exact hU.names _ ht u hu hname ▸ hst
      · refine isSubtype_pointer.mpr (Or.inr ⟨e'', mutable'', rfl, hee'.trans he'e'', ?_⟩)
        rcases hmutable with hwritable | rfl
        · exact Or.inl hwritable
        · exact Or.inr (by simpa using hmutable')

theorem name_eq_of_isSubtype_both (hs : s ∈ U) (ht : t ∈ U) (hst : s.isSubtype t = true)
    (hts : t.isSubtype s = true) : s.name = t.name := by
  induction s using induction_on_rules generalizing t with
  | nominal s hnominal ih =>
    rcases (isSubtype_nominal hnominal).mp hst with hname | ⟨-, hname | ⟨p, hp, hpt⟩⟩
    · exact hname
    · rw [eq_object_of_name hbuiltins ht hname, isSubtype_object] at hts
      exact hts.trans hname.symm
    · -- The class would stand for its own base and the base for the class.
      have hpU := hU.parents s hs p hp
      have hps := hU.isSubtype_trans hbuiltins hpU ht hs hpt hts
      have hsp := (isSubtype_nominal hnominal).mpr (Or.inr
        ⟨isPointer_of_isObject (hU.objects s hs hnominal p hp), Or.inr ⟨p, hp, isSubtype_self p⟩⟩)
      have hsame : p = s := hU.names p hpU s hs (ih p hp hpU hs hps hsp)
      have hpart := sizeOf_lt_of_mem_parents hnominal hp
      rw [hsame] at hpart
      exact absurd hpart (Nat.lt_irrefl _)
  | value name d is g => exact congrArg Ty.name (hU.eq_of_isSubtype_value hs ht rfl hst)
  | array e ih =>
    rcases isSubtype_array.mp hst with hname | ⟨-, hname | hname | ⟨e', rfl, -, -, hee'⟩⟩
    · exact hname
    · rw [hU.names t ht _ (hU.arrayBase_mem hs) hname, isSubtype_arrayBase] at hts
      rcases hts with hbase | ⟨-, hroot⟩
      · exact hbase.trans hname.symm
      · exact nomatch eq_object_of_name hbuiltins hs hroot
    · rw [eq_object_of_name hbuiltins ht hname, isSubtype_object] at hts
      exact hts.trans hname.symm
    · rcases isSubtype_array.mp hts with hname | ⟨-, hbase | hroot | ⟨e'', he'', -, -, he'e⟩⟩
      · exact hname.symm
      · exact nomatch hU.names _ hs _ (hU.arrayBase_mem hs) hbase
      · exact nomatch eq_object_of_name hbuiltins hs hroot
      · cases he''
        have helement := ih (hU.elements _ hs e rfl) (hU.elements _ ht e' rfl) hee' he'e
        show e.name ++ "[]" = e'.name ++ "[]"
        rw [helement]
  | pointer e mutable =>
    rcases isSubtype_pointer.mp hst with hname | ⟨e', mutable', rfl, hee', hmutable⟩
    · exact hname
    · rcases isSubtype_pointer.mp hts with hname | ⟨e'', mutable'', he'', -, hmutable'⟩
      · exact hname.symm
      · cases he''
        have hsame : mutable = mutable' := by cases mutable <;> cases mutable' <;> simp_all
        rw [hsame, name, name, hee']

/-- **Subtyping is an order.**  In a hierarchy whose builtin names mean the builtin types, every type
stands for itself, what stands for a type stands for all that it stands for, and two types that stand for
each other have one name. -/
theorem isSubtype_order :
    (∀ t ∈ U, t.isSubtype t = true) ∧
    (∀ s ∈ U, ∀ t ∈ U, ∀ u ∈ U, s.isSubtype t = true → t.isSubtype u = true →
      s.isSubtype u = true) ∧
    ∀ s ∈ U, ∀ t ∈ U, s.isSubtype t = true → t.isSubtype s = true → s.name = t.name := by
  refine ⟨fun t _ => isSubtype_self t, ?_, ?_⟩
  · intro s hs t ht u hu hst htu
    exact hU.isSubtype_trans hbuiltins hs ht hu hst htu
  · intro s hs t ht hst hts
    exact hU.name_eq_of_isSubtype_both hbuiltins hs ht hst hts

end

/-- A class that derives from an array stands for what the array stands for. -/
theorem isSubtype_order_figures :
    squares.isSubtype (array square) = true ∧ (array square).isSubtype (array shape) = true ∧
      squares.isSubtype (array shape) = true := by
  have hbuiltins : ∀ t ∈ figures, ∀ b ∈ builtins, t.name = b.name → t = b := by
    intro t ht b hb
    refine eq_of_name_figures t (List.mem_append_left _ ht) b ?_
    have hsplit : builtins = [object, valueTypeBase, arrayBase] ++ builtins.drop 3 := rfl
    rw [hsplit] at hb
    rcases List.mem_append.mp hb with hroot | hother
    · exact List.mem_append_left _ (List.mem_append_left _ hroot)
    · exact List.mem_append_right _ hother
  obtain ⟨-, htrans, -⟩ := Hierarchy.isSubtype_order hierarchy_figures hbuiltins
  have hbase : squares.isSubtype (array square) = true := by decide
  have hcovariant : (array square).isSubtype (array shape) = true := by decide
  have hsquares : squares ∈ figures := by simp [figures]
  have hsquareArray : array square ∈ figures := by simp [figures]
  have hshapeArray : array shape ∈ figures := by simp [figures]
  exact ⟨hbase, hcovariant, htrans _ hsquares _ hsquareArray _ hshapeArray hbase hcovariant⟩

end Hierarchy

end Ty

end Cil
