/-
The names of types.

A type can be found by several names: by its own, by an alias, and, if it is an array or a pointer, by
the names of its element with any white space before the suffix.  Whatever name it was found by, the name
that it carries finds a type of that name again.

Two things make this hold.  A name that ends in a suffix is no alias, so a type that is registered under
such a name has that name itself.  And the name of an element never ends in white space, because it was
found by a name that was trimmed, so that putting the suffix back and taking it off again loses nothing.
-/
import Cil.Ty.Environment
import Mathlib.Data.List.DropRight

namespace Cil

namespace Environment

/-! ### Definitions -/

/-- Something that is added to an environment. -/
inductive Definition where
  | type (t : Ty)
  | method (m : Method)
  | field (f : Field)

def define (env : Environment) : Definition → Environment
  | .type t => env.defineType t
  | .method m => env.defineMethod m
  | .field f => env.defineField f

/-- The initial environment after some definitions. -/
def after (definitions : List Definition) : Environment :=
  definitions.foldl define initial

/-- What holds of the registered types: each is found by its own name or by an alias, and by its own name
a type of that name is found. -/
structure Registered (env : Environment) : Prop where
  named : ∀ {n t}, env.types.lookup n = some t → t.name = n ∨ (n, t) ∈ aliases
  kept : ∀ {n t}, env.types.lookup n = some t → (env.types.lookup t.name).map Ty.name = some t.name

theorem mem_of_lookup {l : List (String × Ty)} {n : String} {t : Ty} (h : l.lookup n = some t) :
    (n, t) ∈ l := by
  obtain ⟨front, back, rfl, -⟩ := List.lookup_eq_some_iff.mp h
  simp

theorem registered_initial : Registered initial where
  named := by
    intro n t h
    rw [initial, List.lookup_append, Option.or_eq_some_iff] at h
    rcases h with h | ⟨-, h⟩
    · exact Or.inr (mem_of_lookup h)
    · obtain ⟨u, -, hu⟩ := List.mem_map.mp (mem_of_lookup h)
      cases hu
      exact Or.inl rfl
  kept := by
    intro n t h
    have hall : initial.types.all (fun p =>
        (initial.types.lookup p.2.name).map Ty.name == some p.2.name) = true := by decide +kernel
    simpa using List.all_eq_true.mp hall _ (mem_of_lookup h)

theorem lookup_defineType (env : Environment) (s : Ty) (n : String) :
    (env.defineType s).types.lookup n = if n = s.name then some s else env.types.lookup n := by
  by_cases hn : n = s.name
  · simp [defineType, hn]
  · have hne : (n == s.name) = false := by simpa using hn
    simp [defineType, List.lookup_cons, hne, hn]

/-- A later definition takes the place of those before it, under its own name only. -/
theorem Registered.defineType {env : Environment} (h : Registered env) (s : Ty) :
    Registered (env.defineType s) where
  named := by
    intro n t hn
    rw [lookup_defineType] at hn
    by_cases hs : n = s.name
    · simp [hs] at hn
      simp [← hn, hs]
    · simp [hs] at hn
      exact h.named hn
  kept := by
    intro n t hn
    rw [lookup_defineType] at hn ⊢
    by_cases ht : t.name = s.name
    · simp [ht]
    · have hs : n ≠ s.name := by
        intro heq
        simp [heq] at hn
        exact ht (by rw [hn])
      simp only [if_neg hs] at hn
      simpa [ht] using h.kept hn

theorem Registered.define {env : Environment} (h : Registered env) (d : Definition) :
    Registered (env.define d) := by
  cases d with
  | type t => exact h.defineType t
  | method m => exact ⟨h.named, h.kept⟩
  | field f => exact ⟨h.named, h.kept⟩

theorem registered_after (definitions : List Definition) : Registered (after definitions) := by
  have hfold : ∀ (ds : List Definition) (env : Environment), Registered env →
      Registered (ds.foldl Environment.define env) := by
    intro ds
    induction ds with
    | nil => intro env henv; exact henv
    | cons d rest ih => intro env henv; exact ih _ (henv.define d)
  exact hfold definitions initial registered_initial

/-! ### Resolving -/

variable {env : Environment} {reversed : List Char} {t : Ty}

/-- The name, read backwards, does not end in white space. -/
def Trimmed (reversed : List Char) : Prop := reversed.dropWhile Text.isBlank = reversed

/-- By the name a type of that very name is found. -/
def Resolves (env : Environment) (n : String) : Prop :=
  ∃ u, env.typeNamed? n = some u ∧ u.name = n

theorem resolveReversed_of_lookup (h : env.types.lookup (String.ofList reversed.reverse) = some t) :
    env.resolveReversed reversed = some t := by
  unfold resolveReversed
  rw [h]

theorem resolveReversed_array {rest : List Char}
    (h : env.types.lookup (String.ofList (']' :: '[' :: rest).reverse) = none) :
    env.resolveReversed (']' :: '[' :: rest)
      = (env.resolveReversed (rest.dropWhile Text.isBlank)).map .array := by
  rw [resolveReversed, h]

theorem resolveReversed_pointer {rest : List Char}
    (h : env.types.lookup (String.ofList ('&' :: rest).reverse) = none) :
    env.resolveReversed ('&' :: rest)
      = (env.resolveReversed (rest.dropWhile Text.isBlank)).map (.pointer · true) := by
  rw [resolveReversed, h]

/-- How a type is found by a name that is read backwards. -/
inductive Finds (env : Environment) : List Char → Ty → Prop
  | registered {reversed : List Char} {t : Ty}
      (h : env.types.lookup (String.ofList reversed.reverse) = some t) : Finds env reversed t
  | array {rest : List Char} {e : Ty} (h : Finds env (rest.dropWhile Text.isBlank) e) :
      Finds env (']' :: '[' :: rest) (.array e)
  | pointer {rest : List Char} {e : Ty} (h : Finds env (rest.dropWhile Text.isBlank) e) :
      Finds env ('&' :: rest) (.pointer e true)

theorem finds_of_resolveReversed (reversed : List Char) (t : Ty)
    (h : env.resolveReversed reversed = some t) : Finds env reversed t := by
  have hshorter : ∀ rest : List Char, (rest.dropWhile Text.isBlank).length ≤ rest.length :=
    fun rest => (List.dropWhile_sublist Text.isBlank).length_le
  cases hlookup : env.types.lookup (String.ofList reversed.reverse) with
  | some u =>
    rw [resolveReversed_of_lookup hlookup] at h
    exact .registered (hlookup.trans h)
  | none =>
    unfold resolveReversed at h
    rw [hlookup] at h
    dsimp only at h
    split at h
    · next rest =>
      obtain ⟨e, he, rfl⟩ := Option.map_eq_some_iff.mp h
      have := hshorter rest
      exact .array (finds_of_resolveReversed _ e he)
    · next rest =>
      obtain ⟨e, he, rfl⟩ := Option.map_eq_some_iff.mp h
      have := hshorter rest
      exact .pointer (finds_of_resolveReversed _ e he)
    · simp at h
termination_by reversed.length
decreasing_by
  all_goals
    subst_vars
    simp only [List.length_cons]
    omega

/-- A character that a suffix ends in. -/
def EndsSuffix (c : Char) : Prop := c = ']' ∨ c = '&'

/-- An alias does not end like a suffix, and it stands for a type whose name is trimmed. -/
theorem trimmed_of_alias {n : String} (h : (n, t) ∈ aliases) :
    Trimmed t.name.toList.reverse ∧ ∀ c ∈ n.toList.reverse.head?, ¬EndsSuffix c := by
  simp only [aliases, List.mem_cons, List.not_mem_nil, or_false, Prod.mk.injEq] at h
  rcases h with ⟨rfl, rfl⟩ | ⟨rfl, rfl⟩ | ⟨rfl, rfl⟩ | ⟨rfl, rfl⟩
  all_goals exact ⟨by unfold Trimmed; decide +kernel, by simp [EndsSuffix]⟩

/-- A type registered under a name that ends in a suffix has that name. -/
theorem Registered.name_of_suffixed (henv : Registered env) {c : Char} {rest : List Char}
    (hc : EndsSuffix c) (h : env.types.lookup (String.ofList (c :: rest).reverse) = some t) :
    t.name.toList.reverse = c :: rest := by
  rcases henv.named h with hname | halias
  · simp [hname]
  · exact absurd hc ((trimmed_of_alias halias).2 c (by simp))

theorem trimmed_of_endsSuffix {c : Char} (hc : EndsSuffix c) (rest : List Char) : Trimmed (c :: rest) := by
  have hblank : Text.isBlank c = false := by
    rcases hc with rfl | rfl <;> decide
  simp [Trimmed, hblank]

/-- Putting a suffix behind a name that resolves gives a name that resolves.  The suffix is given
backwards, as it is taken off. -/
theorem resolves_suffixed (henv : Registered env) (wrap : Ty → Ty) {c : Char} {suffix : List Char}
    (hc : EndsSuffix c)
    (hname : ∀ t, (wrap t).name.toList.reverse = c :: suffix ++ t.name.toList.reverse)
    (hresolve : ∀ rest, env.types.lookup (String.ofList (c :: suffix ++ rest).reverse) = none →
      env.resolveReversed (c :: suffix ++ rest)
        = (env.resolveReversed (rest.dropWhile Text.isBlank)).map wrap)
    (htrimmed : Trimmed t.name.toList.reverse) (ht : Resolves env t.name) :
    Resolves env (wrap t).name := by
  have hinj : ∀ {m n : String}, m.toList.reverse = n.toList.reverse → m = n := by
    intro m n hmn
    exact String.toList_inj.mp (List.reverse_injective hmn)
  unfold Resolves typeNamed?
  rw [hname t]
  cases hlookup : env.types.lookup (String.ofList (c :: suffix ++ t.name.toList.reverse).reverse) with
  | some u =>
    refine ⟨u, resolveReversed_of_lookup hlookup, hinj ?_⟩
    rw [hname t]
    exact henv.name_of_suffixed hc hlookup
  | none =>
    obtain ⟨u, hu, hun⟩ := ht
    refine ⟨wrap u, ?_, hinj ?_⟩
    · rw [hresolve _ hlookup, htrimmed]
      rw [typeNamed?] at hu
      rw [hu, Option.map_some]
    · rw [hname, hname, hun]

theorem Registered.resolves (henv : Registered env) {n : String} (h : env.types.lookup n = some t) :
    Resolves env t.name := by
  obtain ⟨u, hu, hname⟩ := Option.map_eq_some_iff.mp (henv.kept h)
  exact ⟨u, resolveReversed_of_lookup (by simpa using hu), hname⟩

theorem trimmed_dropWhile (cs : List Char) : Trimmed (cs.dropWhile Text.isBlank) :=
  List.dropWhile_idempotent _ _

theorem reverse_name_array (e : Ty) :
    (Ty.array e).name.toList.reverse = ']' :: ['['] ++ e.name.toList.reverse := by
  simp [Ty.name]

theorem reverse_name_pointer (e : Ty) :
    (Ty.pointer e true).name.toList.reverse = '&' :: [] ++ e.name.toList.reverse := by
  simp [Ty.name]

/-- **The name of a type that was found finds one again.**  If the name it was found by is trimmed, then
so is its own. -/
theorem Finds.resolves (henv : Registered env) (h : Finds env reversed t) :
    Resolves env t.name ∧ (Trimmed reversed → Trimmed t.name.toList.reverse) := by
  induction h with
  | registered hlookup =>
    refine ⟨henv.resolves hlookup, ?_⟩
    intro htrimmed
    rcases henv.named hlookup with hname | halias
    · simpa [hname] using htrimmed
    · exact (trimmed_of_alias halias).1
  | @array rest e _ ih =>
    constructor
    · exact resolves_suffixed henv Ty.array (Or.inl rfl) reverse_name_array
        (fun _ => resolveReversed_array) (ih.2 (trimmed_dropWhile rest)) ih.1
    · intro _
      rw [reverse_name_array]
      exact trimmed_of_endsSuffix (Or.inl rfl) _
  | @pointer rest e _ ih =>
    constructor
    · exact resolves_suffixed henv (Ty.pointer · true) (Or.inr rfl) reverse_name_pointer
        (fun _ => resolveReversed_pointer) (ih.2 (trimmed_dropWhile rest)) ih.1
    · intro _
      rw [reverse_name_pointer]
      exact trimmed_of_endsSuffix (Or.inr rfl) _

/-- **Names of types are canonical.**  After any definitions, a type that is found by some name carries a
name by which a type of that name is found. -/
theorem name_resolves (definitions : List Definition) {n : String} {t : Ty}
    (h : (after definitions).typeNamed? n = some t) :
    ∃ u, (after definitions).typeNamed? t.name = some u ∧ u.name = t.name :=
  ((finds_of_resolveReversed _ t h).resolves (registered_after definitions)).1

/-- A class that hides a primitive type, one whose name ends in white space, and one whose name is that
of an array. -/
def hidingTypes : List Definition :=
  [.type (.plainClass "uint8" none), .type (.plainClass "Crate " none),
    .type (.plainClass "Crate[]" none), .field ⟨"lid", .plainClass "Crate" none, .int32, true, false⟩]

/-- The alias still stands for the primitive type, and its name now finds the class. -/
theorem name_resolves_hidingTypes :
    (∃ t, (after hidingTypes).typeNamed? "bool []\t&" = some t ∧ t.name = "uint8[]&") ∧
      ∃ u, (after hidingTypes).typeNamed? "uint8[]&" = some u ∧ u.name = "uint8[]&" := by
  have hfound : ((after hidingTypes).typeNamed? "bool []\t&").map Ty.name = some "uint8[]&" := by
    decide +kernel
  obtain ⟨t, ht, hname⟩ := Option.map_eq_some_iff.mp hfound
  have hagain := name_resolves hidingTypes ht
  rw [hname] at hagain
  exact ⟨⟨t, ht, hname⟩, hagain⟩

end Environment

end Cil
