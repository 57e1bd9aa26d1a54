/-
What happens to labels.

A label only ever gains: it is marked, it becomes the target of a branch, it receives the first
stack that reaches it.  Nothing of that is taken back.  A later stack that reaches the label has the
tags of the first one, which is all that meeting means.
-/
import Cil.Label
import Cil.Proofs.Step

namespace Cil

/-- The stack types of the entries, top first. -/
def Stack.tags (s : Stack) : List DataType := s.entries.map Entry.tag

theorem Stack.length_tags (s : Stack) : s.tags.length = s.depth := List.length_map _

/-- Entries meet when their stack types are the same, place by place. -/
theorem Stack.entriesMeet_iff {es fs : List Entry} :
    entriesMeet es fs = true ↔ es.map Entry.tag = fs.map Entry.tag := by
  fun_induction entriesMeet es fs with
  | case1 => simp
  | case2 a as b bs ih => simp [Entry.meets, ih]
  | case3 es fs hnil hcons =>
    cases es with
    | nil =>
      cases fs with
      | nil => exact absurd rfl (hnil rfl)
      | cons b bs => simp
    | cons a as =>
      cases fs with
      | nil => simp
      | cons b bs => exact absurd rfl (hcons a as b bs rfl)

/-- What a label keeps: its name and index, and whatever was found out about it. -/
structure Label.Grows (l l' : Label) : Prop where
  name : l'.name = l.name
  downstream : l'.downstream = l.downstream
  marked : l.marked = true → l'.marked = true
  targeted : l.targeted = true → l'.targeted = true
  snapshot : ∀ entries, l.snapshot = some entries → l'.snapshot = some entries

namespace Label.Grows

theorem refl (l : Label) : l.Grows l :=
  ⟨rfl, rfl, id, id, fun _ => id⟩

theorem trans {l l' l'' : Label} (h : l.Grows l') (h' : l'.Grows l'') : l.Grows l'' :=
  ⟨h'.name.trans h.name, h'.downstream.trans h.downstream, fun hm => h'.marked (h.marked hm),
    fun ht => h'.targeted (h.targeted ht), fun es hs => h'.snapshot es (h.snapshot es hs)⟩

end Label.Grows

namespace LabelTable

variable {t t' : LabelTable} {index : Nat}

/-- Every label of a table stands in another at the same index and has only gained there. -/
def Grows (t t' : LabelTable) : Prop :=
  ∀ (i : Nat) (l : Label), t.labels[i]? = some l → ∃ l', t'.labels[i]? = some l' ∧ l.Grows l'

theorem Grows.refl (t : LabelTable) : t.Grows t :=
  fun _ l hl => ⟨l, hl, Label.Grows.refl l⟩

theorem Grows.trans {t'' : LabelTable} (h : t.Grows t') (h' : t'.Grows t'') : t.Grows t'' := by
  intro i l hl
  obtain ⟨l', hl', hgrows⟩ := h i l hl
  obtain ⟨l'', hl'', hgrows'⟩ := h' i l' hl'
  exact ⟨l'', hl'', hgrows.trans hgrows'⟩

theorem getElem?_put {l : Label} (hindex : index < t.labels.size) (i : Nat) :
    (t.put index l).labels[i]? = if i = index then some l else t.labels[i]? := by
  unfold put
  rw [Array.getElem?_setIfInBounds]
  by_cases hi : index = i
  · simp [hi, hi ▸ hindex]
  · simp [hi, Ne.symm hi]

/-- Replacing a label by one that has only gained. -/
theorem grows_put {l l' : Label} (hl : t.labels[index]? = some l) (hgrows : l.Grows l') :
    t.Grows (t.put index l') := by
  intro i m hm
  have hindex : index < t.labels.size := (Array.getElem?_eq_some_iff.mp hl).1
  rw [getElem?_put hindex]
  by_cases hi : i = index
  · subst hi
    rw [hl, Option.some.injEq] at hm
    subst hm
    exact ⟨l', if_pos rfl, hgrows⟩
  · exact ⟨m, by rw [if_neg hi]; exact hm, Label.Grows.refl m⟩

theorem grows_create (t : LabelTable) (name : String) (downstream : Nat) :
    t.Grows (t.create name downstream) := by
  intro i l hl
  refine ⟨l, ?_, Label.Grows.refl l⟩
  have hi : i < t.labels.size := (Array.getElem?_eq_some_iff.mp hl).1
  show (t.labels.push _)[i]? = some l
  rw [Array.getElem?_push, if_neg (Nat.ne_of_lt hi)]
  exact hl

/-! ### Marking and reaching a label -/

theorem mark_ok {u : Unit} : mark index t = .ok u t' ↔
    ∃ l, t.labels[index]? = some l ∧ l.marked = false ∧
      t.put index { l with marked := true } = t' := by
  unfold mark find
  cases t.labels[index]? with
  | none => simp
  | some l => cases hmarked : l.marked <;> simp [hmarked]

/-- A label after a stack has reached it.  The first stack is the one that is kept. -/
def after (l : Label) (entries : List Entry) (byBranch : Bool) : Label :=
  { l with targeted := l.targeted || byBranch, snapshot := some (l.snapshot.getD entries) }

theorem grows_after (l : Label) (entries : List Entry) (byBranch : Bool) :
    l.Grows (after l entries byBranch) where
  name := rfl
  downstream := rfl
  marked := id
  targeted := by
    intro ht
    simp [after, ht]
  snapshot := by
    intro es hs
    simp [after, hs]

/-- A stack reaches a label only if it has the tags of the stack that reached it first. -/
theorem reach_ok {entries : List Entry} {byBranch : Bool} {u : Unit} :
    reach index entries byBranch t = .ok u t' ↔
      ∃ l, t.labels[index]? = some l ∧
        (l.snapshot.getD entries).map Entry.tag = entries.map Entry.tag ∧
        t.put index (after l entries byBranch) = t' := by
  unfold reach find
  cases t.labels[index]? with
  | none => simp
  | some l =>
    cases hsnap : l.snapshot with
    | none => simp [hsnap, after]
    | some snapshot =>
      by_cases hmeet : Stack.entriesMeet entries snapshot = true
      · have htags := Stack.entriesMeet_iff.mp hmeet
        simp [hsnap, hmeet, htags, after]
      · have htags : ¬ snapshot.map Entry.tag = entries.map Entry.tag :=
          fun h => hmeet (Stack.entriesMeet_iff.mpr h.symm)
        simp [hsnap, hmeet, htags]

/-- What is known of every label of `t'` if a stack has reached some labels of `t`: it was there
before, it is marked if it was, and if its snapshot is new then it is that stack. -/
def Derives (entries : List Entry) (t t' : LabelTable) : Prop :=
  ∀ (i : Nat) (l' : Label), t'.labels[i]? = some l' →
    ∃ l, t.labels[i]? = some l ∧ l'.marked = l.marked ∧
      (l'.snapshot = l.snapshot ∨ l'.snapshot = some entries)

theorem Derives.refl (entries : List Entry) (t : LabelTable) : Derives entries t t :=
  fun _ l' hl' => ⟨l', hl', rfl, Or.inl rfl⟩

theorem Derives.trans {entries : List Entry} {t'' : LabelTable} (h : Derives entries t t')
    (h' : Derives entries t' t'') : Derives entries t t'' := by
  intro i l'' hl''
  obtain ⟨l', hl', hmarked', hsnap'⟩ := h' i l'' hl''
  obtain ⟨l, hl, hmarked, hsnap⟩ := h i l' hl'
  refine ⟨l, hl, hmarked'.trans hmarked, ?_⟩
  rcases hsnap' with hsame | hnew
  · rw [hsame]
    exact hsnap
  · exact Or.inr hnew

theorem grows_of_reach {entries : List Entry} {byBranch : Bool}
    (h : reach index entries byBranch t = .ok () t') : t.Grows t' := by
  obtain ⟨l, hl, -, rfl⟩ := reach_ok.mp h
  exact grows_put hl (grows_after l entries byBranch)

theorem derives_of_reach {entries : List Entry} {byBranch : Bool}
    (h : reach index entries byBranch t = .ok () t') : Derives entries t t' := by
  obtain ⟨l, hl, -, rfl⟩ := reach_ok.mp h
  intro i m hm
  have hindex : index < t.labels.size := (Array.getElem?_eq_some_iff.mp hl).1
  rw [getElem?_put hindex] at hm
  by_cases hi : i = index
  · subst hi
    rw [if_pos rfl, Option.some.injEq] at hm
    subst hm
    refine ⟨l, hl, rfl, ?_⟩
    cases hsnap : l.snapshot with
    | none => exact Or.inr (by simp [after, hsnap])
    | some es => exact Or.inl (by simp [after, hsnap])
  · rw [if_neg hi] at hm
    exact ⟨m, hm, rfl, Or.inl rfl⟩

/-! ### What marking and reaching a label keep, be it accepted or refused -/

/-- A mark, if it changes anything, puts a label that has only gained in the place of another. -/
theorem keeps_mark {I : LabelTable → Prop}
    (hput : ∀ t l l', I t → t.labels[index]? = some l → l.Grows l' → l'.snapshot = l.snapshot →
      I (t.put index l')) : Step.Keeps I (fun _ => True) (mark index) := by
  intro t ht
  unfold mark find
  cases hl : t.labels[index]? with
  | none => exact ht
  | some l =>
    have hmark : I (t.put index { l with marked := true }) :=
      hput t l _ ht hl ⟨rfl, rfl, fun _ => rfl, id, fun _ => id⟩ rfl
    by_cases hmarked : l.marked = true
    · simpa [hmarked] using ht
    · simpa [hmarked] using hmark

/-- So does a stack that reaches a label, and if the label's snapshot is new then it is that stack. -/
theorem keeps_reach {I : LabelTable → Prop} {entries : List Entry} {byBranch : Bool}
    (hput : ∀ t l l', I t → t.labels[index]? = some l → l.Grows l' →
      (l'.snapshot = l.snapshot ∨ l'.snapshot = some entries) → I (t.put index l')) :
    Step.Keeps I (fun _ => True) (reach index entries byBranch) := by
  intro t ht
  unfold reach find
  cases hl : t.labels[index]? with
  | none => exact ht
  | some l =>
    have hbranch : l.targeted = true → (l.targeted || byBranch) = true := fun h => by simp [h]
    cases hsnap : l.snapshot with
    | none =>
      have hfirst := hput t l { l with targeted := l.targeted || byBranch, snapshot := some entries }
        ht hl ⟨rfl, rfl, id, hbranch, fun es hes => by simp [hsnap] at hes⟩ (Or.inr rfl)
      simpa [hsnap] using hfirst
    | some snapshot =>
      have hlater := hput t l { l with targeted := l.targeted || byBranch }
        ht hl ⟨rfl, rfl, id, hbranch, fun _ => id⟩ (Or.inl rfl)
      rw [hsnap] at hlater
      by_cases hmeet : Stack.entriesMeet entries snapshot = true
      · simpa [hsnap, hmeet] using hlater
      · simpa [hsnap, hmeet] using hlater

/-- After a stack has reached a label, the label has a snapshot with the tags of that stack. -/
def Holds (t : LabelTable) (index : Nat) (tags : List DataType) : Prop :=
  ∃ l snapshot, t.labels[index]? = some l ∧ l.snapshot = some snapshot ∧
    snapshot.map Entry.tag = tags

theorem Holds.grows {tags : List DataType} (h : t.Holds index tags) (hgrows : t.Grows t') :
    t'.Holds index tags := by
  obtain ⟨l, snapshot, hl, hsnap, htags⟩ := h
  obtain ⟨l', hl', hg⟩ := hgrows index l hl
  exact ⟨l', snapshot, hl', hg.snapshot snapshot hsnap, htags⟩

/-- A label holds one stack only. -/
theorem Holds.unique {tags tags' : List DataType} (h : t.Holds index tags)
    (h' : t.Holds index tags') : tags = tags' := by
  obtain ⟨l, snapshot, hl, hsnap, rfl⟩ := h
  obtain ⟨l', snapshot', hl', hsnap', rfl⟩ := h'
  rw [hl, Option.some.injEq] at hl'
  subst hl'
  rw [hsnap, Option.some.injEq] at hsnap'
  rw [hsnap']

theorem holds_of_reach {entries : List Entry} {byBranch : Bool}
    (h : reach index entries byBranch t = .ok () t') : t'.Holds index (entries.map Entry.tag) := by
  obtain ⟨l, hl, htags, rfl⟩ := reach_ok.mp h
  have hindex : index < t.labels.size := (Array.getElem?_eq_some_iff.mp hl).1
  exact ⟨after l entries byBranch, l.snapshot.getD entries,
    by rw [getElem?_put hindex, if_pos rfl], rfl, htags⟩

/-! ### Reaching several labels -/

/-- Carries a stack to every target of a branch. -/
abbrev reachEach (targets : List Nat) (entries : List Entry) : Step LabelTable Unit :=
  targets.forM fun target => reach target entries true

variable {targets : List Nat} {entries : List Entry}

theorem grows_of_reachEach (h : reachEach targets entries t = .ok () t') : t.Grows t' := by
  induction targets generalizing t with
  | nil =>
    rw [Step.forM_nil_ok] at h
    exact h ▸ Grows.refl t
  | cons target rest ih =>
    obtain ⟨t₁, hreach, hrest⟩ := Step.forM_cons_ok.mp h
    exact (grows_of_reach hreach).trans (ih hrest)

theorem derives_of_reachEach (h : reachEach targets entries t = .ok () t') :
    Derives entries t t' := by
  induction targets generalizing t with
  | nil =>
    rw [Step.forM_nil_ok] at h
    exact h ▸ Derives.refl entries t
  | cons target rest ih =>
    obtain ⟨t₁, hreach, hrest⟩ := Step.forM_cons_ok.mp h
    exact (derives_of_reach hreach).trans (ih hrest)

/-- Every target holds the stack and is known to be the target of a branch. -/
theorem holds_of_reachEach (h : reachEach targets entries t = .ok () t') :
    ∀ target ∈ targets, t'.Holds target (entries.map Entry.tag) ∧
      ∃ l, t'.labels[target]? = some l ∧ l.targeted = true := by
  induction targets generalizing t with
  | nil =>
    intro target hmem
    exact absurd hmem List.not_mem_nil
  | cons first rest ih =>
    obtain ⟨t₁, hreach, hrest⟩ := Step.forM_cons_ok.mp h
    intro target hmem
    rcases List.mem_cons.mp hmem with rfl | hmem
    · refine ⟨(holds_of_reach hreach).grows (grows_of_reachEach hrest), ?_⟩
      obtain ⟨l, hl, -, rfl⟩ := reach_ok.mp hreach
      have hindex : target < t.labels.size := (Array.getElem?_eq_some_iff.mp hl).1
      obtain ⟨l', hl', hgrows⟩ := grows_of_reachEach hrest target (after l entries true)
        (by rw [getElem?_put hindex, if_pos rfl])
      exact ⟨l', hl', hgrows.targeted (by simp [after])⟩
    · exact ih hrest target hmem

/-- No branch is left without a position: what every target was before the body's end. -/
theorem marked_of_firstUnmarkedTarget? (h : t.firstUnmarkedTarget? = none) {l : Label}
    (hl : t.labels[index]? = some l) (htargeted : l.targeted = true) : l.marked = true := by
  unfold firstUnmarkedTarget? at h
  rw [Array.find?_eq_none] at h
  have hmem : l ∈ t.labels := Array.mem_of_getElem? hl
  simpa [htargeted] using h l hmem

end LabelTable

end Cil
