/-
A verifier in front of a writer.

Each keeps labels of its own: the verifier knows which are marked and which some branch names, the writer
where they are and which offsets wait for them.  A call that the verifier passes on is one that the writer
can take if the two tables say the same.

Two relations carry this.  `Backed` holds through every session, whatever was refused in it: the indices
are the same on both sides, and what the writer has marked is marked at the verifier.  `Synced` holds as
long as nothing has been refused: then every mark is known to both, and whatever waits at the writer waits
for a label that the verifier knows to be a target.  So the end of a body that the verifier accepts leaves
nothing waiting.
-/
import Cil.Proofs.Verifier.Forwarding
import Cil.Proofs.Writer.Refusals

namespace Cil

/-! ### The call that is passed on -/

namespace Call

variable {c : Call} {t : LabelTable}

/-- The forms that the verifier asks for are those that have an encoding. -/
theorem Formed.writable (h : c.Formed t) : c.Writable := by
  cases c with
  | emit op x =>
    obtain ⟨hnumber, hfits⟩ := h
    show (op.operandKind != .table && x.fits op.operandKind) = true
    rw [hfits, Bool.and_true, bne_iff_ne]
    intro htable
    rw [htable] at hnumber
    cases hnumber
  | branch op target =>
    obtain ⟨hone, -⟩ := h
    unfold Checker.branchesToOne at hone
    cases hcategory : op.category with
    | branch b =>
      rw [hcategory] at hone
      exact ⟨b, hcategory, of_decide_eq_true hone⟩
    | _ =>
      rw [hcategory] at hone
      cases hone
  | invoke op m => exact Opcode.isToken_of_member (Or.inl h)
  | field op f => exact Opcode.isToken_of_member (Or.inr h)
  | type op t => exact congrArg OperandKind.isToken h
  | token op m => exact congrArg OperandKind.isToken h
  | string op value => exact congrArg OperandKind.isToken h
  | _ => trivial

theorem Formed.target_lt (h : c.Formed t) {target : Nat} (htarget : target ∈ c.targets) :
    target < t.labels.size := by
  cases c with
  | branch op target' =>
    rw [List.mem_singleton.mp htarget]
    exact h.2
  | switch targets => exact h target htarget
  | _ => exact absurd htarget List.not_mem_nil

/-- The offsets in an instruction are those to its targets. -/
theorem label_mem_targets {token : Option Token} {start : Nat} {f : Writer.Fixup}
    (h : .slot f ∈ c.cells token start) : f.label ∈ c.targets := by
  cases c with
  | branch op target =>
    have hf : f = Writer.branchPlace op target start := by simpa [cells] using h
    rw [hf]
    exact List.mem_singleton.mpr rfl
  | switch targets =>
    have hf : .slot f ∈ Writer.tableCells (start + 5 + 4 * targets.length) (start + 5) targets := by
      simpa [cells, Writer.switchCells] using h
    exact Writer.label_mem_of_tableCells hf
  | _ => simp [cells] at h

end Call

/-! ### Labels at the verifier -/

namespace Checker

variable {k k' : Checker} {c c' : Call}

/-- Only a mark marks a label. -/
theorem marked_of_accept (h : accept c k = .ok c' k') {i : Nat} {l' : Label}
    (hl' : k'.labels.labels[i]? = some l') (hmarked : l'.marked = true) :
    c.marked? = some i ∨ ∃ l, k.labels.labels[i]? = some l ∧ l.marked = true := by
  cases hop : c.opcode? with
  | some op =>
    obtain ⟨-, hinstruction, -⟩ := (accept_instruction hop).mp h
    obtain ⟨-, transition, s, t, -, -, hreach, rfl⟩ := instruction_ok.mp hinstruction
    obtain ⟨l, hl, hsame, -⟩ := LabelTable.derives_of_reachEach hreach i l' hl'
    exact Or.inr ⟨l, hl, hsame ▸ hmarked⟩
  | none =>
    cases c with
    | declareLocal t name =>
      obtain ⟨-, -, rfl⟩ := accept_declareLocal.mp h
      exact Or.inr ⟨l', hl', hmarked⟩
    | createLabel name =>
      obtain ⟨-, rfl⟩ := accept_createLabel.mp h
      exact Or.inr ⟨l', hl', hmarked⟩
    | finish =>
      obtain ⟨-, -, -, -, -, rfl⟩ := accept_finish.mp h
      exact Or.inr ⟨l', hl', hmarked⟩
    | markLabel index =>
      obtain ⟨l, t, hl, -, hreach, -, rfl⟩ := accept_markLabel.mp h
      obtain ⟨m, hm, hsame, -⟩ := LabelTable.derives_of_reach hreach i l' hl'
      by_cases hi : i = index
      · exact Or.inl (congrArg some hi.symm)
      · rw [LabelTable.getElem?_put (Array.getElem?_eq_some_iff.mp hl).1, if_neg hi] at hm
        exact Or.inr ⟨m, hm, hsame ▸ hmarked⟩
    | _ => exact nomatch hop

/-- After a mark the label is marked. -/
theorem marked_after_accept (h : accept c k = .ok c' k') (label : Nat) (hlabel : c.marked? = some label)
    (l' : Label) (hl' : k'.labels.labels[label]? = some l') : l'.marked = true := by
  cases c with
  | markLabel index =>
    cases hlabel
    obtain ⟨l, t, hl, -, hreach, -, rfl⟩ := accept_markLabel.mp h
    obtain ⟨m, hm, hsame, -⟩ := LabelTable.derives_of_reach hreach label l' hl'
    rw [LabelTable.getElem?_put (Array.getElem?_eq_some_iff.mp hl).1, if_pos rfl,
      Option.some.injEq] at hm
    rw [hsame, ← hm]
  | _ => cases hlabel

/-- Every target of an accepted instruction is known to be one. -/
theorem targeted_of_accept (h : accept c k = .ok c' k') {target : Nat} (htarget : target ∈ c.targets) :
    ∃ l, k'.labels.labels[target]? = some l ∧ l.targeted = true := by
  cases hop : c.opcode? with
  | some op =>
    obtain ⟨-, hinstruction, -⟩ := (accept_instruction hop).mp h
    obtain ⟨-, transition, s, t, -, -, hreach, rfl⟩ := instruction_ok.mp hinstruction
    exact (LabelTable.holds_of_reachEach hreach target htarget).2
  | none => cases c <;> first | exact absurd htarget List.not_mem_nil | exact nomatch hop

/-- A marked label was there before the call was answered. -/
theorem getElem?_of_settle {reply : Option Nat} {i : Nat} {l : Label}
    (hl : (settle c reply k).2.labels.labels[i]? = some l) (hmarked : l.marked = true) :
    k.labels.labels[i]? = some l := by
  cases c with
  | createLabel name =>
    change (k.labels.labels.push _)[i]? = some l at hl
    rw [Array.getElem?_push] at hl
    by_cases hi : i = k.labels.labels.size
    · rw [if_pos hi, Option.some.injEq] at hl
      rw [← hl] at hmarked
      cases hmarked
    · rwa [if_neg hi] at hl
  | _ => exact hl

theorem grows_of_accept (h : accept c k = .ok c' k') : k.labels.Grows k'.labels :=
  ((stable_labels (J := k.labels.Grows) (fun _ _ _ _ ht hl hgrows =>
    ht.trans (LabelTable.grows_put hl hgrows)) c).keeps_accept.of_ok (LabelTable.Grows.refl _) h).1

end Checker

/-! ### What holds whatever was refused -/

/-- The labels of a writer stand behind those of a table. -/
structure Backed {π : Type} (t : LabelTable) (w : Writer π) : Prop where
  indices : t.indices = Array.range w.labels.size
  /-- What the writer has marked is marked in the table. -/
  marked : ∀ i l, t.labels[i]? = some l → (w.mark? i).isSome = true → l.marked = true
  /-- What waits, waits for a label of the writer's. -/
  known : ∀ f ∈ w.fixups, f.label < w.labels.size

section Backed

variable {π : Type} {t : LabelTable} {w w' : Writer π}

theorem Backed.size_eq (h : Backed t w) : t.labels.size = w.labels.size := by
  simpa [LabelTable.indices] using congrArg Array.size h.indices

theorem backed_start (p : π) : Backed {} ({ symbols := p } : Writer π) where
  indices := by simp [LabelTable.indices]
  marked := fun i l hl => by simp at hl
  known := fun f hf => absurd hf List.not_mem_nil

/-- A label of the table may gain. -/
theorem Backed.put {index : Nat} {l l' : Label} (h : Backed t w) (hl : t.labels[index]? = some l)
    (hgrows : l.Grows l') : Backed (t.put index l') w where
  indices := (LabelTable.indices_put hl hgrows.downstream).trans h.indices
  marked := by
    intro i m hm hmark
    rw [LabelTable.getElem?_put (Array.getElem?_eq_some_iff.mp hl).1] at hm
    by_cases hi : i = index
    · rw [if_pos hi, Option.some.injEq] at hm
      rw [← hm]
      exact hgrows.marked (h.marked index l hl (hi ▸ hmark))
    · rw [if_neg hi] at hm
      exact h.marked i m hm hmark
  known := h.known

theorem keeps_accept_backed (w : Writer π) (c : Call) :
    Step.Keeps (fun k => Backed k.labels w) (fun _ => True) (Checker.accept c) :=
  (Checker.stable_labels (J := fun t => Backed t w)
    (fun _ _ _ _ ht hl hgrows => ht.put hl hgrows) c).keeps_accept

theorem Backed.forwarded_eq {k k' : Checker} {c c' : Call} (h : Backed k.labels w)
    (haccept : Checker.accept c k = .ok c' k') : c' = c := by
  rw [Checker.forwarded_eq haccept,
    Call.mapLabels_id c (LabelTable.downstream_of_indices h.indices)]

/-- Both sides make a label. -/
theorem Backed.create (h : Backed t w) (name : String) :
    Backed (t.create name w.labels.size) { w with labels := w.labels.push { name } } where
  indices := by
    show (t.labels.push _).map Label.downstream = Array.range (w.labels.push _).size
    rw [Array.map_push, Array.size_push, Array.range_succ]
    exact congrArg (Array.push · w.labels.size) h.indices
  marked := by
    intro i l hl hmark
    rw [Writer.mark?_push] at hmark
    change (t.labels.push _)[i]? = some l at hl
    rw [Array.getElem?_push] at hl
    by_cases hi : i = t.labels.size
    · rw [Writer.mark?, hi, h.size_eq, Array.getElem?_eq_none (Nat.le_refl _)] at hmark
      cases hmark
    · rw [if_neg hi] at hl
      exact h.marked i l hl hmark
  known := by
    intro f hf
    show f.label < (w.labels.push _).size
    rw [Array.size_push]
    exact Nat.lt_succ_of_lt (h.known f hf)

end Backed

namespace Writer

variable {π : Type} {t : LabelTable}

theorem keeps_patch (f : Fixup) : Step.Keeps (Backed (π := π) t) (fun _ => True) (patch f) := by
  intro w hw
  unfold patch
  cases w.labels[f.label]? with
  | none => exact hw
  | some slot =>
    cases hoffset : slot.offset with
    | none =>
      simp only [hoffset]
      exact hw
    | some target =>
      by_cases hfits : f.fits ((target : Int) - f.origin) = true
      · simp only [hoffset, if_pos hfits]
        exact ⟨⟨hw.indices, hw.marked, hw.known⟩, trivial⟩
      · simp only [hoffset, if_neg hfits]
        exact hw

theorem keeps_refer (f : Fixup) : Step.Keeps (Backed (π := π) t) (fun _ => True) (refer f) := by
  intro w hw
  unfold refer
  cases hslot : w.labels[f.label]? with
  | none => exact hw
  | some slot =>
    cases hoffset : slot.offset with
    | some target =>
      simp only [hoffset]
      exact keeps_patch f w hw
    | none =>
      simp only [hoffset]
      refine ⟨⟨hw.indices, hw.marked, ?_⟩, trivial⟩
      intro g hg
      rcases List.mem_append.mp hg with hold | hnew
      · exact hw.known g hold
      · rw [List.mem_singleton.mp hnew]
        exact (Array.getElem?_eq_some_iff.mp hslot).1

theorem keeps_referTable (origin position : Nat) (targets : List Nat) :
    Step.Keeps (Backed (π := π) t) (fun _ => True) (referTable origin position targets) := by
  induction targets generalizing position with
  | nil => exact Step.keeps_pure trivial
  | cons target rest ih => exact Step.keeps_bind (keeps_refer _) fun _ _ => ih (position + 4)

theorem keeps_write (i : Instruction) :
    Step.Keeps (Backed (π := π) t) (fun _ => True) (write i) := by
  intro w hw
  unfold write
  cases i.encodeInto w.code with
  | ok _ code => exact ⟨⟨hw.indices, hw.marked, hw.known⟩, trivial⟩
  | error e code => exact ⟨hw.indices, hw.marked, hw.known⟩

theorem keeps_writeToken (op : Opcode) (request : π → Token × π) :
    Step.Keeps (Backed t) (fun _ => True) (writeToken op request) := by
  have hask : Step.Keeps (Backed t) (fun _ => True) (ask request) :=
    fun _ hw => ⟨⟨hw.indices, hw.marked, hw.known⟩, trivial⟩
  exact Step.keeps_bind hask fun token _ => keeps_write _

theorem keeps_branch (op : Opcode) (target : Nat) :
    Step.Keeps (Backed (π := π) t) (fun _ => True) (branch op target) := by
  unfold branch
  split
  · split
    · exact Step.keeps_throw
    · refine Step.keeps_bind (keeps_write _) fun _ _ => ?_
      exact Step.keeps_bind Step.keeps_get fun w _ => keeps_refer _
  · exact Step.keeps_throw

theorem keeps_switch (targets : List Nat) :
    Step.Keeps (Backed (π := π) t) (fun _ => True) (switch targets) := by
  refine Step.keeps_bind (keeps_write _) fun _ _ => ?_
  exact Step.keeps_bind Step.keeps_get fun w _ => keeps_referTable _ _ targets

/-- The writer may mark what the table has marked. -/
theorem keeps_mark {label : Nat} (hmarked : ∀ l, t.labels[label]? = some l → l.marked = true) :
    Step.Keeps (Backed (π := π) t) (fun _ => True) (mark label) := by
  intro w hw
  unfold mark
  cases w.labels[label]? with
  | none => exact hw
  | some slot =>
    by_cases hoffset : slot.offset.isSome = true
    · simp only [if_pos hoffset]
      exact hw
    · simp only [if_neg hoffset]
      refine Step.keeps_forM trivial (fun f _ => keeps_patch f) _ ⟨?_, ?_, ?_⟩
      · rw [Array.size_setIfInBounds]
        exact hw.indices
      · intro i l hl hmark
        by_cases hi : i = label
        · exact hmarked l (hi ▸ hl)
        · refine hw.marked i l hl ?_
          rwa [mark?, Array.getElem?_setIfInBounds_ne (Ne.symm hi)] at hmark
      · intro f hf
        rw [Array.size_setIfInBounds]
        rw [List.partition_eq_filter_filter] at hf
        exact hw.known f (List.mem_filter.mp hf).1

theorem keeps_finish : Step.Keeps (Backed (π := π) t) (fun _ => True) finish := by
  intro w hw
  unfold finish
  cases w.fixups with
  | nil => exact ⟨hw, trivial⟩
  | cons f rest =>
    cases hlabel : w.labels[f.label]? with
    | none =>
      simp only [hlabel]
      exact hw
    | some slot =>
      simp only [hlabel]
      exact hw

theorem keeps_silent {I : Writer π → Prop} {m : Step (Writer π) Unit}
    (hm : Step.Keeps I (fun _ => True) m) :
    Step.Keeps I (fun _ => True) (do m; return none : Step (Writer π) (Option Nat)) :=
  Step.keeps_bind hm fun _ _ => Step.keeps_pure trivial

/-- A call that makes no label keeps the labels of the writer behind those of the table. -/
theorem keeps_step_backed [TokenProvider π] {c : Call} (hcreate : ∀ name, c ≠ .createLabel name)
    (hmarked : ∀ label, c.marked? = some label → ∀ l, t.labels[label]? = some l → l.marked = true) :
    Step.Keeps (Backed (π := π) t) (fun _ => True) (Sink.step c) := by
  cases c with
  | declareLocal type name => exact fun _ hw => ⟨⟨hw.indices, hw.marked, hw.known⟩, trivial⟩
  | createLabel name => exact absurd rfl (hcreate name)
  | markLabel label => exact keeps_silent (keeps_mark (hmarked label rfl))
  | emit op x => exact keeps_silent (keeps_write _)
  | branch op target => exact keeps_silent (keeps_branch op target)
  | switch targets => exact keeps_silent (keeps_switch targets)
  | invoke op m => exact keeps_silent (keeps_writeToken op _)
  | field op f => exact keeps_silent (keeps_writeToken op _)
  | type op type => exact keeps_silent (keeps_writeToken op _)
  | token op m => exact keeps_silent (keeps_writeToken op _)
  | string op value => exact keeps_silent (keeps_writeToken op _)
  | finish => exact keeps_silent keeps_finish

end Writer

section Refusal

variable {π : Type} [TokenProvider π] {k k' : Checker} {w w' : Writer π} {c c' : Call} {e : Rejection}

/-- The writer refuses a call that is passed on for a distance only, or else at the end of the body,
because an offset waits. -/
theorem Backed.refused (h : Backed k.labels w) (haccept : Checker.accept c k = .ok c' k')
    (hrefused : Sink.step c' w = .error e w') :
    e.IsOutOfRange ∨ c = .finish ∧ w.fixups ≠ [] ∧ ∃ name, e = .write (.unmarkedLabel name) := by
  obtain rfl := h.forwarded_eq haccept
  cases hop : c'.opcode? with
  | some op =>
    obtain ⟨hformed, -, -⟩ := (Checker.accept_instruction hop).mp haccept
    refine Or.inl (Writer.step_instruction_error hop hformed.writable (fun f hf => ?_) hrefused)
    rw [← h.size_eq]
    exact hformed.target_lt (Call.label_mem_targets hf)
  | none =>
    cases c' with
    | declareLocal t name => exact nomatch hrefused
    | createLabel name => exact nomatch hrefused
    | markLabel label =>
      obtain ⟨l, t, hl, hunmarked, -, -, -⟩ := Checker.accept_markLabel.mp haccept
      have hlabel : label < w.labels.size := h.size_eq ▸ (Array.getElem?_eq_some_iff.mp hl).1
      have hmark : w.mark? label = none := by
        cases hmark : w.mark? label with
        | none => rfl
        | some target =>
          have hmarked := h.marked label l hl (by rw [hmark]; rfl)
          rw [hunmarked] at hmarked
          cases hmarked
      exact Or.inl (Writer.mark_error hlabel hmark (Writer.silent_error hrefused))
    | finish => exact Or.inr ⟨rfl, Writer.finish_error h.known (Writer.silent_error hrefused)⟩
    | _ => exact nomatch hop

end Refusal

section Sessions

variable {π : Type} [TokenProvider π]

/-- Whatever becomes of a call, the writer's labels stand behind the verifier's. -/
theorem keeps_backed (c : Call) :
    Step.Keeps (fun v : Verifier (Writer π) => Backed v.checker.labels v.downstream) (fun _ => True)
      (Sink.step c) := by
  intro v hv
  cases hstep : Sink.step c v with
  | ok reply v' =>
    obtain ⟨c', k, r, haccept, hwrite, hsettle⟩ := Verifier.step_ok.mp hstep
    obtain rfl := hv.forwarded_eq haccept
    have hk : Backed k.labels v.downstream :=
      ((keeps_accept_backed v.downstream c').of_ok hv haccept).1
    have hv' : v'.checker = (Checker.settle c' r k).2 := by rw [hsettle]
    refine ⟨?_, trivial⟩
    show Backed v'.checker.labels v'.downstream
    rw [hv']
    by_cases hcreate : ∃ name, c' = .createLabel name
    · obtain ⟨name, rfl⟩ := hcreate
      obtain ⟨rfl, hdown⟩ := EStateM.Result.ok.inj hwrite
      rw [← hdown]
      exact hk.create name
    · have hother : ∀ name, c' ≠ .createLabel name := not_exists.mp hcreate
      rw [Checker.labels_settle hother]
      exact ((Writer.keeps_step_backed hother (Checker.marked_after_accept haccept)).of_ok hk hwrite).1
  | error e v' =>
    rcases Verifier.step_error hstep with ⟨haccept, hdown⟩ | ⟨c', haccept, hrefused⟩
    · show Backed v'.checker.labels v'.downstream
      rw [hdown]
      exact (keeps_accept_backed v.downstream c).of_error hv haccept
    · obtain rfl := hv.forwarded_eq haccept
      have hk : Backed v'.checker.labels v.downstream :=
        ((keeps_accept_backed v.downstream c').of_ok hv haccept).1
      have hcreate : ∀ name, c' ≠ .createLabel name := by
        rintro name rfl
        exact nomatch hrefused
      exact (Writer.keeps_step_backed hcreate (Checker.marked_after_accept haccept)).of_error hk hrefused

theorem backed_session (s : Subject) (p : π) (calls : List Call) :
    Backed (Sink.session calls (Verifier.start s ({ symbols := p } : Writer π))).2.checker.labels
      (Sink.session calls (Verifier.start s ({ symbols := p } : Writer π))).2.downstream :=
  Sink.keeps_session (I := fun v : Verifier (Writer π) => Backed v.checker.labels v.downstream)
    (fun c _ => keeps_backed c) (backed_start p)

end Sessions

/-! ### What holds while nothing is refused -/

/-- The labels of a table and a writer say the same, and what was written is known. -/
structure Synced {π : Type} (t : LabelTable) (w : Writer π) (cells : List Writer.Cell) : Prop extends
    Backed t w where
  laid : w.Laid cells
  /-- What is marked in the table has a place in the code. -/
  placed : ∀ i l, t.labels[i]? = some l → l.marked = true → (w.mark? i).isSome = true
  /-- The labels of the offsets in the code are known to be targets. -/
  targeted : ∀ f, .slot f ∈ cells → ∃ l, t.labels[f.label]? = some l ∧ l.targeted = true

theorem synced_start {π : Type} (p : π) : Synced {} ({ symbols := p } : Writer π) [] where
  toBacked := backed_start p
  laid := Writer.laid_fresh p
  placed := fun i l hl => by simp at hl
  targeted := fun f hf => absurd hf List.not_mem_nil

/-- If no target is left unmarked in the table, nothing waits. -/
theorem Synced.fixups_eq_nil {π : Type} {t : LabelTable} {w : Writer π} {cells : List Writer.Cell}
    (h : Synced t w cells) (hnone : t.firstUnmarkedTarget? = none) : w.fixups = [] := by
  rw [h.laid.fixups, List.filterMap_eq_nil_iff]
  intro cell hcell
  cases cell with
  | fixed bytes => rfl
  | slot f =>
    obtain ⟨l, hl, htargeted⟩ := h.targeted f hcell
    have hmarked := LabelTable.marked_of_firstUnmarkedTarget? hnone hl htargeted
    obtain ⟨target, htarget⟩ := Option.isSome_iff_exists.mp (h.placed f.label l hl hmarked)
    exact Writer.Cell.waiting_of_some htarget

section Runs

variable {π : Type} [TokenProvider π] {v v' : Verifier (Writer π)} {c : Call} {cells : List Writer.Cell}

/-- The writer refuses a call that is passed on for a distance only. -/
theorem Synced.refused {k k' : Checker} {w w' : Writer π} {c' : Call} {e : Rejection}
    (h : Synced k.labels w cells) (haccept : Checker.accept c k = .ok c' k')
    (hrefused : Sink.step c' w = .error e w') : e.IsOutOfRange := by
  rcases h.toBacked.refused haccept hrefused with hrange | ⟨rfl, hwaiting, -⟩
  · exact hrange
  · obtain ⟨-, hnone, -⟩ := Checker.accept_finish.mp haccept
    exact absurd (h.fixups_eq_nil hnone) hwaiting

theorem Synced.advance {reply : Option Nat} (h : Synced v.checker.labels v.downstream cells)
    (hstep : Sink.step c v = .ok reply v') :
    Synced v'.checker.labels v'.downstream (cells ++ Writer.added c v.downstream) := by
  have hbacked := ((keeps_backed c).of_ok h.toBacked hstep).1
  obtain ⟨c', k, r, haccept, hwrite, hsettle⟩ := Verifier.step_ok.mp hstep
  obtain rfl := h.toBacked.forwarded_eq haccept
  have hadvances := Writer.advances_of_step h.laid hwrite
  have hv' : v'.checker = (Checker.settle c' r k).2 := by rw [hsettle]
  have hgrows : k.labels.Grows v'.checker.labels := hv' ▸ Checker.grows_settle c' r k
  refine ⟨hbacked, hadvances.laid, ?_, ?_⟩
  · intro i l' hl' hmarked
    -- A label that the call made is not marked, and any other is as the check has left it.
    have hl : k.labels.labels[i]? = some l' := by
      rw [hv'] at hl'
      exact Checker.getElem?_of_settle hl' hmarked
    rcases Checker.marked_of_accept haccept hl hmarked with hmark | ⟨l, hl, hmarked⟩
    · rw [(hadvances.marks i hmark).2, Writer.withMark_self]
      rfl
    · have hplaced := h.placed i l hl hmarked
      cases hmark : c'.marked? with
      | none => rwa [hadvances.keeps hmark]
      | some label =>
        rw [(hadvances.marks label hmark).2]
        by_cases hi : i = label
        · rw [hi, Writer.withMark_self]
          rfl
        · rwa [Writer.withMark_of_ne hi]
  · intro f hf
    have htargeted : ∃ l, k.labels.labels[f.label]? = some l ∧ l.targeted = true := by
      rcases List.mem_append.mp hf with hold | hnew
      · obtain ⟨l, hl, htargeted⟩ := h.targeted f hold
        obtain ⟨l', hl', hg⟩ := Checker.grows_of_accept haccept f.label l hl
        exact ⟨l', hl', hg.targeted htargeted⟩
      · exact Checker.targeted_of_accept haccept (Call.label_mem_targets hnew)
    obtain ⟨l, hl, htargeted⟩ := htargeted
    obtain ⟨l', hl', hg⟩ := hgrows f.label l hl
    exact ⟨l', hl', hg.targeted htargeted⟩

theorem Synced.run {calls : List Call} (h : Synced v.checker.labels v.downstream cells)
    (hrun : Sink.run calls v = some v') :
    ∃ cells', Synced v'.checker.labels v'.downstream cells' := by
  induction calls generalizing v cells with
  | nil =>
    rw [Sink.run, Option.some.injEq] at hrun
    exact ⟨cells, hrun ▸ h⟩
  | cons c rest ih =>
    obtain ⟨reply, v₁, hstep, hrest⟩ := Sink.run_cons.mp hrun
    exact ih (h.advance hstep) hrest

/-! ### A recorder and a writer side by side -/

/-- A call that is accepted in front of a recorder is accepted in front of a writer, and leaves the
verifier in the same state, or else a distance is too large. -/
theorem Synced.follow {r r' : Verifier Recorder} {reply : Option Nat}
    (h : Synced v.checker.labels v.downstream cells) (hr : r.InStep) (hsame : v.checker = r.checker)
    (hstep : Sink.step c r = .ok reply r') :
    (∃ v', Sink.step c v = .ok reply v' ∧ v'.checker = r'.checker) ∨
      ∃ e v', Sink.step c v = .error e v' ∧ e.IsOutOfRange := by
  obtain ⟨c', k, n, haccept, hrecord, hsettle⟩ := Verifier.step_ok.mp hstep
  rw [← hsame] at haccept
  cases hwrite : Sink.step c' v.downstream with
  | error e w' =>
    refine Or.inr ⟨e, ⟨k, w'⟩, ?_, h.refused haccept hwrite⟩
    exact Verifier.step_of_refused haccept hwrite
  | ok n' w' =>
    refine Or.inl ⟨⟨r'.checker, w'⟩, ?_, rfl⟩
    refine Verifier.step_ok.mpr ⟨c', k, n', haccept, hwrite, ?_⟩
    rw [← hsettle]
    cases c with
    | createLabel name =>
      -- Both receivers have made as many labels, so both give the same index.
      have hsize : v.downstream.labels.size = r.downstream.labels := by
        have hindices := h.indices
        rw [hsame, hr] at hindices
        simpa using congrArg Array.size hindices.symm
      obtain ⟨rfl, rfl⟩ := Checker.accept_createLabel.mp haccept
      obtain ⟨rfl, -⟩ := EStateM.Result.ok.inj hrecord
      obtain ⟨rfl, -⟩ := EStateM.Result.ok.inj hwrite
      rw [hsize]
    | _ => rfl

theorem Synced.follow_run {calls : List Call} {r r' : Verifier Recorder}
    (h : Synced v.checker.labels v.downstream cells) (hr : r.InStep) (hsame : v.checker = r.checker)
    (hrun : Sink.run calls r = some r') :
    (∃ v', Sink.run calls v = some v' ∧ v'.checker = r'.checker) ∨
      ∃ before c after v₁ e v₂, calls = before ++ c :: after ∧ Sink.run before v = some v₁ ∧
        Sink.step c v₁ = .error e v₂ ∧ e.IsOutOfRange := by
  induction calls generalizing v r cells with
  | nil =>
    rw [Sink.run, Option.some.injEq] at hrun
    exact Or.inl ⟨v, rfl, hrun ▸ hsame⟩
  | cons c rest ih =>
    obtain ⟨reply, r₁, hstep, hrest⟩ := Sink.run_cons.mp hrun
    rcases h.follow hr hsame hstep with ⟨v₁, hv₁, hsame₁⟩ | ⟨e, v₁, hv₁, hrange⟩
    · rcases ih (h.advance hv₁) (hr.step_ok hstep).2 hsame₁ hrest with
        ⟨v', hv', hend⟩ | ⟨before, c', after, v₂, e, v₃, rfl, hbefore, hc', hrange⟩
      · exact Or.inl ⟨v', Sink.run_cons.mpr ⟨reply, v₁, hv₁, hv'⟩, hend⟩
      · refine Or.inr ⟨c :: before, c', after, v₂, e, v₃, rfl, ?_, hc', hrange⟩
        exact Sink.run_cons.mpr ⟨reply, v₁, hv₁, hbefore⟩
    · exact Or.inr ⟨[], c, rest, v, e, v₁, rfl, rfl, hv₁, hrange⟩

end Runs

namespace Verifier

variable {π : Type} [TokenProvider π]

/-- The verifier passes the call on and the writer behind it refuses what it is given. -/
def RefusedBehind (v : Verifier (Writer π)) (c : Call) (e : Rejection) : Prop :=
  ∃ c' k w', Checker.accept c v.checker = .ok c' k ∧ Sink.step c' v.downstream = .error e w'

/-- **What a verifier accepts, a writer can encode**, as far as branches reach.  A body that is accepted
in front of a recorder is accepted in front of a writer, or else the first call that is refused is
refused for a distance.  As long as nothing was refused the writer refuses nothing that is passed on to
it for any other reason.  If a session goes on after refusals there is one more, and that only at the
end of the body: an offset may wait for a label whose mark the verifier has refused. -/
theorem refused_for_distance (s : Subject) (p : π) :
    (∀ calls r, Sink.run calls (start s ({} : Recorder)) = some r →
      (∃ v, Sink.run calls (start s ({ symbols := p } : Writer π)) = some v ∧
        v.checker = r.checker) ∨
      ∃ before c after v e v', calls = before ++ c :: after ∧
        Sink.run before (start s ({ symbols := p } : Writer π)) = some v ∧
        Sink.step c v = .error e v' ∧ e.IsOutOfRange) ∧
    (∀ calls v c e, Sink.run calls (start s ({ symbols := p } : Writer π)) = some v →
      v.RefusedBehind c e → e.IsOutOfRange) ∧
    ∀ calls c e, (Sink.session calls (start s ({ symbols := p } : Writer π))).2.RefusedBehind c e →
      e.IsOutOfRange ∨ c = .finish ∧ ∃ name, e = .write (.unmarkedLabel name) := by
  refine ⟨?_, ?_, ?_⟩
  · intro calls r hrun
    exact Synced.follow_run (synced_start p) (inStep_start s) rfl hrun
  · rintro calls v c e hrun ⟨c', k, w', haccept, hrefused⟩
    obtain ⟨cells, hsynced⟩ := Synced.run (synced_start p) hrun
    exact hsynced.refused haccept hrefused
  · rintro calls c e ⟨c', k, w', haccept, hrefused⟩
    rcases (backed_session s p calls).refused haccept hrefused with hrange | ⟨hfinish, -, hname⟩
    · exact Or.inl hrange
    · exact Or.inr ⟨hfinish, hname⟩

/-- A method with a short branch over as many instructions of one byte each. -/
def skipping (count : Nat) : List Call :=
  [.createLabel "end", .branch .brS 0] ++ List.replicate count (.emit .nop .none) ++
    [.markLabel 0, .emit .ret .none, .finish]

def skippingSubject : Subject where
  method := { name := "Main", declaringType := .plainClass "Program" (some .object), parameters := [],
              returnType := none, isStatic := true }

/-- A short branch reaches over 127 bytes and not over one more, which a verifier does not see. -/
theorem refused_for_distance_skipping :
    (∃ r v, Sink.run (skipping 127) (start skippingSubject ({} : Recorder)) = some r ∧
      Sink.run (skipping 127) (start skippingSubject ({} : Writer)) = some v ∧
      v.checker = r.checker) ∧
    (∃ r, Sink.run (skipping 128) (start skippingSubject ({} : Recorder)) = some r) ∧
    ∃ before c after v e v', skipping 128 = before ++ c :: after ∧
      Sink.run before (start skippingSubject ({} : Writer)) = some v ∧
      Sink.step c v = .error e v' ∧ e.IsOutOfRange := by
  have hrecorded : ∀ count ∈ [127, 128],
      (Sink.run (skipping count) (start skippingSubject ({} : Recorder))).isSome = true := by
    decide +kernel
  have hwritten : (Sink.run (skipping 127) (start skippingSubject ({} : Writer))).isSome = true ∧
      (Sink.run (skipping 128) (start skippingSubject ({} : Writer))).isSome = false := by
    decide +kernel
  obtain ⟨near, hnear⟩ := Option.isSome_iff_exists.mp (hrecorded 127 (by simp))
  obtain ⟨far, hfar⟩ := Option.isSome_iff_exists.mp (hrecorded 128 (by simp))
  have hfollows := (refused_for_distance skippingSubject ({} : SymbolTable)).1
  refine ⟨?_, ⟨far, hfar⟩, ?_⟩
  · rcases hfollows _ near hnear with ⟨v, hv, hsame⟩ | ⟨before, c, after, v, e, v', hcalls, hv, hstep, -⟩
    · exact ⟨near, v, hnear, hv, hsame⟩
    · -- A refused call ends the run, and the writer has come to the end of this one.
      exfalso
      obtain ⟨w, hw⟩ := Option.isSome_iff_exists.mp hwritten.1
      rw [hcalls] at hw
      obtain ⟨w₁, hw₁, hrest⟩ := Sink.run_append.mp hw
      obtain rfl := Option.some.inj (hv.symm.trans hw₁)
      obtain ⟨reply, w₂, hok, -⟩ := Sink.run_cons.mp hrest
      rw [hstep] at hok
      cases hok
  · rcases hfollows _ far hfar with ⟨v, hv, -⟩ | hrefused
    · rw [hv] at hwritten
      cases hwritten.2
    · exact hrefused

end Verifier

end Cil
