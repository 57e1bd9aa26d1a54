/-
What the receiver behind a verifier gets to see.

A call goes on only after every check, so a refused call leaves no trace behind the verifier.  What
is left to see is that a call goes on unchanged.  Only its labels could differ: they are translated
to the receiver's indices.  A verifier and a receiver that start together count their labels alike,
and no call, accepted or refused, changes an index that was handed out, so the translation is the
identity.
-/
import Cil.Proofs.Verifier.Invariant

namespace Cil

/-! ### Indices at the receiver -/

namespace LabelTable

variable {t : LabelTable} {index : Nat}

/-- The receiver's indices of the labels, in order. -/
def indices (t : LabelTable) : Array Nat := t.labels.map Label.downstream

theorem indices_put {l l' : Label} (hl : t.labels[index]? = some l)
    (hindex : l'.downstream = l.downstream) : (t.put index l').indices = t.indices := by
  unfold indices
  apply Array.ext_getElem?
  intro i
  rw [Array.getElem?_map, Array.getElem?_map, getElem?_put (Array.getElem?_eq_some_iff.mp hl).1]
  by_cases hi : i = index
  · rw [if_pos hi, hi, hl, Option.map_some, Option.map_some, hindex]
  · rw [if_neg hi]

theorem downstream_eq_getD (t : LabelTable) (i : Nat) : t.downstream i = t.indices[i]?.getD i := by
  rw [downstream, indices, Array.getElem?_map]

/-- If the receiver counts its labels as the table does, nothing is to be translated. -/
theorem downstream_of_indices {n : Nat} (h : t.indices = Array.range n) (i : Nat) :
    t.downstream i = i := by
  rw [downstream_eq_getD, h]
  by_cases hi : i < n
  · simp [hi]
  · simp [hi]

end LabelTable

namespace Checker

/-- The checker hands out the given indices. -/
def Hands (is : Array Nat) (k : Checker) : Prop := k.labels.indices = is

/-- No call changes an index that was handed out. -/
theorem stable_hands (is : Array Nat) (c : Call) : Stable (Hands is) c :=
  stable_labels (fun _ _ _ _ ht hl hgrows =>
    (LabelTable.indices_put hl hgrows.downstream).trans ht) c

/-- The call that is passed on is the call that was made, up to the indices of its labels. -/
theorem forwarded_eq {k k' : Checker} {c c' : Call} (h : accept c k = .ok c' k') :
    c' = c.mapLabels k.labels.downstream := by
  cases c with
  | declareLocal t name => exact (accept_declareLocal.mp h).2.1.symm
  | createLabel name => exact (accept_createLabel.mp h).1.symm
  | markLabel index =>
    obtain ⟨l, t, hl, -, -, rfl, -⟩ := accept_markLabel.mp h
    rw [Call.mapLabels, LabelTable.downstream_eq hl]
  | finish => exact (accept_finish.mp h).2.2.2.2.1.symm
  | emit op x => exact ((accept_instruction rfl).mp h).2.2.symm
  | branch op target => exact ((accept_instruction rfl).mp h).2.2.symm
  | switch targets => exact ((accept_instruction rfl).mp h).2.2.symm
  | invoke op m => exact ((accept_instruction rfl).mp h).2.2.symm
  | field op f => exact ((accept_instruction rfl).mp h).2.2.symm
  | type op t => exact ((accept_instruction rfl).mp h).2.2.symm
  | token op m => exact ((accept_instruction rfl).mp h).2.2.symm
  | string op value => exact ((accept_instruction rfl).mp h).2.2.symm

end Checker

theorem Call.mapLabels_id (c : Call) {f : Nat → Nat} (hf : ∀ i, f i = i) : c.mapLabels f = c := by
  cases c with
  | markLabel label => rw [mapLabels, hf]
  | branch op target => rw [mapLabels, hf]
  | switch targets =>
    rw [mapLabels, show f = id from funext hf, List.map_id]
  | _ => rfl

/-! ### A verifier in front of a recorder -/

namespace Recorder

variable {r r' : Recorder} {c : Call}

theorem step_eq (c : Call) (r : Recorder) :
    (Sink.step c r : EStateM.Result Rejection Recorder (Option Nat))
      = .ok (record c r).1 (record c r).2 := rfl

@[simp] theorem calls_record (c : Call) (r : Recorder) :
    (record c r).2.calls = r.calls.push c := by
  cases c <;> rfl

/-- Only a new label moves the count of labels. -/
theorem labels_record (c : Call) (r : Recorder) :
    (∃ name, c = .createLabel name ∧ record c r = (some r.labels,
        { r with calls := r.calls.push c, labels := r.labels + 1 })) ∨
      (∀ name, c ≠ .createLabel name) ∧ (record c r).2.labels = r.labels := by
  cases c with
  | createLabel name => exact Or.inl ⟨name, rfl, rfl⟩
  | _ => exact Or.inr ⟨nofun, rfl⟩

end Recorder

namespace Checker

theorem labels_settle {c : Call} (hc : ∀ name, c ≠ .createLabel name) (reply : Option Nat)
    (k : Checker) : (settle c reply k).2.labels = k.labels := by
  cases c with
  | createLabel name => exact absurd rfl (hc name)
  | _ => rfl

end Checker

namespace Verifier

/-- The verifier and the recorder behind it count their labels alike. -/
def InStep (v : Verifier Recorder) : Prop :=
  v.checker.labels.indices = Array.range v.downstream.labels

variable {v v' : Verifier Recorder} {c : Call}

theorem InStep.downstream_eq (h : InStep v) (i : Nat) : v.checker.labels.downstream i = i :=
  LabelTable.downstream_of_indices h i

theorem inStep_start (s : Subject) : InStep (start s ({} : Recorder)) := by
  simp [InStep, start, Checker.start, LabelTable.indices]

/-- An accepted call is recorded as it was made. -/
theorem InStep.step_ok {reply : Option Nat} (h : InStep v) (hstep : Sink.step c v = .ok reply v') :
    v'.downstream.calls = v.downstream.calls.push c ∧ InStep v' := by
  obtain ⟨c', k, r, haccept, hrecord, hsettle⟩ := Verifier.step_ok.mp hstep
  have hc : c' = c := by
    rw [Checker.forwarded_eq haccept, Call.mapLabels_id c h.downstream_eq]
  have hk : k.labels.indices = Array.range v.downstream.labels :=
    ((Checker.stable_hands _ c).keeps_accept.of_ok h haccept).1
  subst hc
  rw [Recorder.step_eq, EStateM.Result.ok.injEq] at hrecord
  obtain ⟨hr, hdown⟩ := hrecord
  have hk' : v'.checker = (Checker.settle c' r k).2 := by rw [hsettle]
  refine ⟨by rw [← hdown, Recorder.calls_record], ?_⟩
  unfold InStep
  rw [hk', ← hdown]
  rcases Recorder.labels_record c' v.downstream with ⟨name, rfl, hrecord⟩ | ⟨hname, hlabels⟩
  · rw [hrecord] at hr ⊢
    -- The new label has the next index on both sides.
    show ((k.labels.labels.push _).map Label.downstream) = Array.range (v.downstream.labels + 1)
    rw [Array.map_push, Array.range_succ, ← hr]
    exact congrArg (Array.push · v.downstream.labels) hk
  · rw [Checker.labels_settle hname, hlabels]
    exact hk

/-- A refused call leaves the recorder as it was. -/
theorem InStep.step_error {e : Rejection} (h : InStep v) (hstep : Sink.step c v = .error e v') :
    v'.downstream = v.downstream ∧ InStep v' := by
  rcases Verifier.step_error hstep with ⟨haccept, hdown⟩ | ⟨c', -, hrefused⟩
  · refine ⟨hdown, ?_⟩
    unfold InStep
    rw [hdown]
    exact (Checker.stable_hands _ c).keeps_accept.of_error h haccept
  · exact nomatch hrefused

/-- What a session records is what it was given and accepted. -/
theorem InStep.session (h : InStep v) (calls : List Call) :
    (Sink.session calls v).2.downstream.calls.toList
        = v.downstream.calls.toList ++ Sink.accepted calls v ∧
      InStep (Sink.session calls v).2 := by
  induction calls generalizing v with
  | nil => exact ⟨(List.append_nil _).symm, h⟩
  | cons c rest ih =>
    cases hstep : Sink.step c v with
    | ok reply v' =>
      obtain ⟨hsession, haccepted⟩ := Sink.session_cons_ok rest hstep
      obtain ⟨hcalls, hv'⟩ := h.step_ok hstep
      obtain ⟨hrest, hend⟩ := ih hv'
      rw [hsession, haccepted]
      refine ⟨?_, hend⟩
      rw [hrest, hcalls, Array.toList_push, List.append_assoc, List.singleton_append]
    | error e v' =>
      obtain ⟨hsession, haccepted⟩ := Sink.session_cons_error rest hstep
      obtain ⟨hdown, hv'⟩ := h.step_error hstep
      obtain ⟨hrest, hend⟩ := ih hv'
      rw [hsession, haccepted]
      refine ⟨?_, hend⟩
      rw [hrest, hdown]

/-- **A verifier passes on exactly what it accepts.**  However a session goes, what stands recorded
behind the verifier is the list of the calls that were accepted, in order and unchanged, labels
included: every label has the same index on both sides. -/
theorem recorded_eq_accepted (s : Subject) (calls : List Call) :
    (Sink.session calls (start s ({} : Recorder))).2.downstream.calls.toList
        = Sink.accepted calls (start s ({} : Recorder)) ∧
      ∀ (i : Nat) (l : Label),
        (Sink.session calls (start s ({} : Recorder))).2.checker.labels.labels[i]? = some l →
          l.downstream = i := by
  obtain ⟨hcalls, hend⟩ := (inStep_start s).session calls
  refine ⟨hcalls, ?_⟩
  intro i l hl
  rw [← LabelTable.downstream_eq hl]
  exact hend.downstream_eq i

end Verifier

end Cil
