/-
Runs of prefixes.

A prefix waits for the next instruction that is none.  What waits at any time is therefore the run of
prefixes at the end of the code so far, and nothing else: labels and locals that are declared in between
do not touch it, and an instruction that is no prefix uses it up (`pendingAfter_run`).

The checker looks at what waits when an instruction is taken up and at the end of the body.  So in an
accepted body no run holds a prefix twice, every run is followed by an instruction that allows all of it,
and this instruction is the only one on which the run takes effect (`active_eq_run`).
-/
import Cil.Proofs.Verifier.Paths
import Mathlib.Data.List.Nodup

namespace Cil

theorem Prefix.category_opcode (p : Prefix) : p.opcode.category = .prefixOp p := by
  cases p <;> rfl

namespace Opcode

variable {op : Opcode}

theorem eq_opcode_of_prefixOp {p : Prefix} (h : op.category = .prefixOp p) : op = p.opcode := by
  cases op <;> cases h <;> rfl

/-- The prefixes that wait after some instructions, given those that waited before. -/
def pendingAfter (ops : List Opcode) (pending : List Prefix) : List Prefix :=
  ops.foldl (fun ps op => op.pendingPrefixes ps) pending

theorem pendingAfter_append (ops ops' : List Opcode) (pending : List Prefix) :
    pendingAfter (ops ++ ops') pending = pendingAfter ops' (pendingAfter ops pending) :=
  List.foldl_append

theorem pendingPrefixes_opcode (p : Prefix) (pending : List Prefix) :
    p.opcode.pendingPrefixes pending = p :: pending := by
  simp [pendingPrefixes, p.category_opcode]

/-- What is no prefix is left alone by the prefixes after it. -/
theorem pendingPrefixes_eq_nil (h : ∀ p : Prefix, op ≠ p.opcode) (pending : List Prefix) :
    op.pendingPrefixes pending = [] := by
  unfold pendingPrefixes
  split
  · next p hcategory => exact absurd (eq_opcode_of_prefixOp hcategory) (h p)
  · rfl

theorem activePrefixes_eq (h : ∀ p : Prefix, op ≠ p.opcode) (pending : List Prefix) :
    op.activePrefixes pending = pending := by
  unfold activePrefixes
  split
  · next p hcategory => exact absurd (eq_opcode_of_prefixOp hcategory) (h p)
  · rfl

theorem admitsPrefixes_iff (h : ∀ p : Prefix, op ≠ p.opcode) {pending : List Prefix} :
    op.AdmitsPrefixes pending ↔ ∀ p ∈ pending, p ∈ op.prefixes := by
  unfold AdmitsPrefixes
  split
  · next p hcategory => exact absurd (eq_opcode_of_prefixOp hcategory) (h p)
  · exact Iff.rfl

theorem mem_prefixes_of_admits (h : ∀ p : Prefix, op ≠ p.opcode) {pending : List Prefix}
    (hadmits : op.AdmitsPrefixes pending) : ∀ p ∈ pending, p ∈ op.prefixes :=
  (admitsPrefixes_iff h).mp hadmits

theorem nodup_pendingPrefixes {pending : List Prefix} (h : pending.Nodup)
    (hadmits : op.AdmitsPrefixes pending) : (op.pendingPrefixes pending).Nodup := by
  unfold AdmitsPrefixes at hadmits
  unfold pendingPrefixes
  split
  · next p hcategory =>
    rw [hcategory] at hadmits
    exact List.nodup_cons.mpr ⟨hadmits, h⟩
  · exact List.nodup_nil

theorem pendingAfter_map_opcode (run pending : List Prefix) :
    pendingAfter (run.map Prefix.opcode) pending = run.reverse ++ pending := by
  induction run generalizing pending with
  | nil => rfl
  | cons p run ih =>
    have hfirst : pendingAfter ((p :: run).map Prefix.opcode) pending
        = pendingAfter (run.map Prefix.opcode) (p :: pending) :=
      congrArg (pendingAfter (run.map Prefix.opcode)) (pendingPrefixes_opcode p pending)
    rw [hfirst, ih]
    simp

/-- **What waits is the run of prefixes at the end**, the latest first. -/
theorem pendingAfter_run {before : List Opcode} (hbefore : ∀ p : Prefix, before.getLast? ≠ some p.opcode)
    (run : List Prefix) : pendingAfter (before ++ run.map Prefix.opcode) [] = run.reverse := by
  have hnone : pendingAfter before [] = [] := by
    rcases List.eq_nil_or_concat' before with rfl | ⟨front, op, rfl⟩
    · rfl
    · have hop : ∀ p : Prefix, op ≠ p.opcode := by
        intro p heq
        exact hbefore p (by simp [heq])
      rw [pendingAfter_append]
      exact pendingPrefixes_eq_nil hop _
  rw [pendingAfter_append, hnone, pendingAfter_map_opcode, List.append_nil]

end Opcode

namespace Verifier

variable {δ : Type} [Sink δ] {v v' : Verifier δ} {c : Call} {reply : Option Nat}

/-- A call that emits nothing leaves what waits. -/
theorem pending_of_step_none (hop : c.opcode? = none) (hok : Sink.step c v = .ok reply v') :
    v'.checker.pending = v.checker.pending := by
  obtain ⟨c', k, r, haccept, -, hsettle⟩ := step_ok.mp hok
  have hk := (Prod.mk.inj hsettle).2
  cases c with
  | declareLocal t name =>
    obtain ⟨-, -, rfl⟩ := Checker.accept_declareLocal.mp haccept
    rw [← hk]
  | createLabel name =>
    obtain ⟨-, rfl⟩ := Checker.accept_createLabel.mp haccept
    rw [← hk]
  | markLabel label =>
    obtain ⟨l, t, -, -, -, -, rfl⟩ := Checker.accept_markLabel.mp haccept
    rw [← hk]
    exact (Checker.enter_unchanged v.checker _).2.2
  | finish =>
    obtain ⟨-, -, -, -, -, rfl⟩ := Checker.accept_finish.mp haccept
    rw [← hk]
  | _ => exact nomatch hop

/-- An instruction is taken up with what waits. -/
theorem pending_of_step_some {op : Opcode} (hop : c.opcode? = some op)
    (hok : Sink.step c v = .ok reply v') : op.AdmitsPrefixes v.checker.pending ∧
      v'.checker.pending = op.pendingPrefixes v.checker.pending := by
  obtain ⟨hadmits, transition, s, t, -, -, -, hv'⟩ :=
    Checker.instruction_ok.mp (instruction_of_step hop hok)
  rw [← hv']
  exact ⟨hadmits, rfl⟩

/-- **Along a run what waits follows from the opcodes alone.** -/
theorem pending_run {calls : List Call} (hnodup : v.checker.pending.Nodup)
    (hrun : Sink.run calls v = some v') : v'.checker.pending.Nodup ∧
      v'.checker.pending = Opcode.pendingAfter (calls.filterMap Call.opcode?) v.checker.pending := by
  induction calls generalizing v with
  | nil =>
    rw [Sink.run, Option.some.injEq] at hrun
    subst hrun
    exact ⟨hnodup, rfl⟩
  | cons c rest ih =>
    obtain ⟨reply, v₁, hstep, hrest⟩ := Sink.run_cons.mp hrun
    cases hop : c.opcode? with
    | none =>
      have hpending := pending_of_step_none hop hstep
      rw [List.filterMap_cons_none hop, ← hpending]
      exact ih (hpending ▸ hnodup) hrest
    | some op =>
      obtain ⟨hadmits, hpending⟩ := pending_of_step_some hop hstep
      have hnodup₁ := Opcode.nodup_pendingPrefixes hnodup hadmits
      obtain ⟨hnodup', hend⟩ := ih (hpending ▸ hnodup₁) hrest
      rw [hpending] at hend
      rw [List.filterMap_cons_some hop]
      exact ⟨hnodup', hend⟩

/-- The instruction after a run of prefixes: what waits there is the run. -/
theorem exists_taken_up {s : Subject} {d : δ} {front back : List Call}
    (hrun : Sink.run (front ++ c :: back) (start s d) = some v') {before : List Opcode}
    {run : List Prefix} (hfront : front.filterMap Call.opcode? = before ++ run.map Prefix.opcode)
    (hbefore : ∀ p : Prefix, before.getLast? ≠ some p.opcode) :
    ∃ v₁ v₂ reply, Sink.run front (start s d) = some v₁ ∧ Sink.step c v₁ = .ok reply v₂ ∧
      v₁.checker.pending.Nodup ∧ v₁.checker.pending = run.reverse := by
  obtain ⟨v₁, hfirst, hlast⟩ := Sink.run_append.mp hrun
  obtain ⟨reply, v₂, hstep, -⟩ := Sink.run_cons.mp hlast
  obtain ⟨hnodup, hpending⟩ := pending_run List.nodup_nil hfirst
  rw [hfront] at hpending
  exact ⟨v₁, v₂, reply, hfirst, hstep, hnodup, hpending.trans (Opcode.pendingAfter_run hbefore run)⟩

/-- **Prefixes keep to their instruction.**  In an accepted body no run of prefixes holds one of them twice,
and every run is followed by an instruction that allows all of it.  Whatever the instruction, just the run
before it is active on it and seen by its rule, be labels and locals declared in between or not. -/
theorem active_eq_run (s : Subject) (d : δ) (calls : List Call) (final : Verifier δ)
    (haccepted : Sink.run (calls ++ [.finish]) (start s d) = some final) :
    (∀ (before after : List Opcode) (run : List Prefix),
      calls.filterMap Call.opcode? = before ++ run.map Prefix.opcode ++ after →
      (∀ p : Prefix, before.getLast? ≠ some p.opcode) → (∀ p : Prefix, after.head? ≠ some p.opcode) →
      run.Nodup ∧ (run ≠ [] → ∃ op rest, after = op :: rest ∧ (∀ p : Prefix, op ≠ p.opcode) ∧
        ∀ p ∈ run, p ∈ op.prefixes)) ∧
    ∀ (front back : List Call) (c : Call) (op : Opcode) (before : List Opcode) (run : List Prefix),
      calls = front ++ c :: back → c.opcode? = some op → (∀ p : Prefix, op ≠ p.opcode) →
      front.filterMap Call.opcode? = before ++ run.map Prefix.opcode →
      (∀ p : Prefix, before.getLast? ≠ some p.opcode) →
      ∃ v v' reply k transition, Sink.run front (start s d) = some v ∧
        Sink.step c v = .ok reply v' ∧ Checker.begin op v.checker = .ok run.reverse k ∧
        c.rule? (v.checker.frame run.reverse) = some transition ∧
        transition v.checker.entryStack = .ok () v'.checker.stack := by
  obtain ⟨v, hrun, hfinish⟩ := Sink.run_append.mp haccepted
  obtain ⟨reply, v', hstep, -⟩ := Sink.run_cons.mp hfinish
  obtain ⟨c', k', r, haccept, -, -⟩ := step_ok.mp hstep
  obtain ⟨hnone, -⟩ := Checker.accept_finish.mp haccept
  refine ⟨?_, ?_⟩
  · intro before after run hops hbefore hafter
    cases after with
    | nil =>
      -- Nothing waits at the end, so the run is empty.
      obtain ⟨-, hend⟩ := pending_run List.nodup_nil hrun
      rw [hops, List.append_nil] at hend
      have hempty : run.reverse = [] :=
        (Opcode.pendingAfter_run hbefore run).symm.trans (hend.symm.trans hnone)
      obtain rfl : run = [] := List.reverse_eq_nil_iff.mp hempty
      exact ⟨List.nodup_nil, fun hne => absurd rfl hne⟩
    | cons op rest =>
      have hother : ∀ p : Prefix, op ≠ p.opcode := by
        intro p heq
        exact hafter p (by simp [heq])
      obtain ⟨front, tail, rfl, hfront, htail⟩ := List.filterMap_eq_append_iff.mp hops
      obtain ⟨idle, c, back, rfl, hidle, hop, -⟩ := List.filterMap_eq_cons_iff.mp htail
      have hfront' : (front ++ idle).filterMap Call.opcode? = before ++ run.map Prefix.opcode := by
        rw [List.filterMap_append, hfront, List.filterMap_eq_nil_iff.mpr hidle, List.append_nil]
      rw [← List.append_assoc] at hrun
      obtain ⟨v₁, v₂, reply, -, hstep, hnodup, hpending⟩ := exists_taken_up hrun hfront' hbefore
      obtain ⟨hadmits, -⟩ := pending_of_step_some hop hstep
      rw [hpending] at hnodup hadmits
      refine ⟨List.nodup_reverse.mp hnodup, fun _ => ⟨op, rest, rfl, hother, ?_⟩⟩
      intro p hp
      exact Opcode.mem_prefixes_of_admits hother hadmits p (List.mem_reverse.mpr hp)
  · rintro front back c op before run rfl hop hother hfront hbefore
    obtain ⟨v₁, v₂, reply, hfirst, hstep, -, hpending⟩ := exists_taken_up hrun hfront hbefore
    obtain ⟨hadmits, transition, st, t, hrule, hran, -, hv₂⟩ :=
      Checker.instruction_ok.mp (instruction_of_step hop hstep)
    have hactive : op.activePrefixes v₁.checker.pending = run.reverse := by
      rw [Opcode.activePrefixes_eq hother, hpending]
    rw [hactive] at hrule
    refine ⟨v₁, v₂, reply, _, transition, hfirst, hstep, Checker.begin_ok.mpr ⟨hadmits, hactive, rfl⟩,
      hrule, ?_⟩
    rw [← hv₂]
    exact hran

end Verifier

/-- Reads a number that need not be aligned.  A local and a label stand between the prefixes. -/
def unalignedLoad : List Call :=
  [.emit .ldarg0 .none, .emit .unaligned (.int32 1), .declareLocal .int32 "total", .createLabel "read",
    .markLabel 0, .emit .volatile .none, .emit .ldindI4 .none, .emit .pop .none, .emit .ret .none]

def unalignedLoadSubject : Subject where
  method := { name := "Read", declaringType := .object, returnType := none, isStatic := true,
              parameters := [.pointer .int32 true] }

theorem Verifier.active_eq_run_unalignedLoad :
    (Sink.run (unalignedLoad ++ [.finish]) (start unalignedLoadSubject ({} : Discard))).isSome = true ∧
      (∀ p ∈ [Prefix.unaligned, .volatile], p ∈ Opcode.ldindI4.prefixes) ∧
      ∃ v k, Sink.run (unalignedLoad.take 6) (start unalignedLoadSubject ({} : Discard)) = some v ∧
        Checker.begin .ldindI4 v.checker = .ok [.volatile, .unaligned] k := by
  have haccepted :
      (Sink.run (unalignedLoad ++ [.finish]) (start unalignedLoadSubject ({} : Discard))).isSome = true := by
    decide +kernel
  have hnone : ∀ p : Prefix, Opcode.ldindI4 ≠ p.opcode := by
    intro p
    cases p <;> decide
  have hfirst : ∀ p : Prefix, [Opcode.ldarg0].getLast? ≠ some p.opcode := by
    intro p
    cases p <;> decide
  obtain ⟨final, hfinal⟩ := Option.isSome_iff_exists.mp haccepted
  obtain ⟨hruns, hactive⟩ :=
    active_eq_run unalignedLoadSubject ({} : Discard) unalignedLoad final hfinal
  obtain ⟨-, hfollowed⟩ := hruns [.ldarg0] [.ldindI4, .pop, .ret] [.unaligned, .volatile] rfl hfirst
    fun p h => hnone p (Option.some.inj h)
  obtain ⟨op, rest, hafter, -, hallowed⟩ := hfollowed (List.cons_ne_nil _ _)
  cases hafter
  obtain ⟨v, -, -, k, -, hv, -, hbegin, -⟩ := hactive (unalignedLoad.take 6) [.emit .pop .none, .emit .ret .none]
    (.emit .ldindI4 .none) .ldindI4 [.ldarg0] [.unaligned, .volatile] rfl rfl hnone rfl hfirst
  exact ⟨haccepted, hallowed, v, k, hv, hbegin⟩

end Cil
