/-
Prefixes along the paths of a body.

The checker keeps the prefixes that wait in the order of the code: what stands before an instruction is
what the rule of the instruction sees.  Control does not keep to that order.  What it brings to an
instruction are the prefixes that it passed since the last instruction that is none (`carried`), and a
branch brings nothing.

Marking a label asks for the stack and for nothing else, so a label may be marked between a prefix and
its instruction.  A path that branches there jumps over the prefix, and the instruction runs without
something that its rule has counted on.  It is the only way in which the two can differ:
`carried_eq_iff_no_jump_over` says so for every accepted body.
-/
import Cil.Proofs.Verifier.Replay

namespace Cil

namespace Opcode

variable {op : Opcode}

/-- What stood further back stays further back. -/
theorem pendingPrefixes_isPrefix (op : Opcode) {ps qs : List Prefix} (h : ps <+: qs) :
    op.pendingPrefixes ps <+: op.pendingPrefixes qs := by
  unfold pendingPrefixes
  split
  · exact (List.prefix_cons_inj _).mpr h
  · exact List.nil_prefix

theorem pendingPrefixes_of_branch {b : Branch} (h : op.category = .branch b) (ps : List Prefix) :
    op.pendingPrefixes ps = [] := by
  rw [pendingPrefixes, h]

end Opcode

/-- What has a target and a rule is a branch. -/
theorem Call.category_of_target {c : Call} {f : Frame} {transition : Transition} {label : Nat}
    (hrule : c.rule? f = some transition) (hlabel : label ∈ c.targets) :
    ∃ op b, c.opcode? = some op ∧ op.category = .branch b := by
  cases c with
  | branch op target =>
    change Transition.ofTarget op f = some transition at hrule
    unfold Transition.ofTarget at hrule
    split at hrule
    · next b hcategory => exact ⟨op, b, rfl, hcategory⟩
    · cases hrule
  | switch targets => exact ⟨.switch, _, rfl, rfl⟩
  | _ => exact absurd hlabel List.not_mem_nil

namespace Body

variable {b : Body} {p : List Nat} {i j : Nat} {site : Site}

/-! ### In the order of the code -/

/-- The prefixes that stand at each position, the end of the code included. -/
def standing (b : Body) : List (List Prefix) :=
  b.code.map (fun site => site.frame.prefixes) ++ [b.prefixes]

theorem getElem?_standing (hsite : b.code[i]? = some site) :
    b.standing[i]? = some site.frame.prefixes := by
  have hi := (List.getElem?_eq_some_iff.mp hsite).1
  rw [standing, List.getElem?_append_left (by simpa using hi), List.getElem?_map, hsite]
  rfl

/-- Each instruction finds the prefixes that the one before it leaves. -/
structure Chained (b : Body) : Prop where
  first : b.standing[0]? = some []
  next : ∀ i site, b.code[i]? = some site → ∃ op, site.call.opcode? = some op ∧
    b.standing[i + 1]? = some (op.pendingPrefixes site.frame.prefixes)

theorem standing_add_of_none {c : Call} (hop : c.opcode? = none) : (b.add c).standing = b.standing := by
  cases c <;> simp [standing, add, Call.opcode?] at hop ⊢

theorem Chained.add (h : b.Chained) (c : Call) : (b.add c).Chained := by
  cases hop : c.opcode? with
  | none =>
    refine ⟨by rw [standing_add_of_none hop]; exact h.first, ?_⟩
    rw [code_add_of_none hop, standing_add_of_none hop]
    exact h.next
  | some op =>
    have hstanding : (b.add c).standing = b.standing ++ [op.pendingPrefixes b.prefixes] := by
      simp [standing, add_of_opcode hop]
    refine ⟨?_, ?_⟩
    · rw [hstanding]
      exact Checker.getElem?_concat.mpr (Or.inl h.first)
    · intro i site hsite
      rw [hstanding]
      rw [add_of_opcode hop] at hsite
      rcases Checker.getElem?_concat.mp hsite with hold | ⟨hi, rfl⟩
      · obtain ⟨op', hop', hnext⟩ := h.next i site hold
        exact ⟨op', hop', Checker.getElem?_concat.mpr (Or.inl hnext)⟩
      · exact ⟨op, hop, Checker.getElem?_concat.mpr (Or.inr ⟨by simp [standing, hi], rfl⟩)⟩

theorem Chained.addAll (h : b.Chained) (calls : List Call) : (calls.foldl Body.add b).Chained := by
  induction calls generalizing b with
  | nil => exact h
  | cons c rest ih => exact ih (h.add c)

theorem chained_ofCalls (m : Method) (calls : List Call) : (ofCalls m calls).Chained := by
  have hempty : ({ method := m } : Body).Chained := by
    refine ⟨rfl, ?_⟩
    intro i site hsite
    simp at hsite
  exact hempty.addAll calls

/-! ### Along a path -/

/-- The prefixes that control brings along a path: those passed since the last instruction that is
none, the latest first. -/
def carried (b : Body) : List Nat → List Prefix
  | [] => []
  | i :: p =>
    match b.code[i]?.bind fun site => site.call.opcode? with
    | some op => op.pendingPrefixes (b.carried p)
    | none => []

theorem carried_cons {op : Opcode} (hsite : b.code[i]? = some site)
    (hop : site.call.opcode? = some op) (p : List Nat) :
    b.carried (i :: p) = op.pendingPrefixes (b.carried p) := by
  simp [carried, hsite, hop]

/-- Does control branch from one position to the other? -/
def Jumps (b : Body) (i j : Nat) : Prop :=
  ∃ site, b.code[i]? = some site ∧ ∃ label ∈ site.call.targets, (label, j) ∈ b.marks

theorem edge_iff : b.Edge i j ↔ b.FallsTo i j ∨ b.Jumps i j := by
  unfold Edge FallsTo Jumps
  constructor
  · rintro ⟨site, hsite, hfalls | hjumps⟩
    · exact Or.inl ⟨site, hsite, hfalls⟩
    · exact Or.inr ⟨site, hsite, hjumps⟩
  · rintro (⟨site, hsite, hfalls⟩ | ⟨site, hsite, hjumps⟩)
    · exact ⟨site, hsite, Or.inl hfalls⟩
    · exact ⟨site, hsite, Or.inr hjumps⟩

/-- What holds between no prefixes and none, is kept by every instruction and holds where branches lead,
holds along every path between what control brings and what stands there. -/
theorem Chained.along_path (h : b.Chained) {R : List Prefix → List Prefix → Prop} (hnil : R [] [])
    (hpending : ∀ (op : Opcode) ps qs, R ps qs → R (op.pendingPrefixes ps) (op.pendingPrefixes qs))
    (hjumps : ∀ p i j site, b.Path p i → b.Jumps i j → b.code[j]? = some site →
      R (b.carried (i :: p)) site.frame.prefixes)
    (hpath : b.Path p i) (hsite : b.code[i]? = some site) : R (b.carried p) site.frame.prefixes := by
  induction hpath generalizing site with
  | start =>
    have hfirst : some [] = some site.frame.prefixes :=
      h.first.symm.trans (getElem?_standing hsite)
    rw [← Option.some.inj hfirst]
    exact hnil
  | @step p i j hpath hedge ih =>
    rcases edge_iff.mp hedge with ⟨site₀, hsite₀, -, rfl⟩ | hjump
    · obtain ⟨op, hop, hnext⟩ := h.next i site₀ hsite₀
      have hstands : some (op.pendingPrefixes site₀.frame.prefixes) = some site.frame.prefixes :=
        hnext.symm.trans (getElem?_standing hsite)
      rw [carried_cons hsite₀ hop, ← Option.some.inj hstands]
      exact hpending op _ _ (ih hsite₀)
    · exact hjumps p i j site hpath hjump hsite

end Body

/-! ### Accepted bodies -/

namespace Checker

variable {s : Subject} {b : Body} {seen : List Checker} {k : Checker} {p : List Nat} {i j : Nat}

/-- A path leads to instructions only. -/
theorem Tracked.exists_site (h : Tracked s b seen k) (hend : k.reachable = false)
    (hpath : b.Path p i) : ∃ site, b.code[i]? = some site := by
  obtain ⟨k₁, hk₁, -⟩ := h.path hend hpath
  have hi : i < b.code.length := h.length ▸ (List.getElem?_eq_some_iff.mp hk₁).1
  exact ⟨_, List.getElem?_eq_getElem hi⟩

/-- A branch brings no prefix along. -/
theorem Tracked.carried_of_jumps (h : Tracked s b seen k) (hend : k.reachable = false)
    (hpath : b.Path p i) (hjumps : b.Jumps i j) : b.carried (i :: p) = [] := by
  obtain ⟨k₁, hk₁, hreach, -⟩ := h.path hend hpath
  obtain ⟨site, hsite, label, hlabel, -⟩ := hjumps
  obtain ⟨tags, ⟨transition, st, st', hrule, -⟩, -⟩ := (h.fits i site k₁ hsite hk₁ hreach).leaves
  obtain ⟨op, branch, hop, hcategory⟩ := Call.category_of_target hrule hlabel
  rw [Body.carried_cons hsite hop, Opcode.pendingPrefixes_of_branch hcategory]

end Checker

namespace Verifier

variable {δ : Type} [Sink δ]

theorem tracked_of_accepted {s : Subject} {d : δ} {calls : List Call} {final : Verifier δ}
    (haccepted : Sink.run (calls ++ [.finish]) (start s d) = some final) :
    ∃ k, Checker.Tracked s (Body.ofCalls s.method calls) (statesBefore calls (start s d)) k ∧
      k.reachable = false := by
  obtain ⟨v, hrun, hfinish⟩ := Sink.run_append.mp haccepted
  obtain ⟨reply, v', hstep, -⟩ := Sink.run_cons.mp hfinish
  obtain ⟨c', k', r, haccept, -, -⟩ := step_ok.mp hstep
  obtain ⟨-, -, hend, -, -, -⟩ := Checker.accept_finish.mp haccept
  exact ⟨v.checker, tracked_run (Checker.tracked_start s) hrun, hend⟩

/-- **A prefix can be jumped over, and only by a branch.**  In an accepted body control brings to every
instruction the latest of the prefixes that stand before it.  It brings all of them along every path just
if no branch that control comes to leads to a place where prefixes stand. -/
theorem carried_eq_iff_no_jump_over (s : Subject) (d : δ) (calls : List Call) (final : Verifier δ)
    (haccepted : Sink.run (calls ++ [.finish]) (start s d) = some final) :
    (∀ p i, (Body.ofCalls s.method calls).Path p i →
      ∃ site, (Body.ofCalls s.method calls).code[i]? = some site ∧
        (Body.ofCalls s.method calls).carried p <+: site.frame.prefixes) ∧
    ((∀ p i site, (Body.ofCalls s.method calls).Path p i →
        (Body.ofCalls s.method calls).code[i]? = some site →
        (Body.ofCalls s.method calls).carried p = site.frame.prefixes) ↔
      ∀ p i j site, (Body.ofCalls s.method calls).Path p i →
        (Body.ofCalls s.method calls).Jumps i j →
        (Body.ofCalls s.method calls).code[j]? = some site → site.frame.prefixes = []) := by
  obtain ⟨k, htracked, hend⟩ := tracked_of_accepted haccepted
  have hchained := Body.chained_ofCalls s.method calls
  refine ⟨?_, ?_, ?_⟩
  · intro p i hpath
    obtain ⟨site, hsite⟩ := htracked.exists_site hend hpath
    refine ⟨site, hsite, ?_⟩
    refine hchained.along_path List.prefix_rfl (fun op ps qs => op.pendingPrefixes_isPrefix) ?_ hpath
      hsite
    intro p i j site hpath hjumps _
    rw [htracked.carried_of_jumps hend hpath hjumps]
    exact List.nil_prefix
  · intro hall p i j site hpath hjumps hsite
    rw [← hall (i :: p) j site (hpath.step (Body.edge_iff.mpr (Or.inr hjumps))) hsite]
    exact htracked.carried_of_jumps hend hpath hjumps
  · intro hnone p i site hpath hsite
    refine hchained.along_path rfl (fun op ps qs h => congrArg op.pendingPrefixes h) ?_ hpath hsite
    intro p i j site hpath hjumps hsite
    rw [htracked.carried_of_jumps hend hpath hjumps, hnone p i j site hpath hjumps hsite]

end Verifier

/-! ### A prefix that is jumped over -/

/-- A method that every object has. -/
def hashCode : Method where
  name := "GetHashCode"
  declaringType := .object
  parameters := []
  returnType := some .int32
  isStatic := false
  isVirtual := true

/-- Calls a method of objects on the number behind an address.  The prefix that allows it can be jumped
over. -/
def jumpOver : List Call :=
  [.createLabel "call", .emit .ldarg0 .none, .emit .ldarg1 .none, .branch .brtrueS 0,
    .type .constrained .int32, .markLabel 0, .invoke .callvirt hashCode, .emit .pop .none,
    .emit .ret .none]

def jumpOverSubject : Subject where
  method := { name := "Hash", declaringType := .object, returnType := none, isStatic := true,
              parameters := [.pointer .int32 true, .int32] }

/-- The body is accepted.  On the path that branches, the call comes without its prefix, and so does not
take the address it is given. -/
theorem Verifier.jumps_over_constrained :
    (Sink.run (jumpOver ++ [.finish]) (start jumpOverSubject ({} : Discard))).isSome = true ∧
    (Body.ofCalls jumpOverSubject.method jumpOver).Path [2, 1, 0] 4 ∧
    ∃ site, (Body.ofCalls jumpOverSubject.method jumpOver).code[4]? = some site ∧
      site.frame.prefixes = [.constrained] ∧
      (Body.ofCalls jumpOverSubject.method jumpOver).carried [2, 1, 0] = [] ∧
      site.run 8 [.of (.pointer .int32 true)] = .ok ⟨[.of .int32], 8, 1, 1⟩ ∧
      (Site.run { site with frame := { site.frame with prefixes := [] } } 8
        [.of (.pointer .int32 true)]) = .error (.violation (.typeMismatch .callvirt "object" "int32&")) ∧
      ¬ ∀ p i j site, (Body.ofCalls jumpOverSubject.method jumpOver).Path p i →
        (Body.ofCalls jumpOverSubject.method jumpOver).Jumps i j →
        (Body.ofCalls jumpOverSubject.method jumpOver).code[j]? = some site →
        site.frame.prefixes = [] := by
  have haccepted :
      (Sink.run (jumpOver ++ [.finish]) (start jumpOverSubject ({} : Discard))).isSome = true := by
    decide +kernel
  have hpath : (Body.ofCalls jumpOverSubject.method jumpOver).Path [2, 1, 0] 4 := by
    refine .step (.step (.step .start ?_) ?_) ⟨_, rfl, Or.inr ⟨0, ?_, ?_⟩⟩
    all_goals first | exact ⟨_, rfl, Or.inl ⟨rfl, rfl⟩⟩ | decide
  obtain ⟨final, hfinal⟩ := Option.isSome_iff_exists.mp haccepted
  obtain ⟨hlatest, hiff⟩ :=
    carried_eq_iff_no_jump_over jumpOverSubject ({} : Discard) jumpOver final hfinal
  obtain ⟨site, hsite, -⟩ := hlatest [2, 1, 0] 4 hpath
  refine ⟨haccepted, hpath, site, hsite, ?_⟩
  have hnot : (Body.ofCalls jumpOverSubject.method jumpOver).carried [2, 1, 0]
      ≠ site.frame.prefixes := by
    cases hsite
    exact nofun
  cases hsite
  exact ⟨rfl, rfl, rfl, rfl, fun hnone => hnot (hiff.mpr hnone [2, 1, 0] 4 _ hpath rfl)⟩

end Cil
