/-
Replaying the paths of an accepted body.

The checker runs each instruction once, on the stack it has in the order of the code.  A path that
comes to the instruction some other way brings the same tags, but where paths have joined it may bring
values of other types: a join compares tags only.  `replay` runs the instructions of a path one after
another on the types that this path itself produces.

What goes wrong in a replay is then a type mismatch and nothing else, and it goes wrong only where an
instruction pops a value of another type than the checker had there (`Mismatch`).  The one fact that is
needed besides `Tracked` is `Ran`: the checker ran every instruction on the stack it had before it, and
falling through went on with the stack that was left.
-/
import Cil.Proofs.Verifier.Paths

namespace Cil

/-! ### Replays -/

/-- Runs the instruction on a stack of at most `max` entries.  The counts of the stack that is left
say how many entries were pushed and popped. -/
def Site.run (site : Site) (max : Nat) (entries : List Entry) : Except Rejection Stack :=
  match site.call.rule? site.frame with
  | none => .error (.unsupported (.noRule (site.call.opcode?.getD .nop)))
  | some transition =>
    match transition ((Stack.empty max).restore entries) with
    | .ok _ after => .ok after
    | .error e _ => .error e

/-- Runs the instructions at some positions from the empty stack, the last in the list first, and gives
the entries that are left.  Past the end of the code there is nothing to run. -/
def Body.replay (b : Body) (max : Nat) : List Nat → Except Rejection (List Entry)
  | [] => .ok []
  | i :: p =>
    match b.replay max p, b.code[i]? with
    | .ok entries, some site => (site.run max entries).map Stack.entries
    | answer, _ => answer

/-- The instruction pops from one stack, which it accepts, an entry in whose place the other stack has
one with the same tag but of another type. -/
def Site.PopsOther (site : Site) (max : Nat) (accepted entries : List Entry) : Prop :=
  ∃ after n x y, site.run max accepted = .ok after ∧ n < after.pops ∧ accepted[n]? = some x ∧
    entries[n]? = some y ∧ x.tag = y.tag ∧ x.concrete ≠ y.concrete

/-- Replayed up to the instruction at `i`, the path fails there with a type mismatch.  Among what the
instruction pops is a value for which the checker had one of another type. -/
inductive Body.Mismatch (b : Body) (max : Nat) (seen : List Checker) (p : List Nat) (i : Nat)
    (e : Rejection) : Prop where
  | intro {site : Site} {k : Checker} {entries : List Entry} (hsite : b.code[i]? = some site)
    (hk : seen[i]? = some k) (hreplay : b.replay max p = .ok entries)
    (hrun : site.run max entries = .error e) (he : e.IsMismatch)
    (hother : site.PopsOther max k.stack.entries entries)

/-- Does control fall through from one position to the other? -/
def Body.FallsTo (b : Body) (i j : Nat) : Prop :=
  ∃ site, b.code[i]? = some site ∧ site.call.endsFlow = false ∧ j = i + 1

/-- Did the checker go on at `j` with the very stack that the instruction at `i` left it? -/
def Body.Carries (b : Body) (max : Nat) (seen : List Checker) (i j : Nat) : Prop :=
  ∃ site k k' after, b.code[i]? = some site ∧ seen[i]? = some k ∧ seen[j]? = some k' ∧
    site.run max k.stack.entries = .ok after ∧ k'.stack.entries = after.entries

namespace Site

variable {site : Site} {max : Nat} {entries : List Entry}

theorem run_of_rule {transition : Transition} {u : Unit} {after : Stack}
    (hrule : site.call.rule? site.frame = some transition)
    (hok : transition ((Stack.empty max).restore entries) = .ok u after) :
    site.run max entries = .ok after := by
  simp only [run, hrule, hok]

theorem exists_rule_of_run {after : Stack} (h : site.run max entries = .ok after) :
    ∃ transition, site.call.rule? site.frame = some transition ∧
      transition ((Stack.empty max).restore entries) = .ok () after := by
  unfold run at h
  cases hrule : site.call.rule? site.frame with
  | none => simp [hrule] at h
  | some transition =>
    cases hok : transition ((Stack.empty max).restore entries) with
    | error e s => simp [hrule, hok] at h
    | ok u s =>
      simp only [hrule, hok, Except.ok.injEq] at h
      exact ⟨transition, rfl, h ▸ hok⟩

/-- A run on a stack is one of the effects on its tags. -/
theorem effect_of_run {after : Stack} (h : site.run max entries = .ok after) :
    site.Effect max (entries.map Entry.tag) after.tags := by
  obtain ⟨transition, hrule, hok⟩ := exists_rule_of_run h
  exact ⟨transition, _, after, hrule, rfl, rfl, hok, rfl⟩

/-- Where stacks with the same tags differ, both have an entry, of different types. -/
theorem exists_other {es es' : List Entry} (htags : es.map Entry.tag = es'.map Entry.tag) {n : Nat}
    (hne : es[n]? ≠ es'[n]?) : ∃ x y, es[n]? = some x ∧ es'[n]? = some y ∧ x.tag = y.tag ∧
      x.concrete ≠ y.concrete := by
  have hn : es[n]?.map Entry.tag = es'[n]?.map Entry.tag := by
    simpa using congrArg (·[n]?) htags
  cases hx : es[n]? with
  | none =>
    have hy : es'[n]? = none := by simpa [hx] using hn.symm
    exact absurd (hx.trans hy.symm) hne
  | some x =>
    cases hy : es'[n]? with
    | none => simp [hx, hy] at hn
    | some y =>
      have htag : x.tag = y.tag := by simpa [hx, hy] using hn
      refine ⟨x, y, rfl, rfl, htag, fun hconcrete => hne ?_⟩
      rw [hx, hy, Entry.ext htag hconcrete]

/-- **Of a stack with the same tags as an accepted one, an instruction refuses no more than the types
of entries that it pops.** -/
theorem mismatch_of_run_error {accepted : List Entry} {after : Stack} {e : Rejection}
    (htags : accepted.map Entry.tag = entries.map Entry.tag)
    (haccepted : site.run max accepted = .ok after) (herror : site.run max entries = .error e) :
    e.IsMismatch ∧ site.PopsOther max accepted entries := by
  obtain ⟨transition, hrule, hok⟩ := exists_rule_of_run haccepted
  have hlockstep := Transition.lockstep_rule Entry.fair_sameTag (fun _ _ => rfl) hrule
  have hrefused : ∀ s, transition ((Stack.empty max).restore entries) ≠ .ok () s := by
    intro s hs
    rw [run_of_rule hrule hs] at herror
    cases herror
  constructor
  · have hrelated : List.Forall₂ Entry.SameTag ((Stack.empty max).restore accepted).entries
        ((Stack.empty max).restore entries).entries :=
      Stack.forall₂_sameTag_iff.mpr htags
    rcases hlockstep.ok_or_mismatch hrelated rfl hok with ⟨u, s, hs, -⟩ | ⟨e', s, hs, he'⟩
    · exact absurd hs (hrefused s)
    · simp only [run, hrule, hs, Except.error.injEq] at herror
      rwa [← herror]
  · -- With the same entries in all places that are popped, the run would have succeeded.
    have hdiffer : ∃ n < after.pops, accepted[n]? ≠ entries[n]? := by
      by_contra hsame
      push Not at hsame
      have hlength : accepted.length = entries.length := by
        simpa using congrArg List.length htags
      have hagrees : ((Stack.empty max).restore accepted).Agrees (0 + (after.pops - 0))
          ((Stack.empty max).restore entries) :=
        ⟨rfl, hlength, fun n hn => hsame n (by omega)⟩
      obtain ⟨-, -, hlocal⟩ := hlockstep.ok_of_agrees (fun _ => rfl) hok
      obtain ⟨s, hs, -⟩ := hlocal 0 _ hagrees
      exact hrefused s hs
    obtain ⟨n, hn, hne⟩ := hdiffer
    obtain ⟨x, y, hx, hy, htag, hconcrete⟩ := exists_other htags hne
    exact ⟨after, n, x, y, haccepted, hn, hx, hy, htag, hconcrete⟩

end Site

namespace Body

variable {b : Body} {max : Nat} {p : List Nat} {i : Nat} {site : Site}

theorem replay_cons_ok (hsite : b.code[i]? = some site) {entries : List Entry} :
    b.replay max (i :: p) = .ok entries ↔ ∃ before after, b.replay max p = .ok before ∧
      site.run max before = .ok after ∧ after.entries = entries := by
  rw [replay, hsite]
  cases b.replay max p with
  | error e => simp
  | ok before => cases hrun : site.run max before <;> simp [hrun, Except.map]

theorem replay_cons_error (hsite : b.code[i]? = some site) {e : Rejection} :
    b.replay max (i :: p) = .error e ↔ b.replay max p = .error e ∨
      ∃ before, b.replay max p = .ok before ∧ site.run max before = .error e := by
  rw [replay, hsite]
  cases b.replay max p with
  | error e' => simp
  | ok before => cases hrun : site.run max before <;> simp [hrun, Except.map]

/-- Where the checker went on with the stack it was left, a replay that had the checker's stack still
has it. -/
theorem Carries.replay_cons {seen : List Checker} {j : Nat} {k k' : Checker}
    (h : b.Carries max seen i j) (hk : seen[i]? = some k) (hk' : seen[j]? = some k')
    (hreplay : b.replay max p = .ok k.stack.entries) :
    b.replay max (i :: p) = .ok k'.stack.entries := by
  obtain ⟨site, k₁, k₂, after, hsite, hk₁, hk₂, hrun, hentries⟩ := h
  rw [hk, Option.some.injEq] at hk₁
  rw [hk', Option.some.injEq] at hk₂
  subst hk₁ hk₂
  exact (replay_cons_ok hsite).mpr ⟨_, after, hreplay, hrun, hentries.symm⟩

/-- A replay is one way for the machine on tags to go along the path. -/
theorem arrives_of_replay (hpath : b.Path p i) {entries : List Entry}
    (h : b.replay max p = .ok entries) : b.Arrives max p i (entries.map Entry.tag) := by
  induction hpath generalizing entries with
  | start =>
    simp only [replay, Except.ok.injEq] at h
    subst h
    exact .start
  | @step p i j _ hedge ih =>
    obtain ⟨site, hsite, -⟩ := id hedge
    obtain ⟨before, after, hbefore, hrun, rfl⟩ := (replay_cons_ok hsite).mp h
    exact .step (ih hbefore) hedge hsite (Site.effect_of_run hrun)

end Body

/-! ### What the checker ran -/

namespace Checker

variable {s : Subject} {b b' : Body} {seen : List Checker} {k k' : Checker}

/-- Every instruction that control comes to was run on the stack that the checker had before it, and
where control falls through, the checker went on with the stack that was left. -/
def Ran (max : Nat) (b : Body) (seen : List Checker) (k : Checker) : Prop :=
  ∀ (i : Nat) (site : Site) (k₁ : Checker), b.code[i]? = some site → seen[i]? = some k₁ →
    k₁.reachable = true → ∃ after, site.run max k₁.stack.entries = .ok after ∧
      (site.call.endsFlow = false → ∃ k₂, (seen ++ [k])[i + 1]? = some k₂ ∧
        k₂.reachable = true ∧ k₂.stack.entries = after.entries)

/-- A call that emits nothing leaves the code and, where control comes to it, the stack. -/
theorem Ran.keep {max : Nat} (h : Ran max b seen k) (hcode : b'.code = b.code)
    (hkeep : k.reachable = true →
      k'.reachable = true ∧ k'.stack.entries = k.stack.entries) : Ran max b' seen k' := by
  intro i site k₁ hsite hk₁ hreach
  rw [hcode] at hsite
  obtain ⟨after, hrun, hnext⟩ := h i site k₁ hsite hk₁ hreach
  refine ⟨after, hrun, fun hflow => ?_⟩
  obtain ⟨k₂, hk₂, hreach₂, hentries⟩ := hnext hflow
  rcases getElem?_concat.mp hk₂ with hk₂ | ⟨hi, rfl⟩
  · exact ⟨k₂, getElem?_concat.mpr (Or.inl hk₂), hreach₂, hentries⟩
  · obtain ⟨hreach', hentries'⟩ := hkeep hreach₂
    exact ⟨k', getElem?_concat.mpr (Or.inr ⟨hi, rfl⟩), hreach', hentries'.trans hentries⟩

/-- An instruction that control comes to is taken up with the stack as it is. -/
theorem Tracked.entryStack_eq (h : Tracked s b seen k) (hreach : k.reachable = true) :
    k.entryStack = (Stack.empty s.maxStack).restore k.stack.entries := by
  unfold entryStack
  rw [enter_keeps _ hreach]
  simp [Stack.resetCounts, Stack.restore, Stack.empty, h.within.maxDepth_eq]

theorem Ran.instruction (h : Ran s.maxStack b seen k) (htracked : Tracked s b seen k) {c : Call}
    {op : Opcode} (hop : c.opcode? = some op)
    (hok : Checker.instruction op c.rule? c.targets k = .ok () k') :
    Ran s.maxStack (b.add c) (seen ++ [k]) k' := by
  obtain ⟨-, transition, st, t, hrule, htransition, -, rfl⟩ := instruction_ok.mp hok
  intro i site k₁ hsite hk₁ hreach
  rw [Body.add_of_opcode hop] at hsite
  dsimp only at hsite
  rcases getElem?_concat.mp hk₁ with hk₁ | ⟨rfl, rfl⟩
  · have hi : i < b.code.length := htracked.length ▸ (List.getElem?_eq_some_iff.mp hk₁).1
    rw [List.getElem?_append_left hi] at hsite
    obtain ⟨after, hrun, hnext⟩ := h i site k₁ hsite hk₁ hreach
    refine ⟨after, hrun, fun hflow => ?_⟩
    obtain ⟨k₂, hk₂, hkept⟩ := hnext hflow
    exact ⟨k₂, getElem?_concat.mpr (Or.inl hk₂), hkept⟩
  · rw [htracked.length, List.getElem?_concat_length, Option.some.injEq] at hsite
    subst hsite
    rw [htracked.entryStack_eq hreach] at htransition
    refine ⟨st, Site.run_of_rule ((htracked.rule?_eq hop).trans hrule) htransition, ?_⟩
    intro hflow
    refine ⟨_, getElem?_concat.mpr (Or.inr ⟨by simp, rfl⟩), ?_, rfl⟩
    rw [Call.endsFlow_eq hop] at hflow
    simp [hflow]

end Checker

namespace Verifier

variable {δ : Type} [Sink δ] {s : Subject} {b : Body} {seen : List Checker} {v v' : Verifier δ}

/-- A call that emits nothing leaves the stack that control brings. -/
theorem kept_of_step {c : Call} {reply : Option Nat} (hop : c.opcode? = none)
    (hok : Sink.step c v = .ok reply v') (hreach : v.checker.reachable = true) :
    v'.checker.reachable = true ∧ v'.checker.stack.entries = v.checker.stack.entries := by
  obtain ⟨c', k, r, haccept, -, hsettle⟩ := step_ok.mp hok
  cases c with
  | declareLocal t name =>
    obtain ⟨-, -, rfl⟩ := Checker.accept_declareLocal.mp haccept
    rw [← (Prod.mk.inj hsettle).2]
    exact ⟨hreach, rfl⟩
  | createLabel name =>
    obtain ⟨-, rfl⟩ := Checker.accept_createLabel.mp haccept
    rw [← (Prod.mk.inj hsettle).2]
    exact ⟨hreach, rfl⟩
  | markLabel label =>
    obtain ⟨l, t, -, -, -, -, rfl⟩ := Checker.accept_markLabel.mp haccept
    rw [← (Prod.mk.inj hsettle).2, Checker.enter_keeps _ hreach]
    exact ⟨hreach, rfl⟩
  | finish =>
    obtain ⟨-, -, -, -, -, rfl⟩ := Checker.accept_finish.mp haccept
    rw [← (Prod.mk.inj hsettle).2]
    exact ⟨hreach, rfl⟩
  | _ => exact nomatch hop

/-- One accepted call. -/
theorem ran_step {c : Call} {reply : Option Nat} (htracked : Checker.Tracked s b seen v.checker)
    (h : Checker.Ran s.maxStack b seen v.checker) (hok : Sink.step c v = .ok reply v') :
    Checker.Ran s.maxStack (b.add c) (seen ++ if c.opcode?.isSome then [v.checker] else [])
      v'.checker := by
  cases hop : c.opcode? with
  | some op => exact h.instruction htracked hop (instruction_of_step hop hok)
  | none =>
    rw [if_neg (by simp), List.append_nil]
    exact h.keep (Body.code_add_of_none hop) (kept_of_step hop hok)

theorem ran_run {calls : List Call} (htracked : Checker.Tracked s b seen v.checker)
    (h : Checker.Ran s.maxStack b seen v.checker) (hrun : Sink.run calls v = some v') :
    Checker.Ran s.maxStack (calls.foldl Body.add b) (seen ++ statesBefore calls v) v'.checker := by
  -- A step is as the rules replay it only where the snapshots are tracked too.
  have hboth := kept_along_run
    (P := fun b seen k => Checker.Tracked s b seen k ∧ Checker.Ran s.maxStack b seen k)
    (fun ⟨htracked, h⟩ hok => ⟨tracked_step htracked hok, ran_step htracked h hok⟩)
    ⟨htracked, h⟩ hrun
  exact hboth.2

end Verifier

/-! ### Along a path -/

namespace Checker

variable {s : Subject} {b : Body} {seen : List Checker} {k : Checker} {p : List Nat} {i : Nat}

/-- A replay arrives with the tags that the checker had. -/
theorem Tracked.tags_replay (h : Tracked s b seen k) (hend : k.reachable = false)
    (hpath : b.Path p i) : ∃ k₁, seen[i]? = some k₁ ∧ k₁.reachable = true ∧
      ∀ entries, b.replay s.maxStack p = .ok entries →
        entries.map Entry.tag = k₁.stack.tags := by
  obtain ⟨k₁, hk₁, hreach, harrives⟩ := h.path hend hpath
  refine ⟨k₁, hk₁, hreach, fun entries hreplay => ?_⟩
  exact (Body.arrives_of_replay hpath hreplay).unique harrives

/-- **A replay fails only by a mismatch**, at some instruction on the way. -/
theorem Ran.exists_mismatch (hran : Ran s.maxStack b seen k) (h : Tracked s b seen k)
    (hend : k.reachable = false) {e : Rejection} (hpath : b.Path p i)
    (herror : b.replay s.maxStack (i :: p) = .error e) :
    ∃ q j, j :: q <:+ i :: p ∧ b.Mismatch s.maxStack seen q j e := by
  -- Either the path fails before its last instruction, or that one is to blame.
  have hlast : ∀ {p i}, b.Path p i → b.replay s.maxStack (i :: p) = .error e →
      b.replay s.maxStack p = .error e ∨ b.Mismatch s.maxStack seen p i e := by
    intro p i hpath herror
    obtain ⟨k₁, hk₁, hreach, htags⟩ := h.tags_replay hend hpath
    have hi : i < b.code.length := h.length ▸ (List.getElem?_eq_some_iff.mp hk₁).1
    have hsite := List.getElem?_eq_getElem hi
    obtain ⟨after, haccepted, -⟩ := hran i _ k₁ hsite hk₁ hreach
    rcases (Body.replay_cons_error hsite).mp herror with hbefore | ⟨entries, hentries, hrun⟩
    · exact Or.inl hbefore
    · obtain ⟨he, hother⟩ :=
        Site.mismatch_of_run_error (htags entries hentries).symm haccepted hrun
      exact Or.inr (.intro hsite hk₁ hentries hrun he hother)
  induction hpath with
  | start =>
    rcases hlast .start herror with hnil | hmismatch
    · simp [Body.replay] at hnil
    · exact ⟨[], 0, List.suffix_rfl, hmismatch⟩
  | @step p i j hpath hedge ih =>
    rcases hlast (hpath.step hedge) herror with hbefore | hmismatch
    · obtain ⟨q, m, hsuffix, hmismatch⟩ := ih hbefore
      exact ⟨q, m, hsuffix.trans (List.suffix_cons j (i :: p)), hmismatch⟩
    · exact ⟨i :: p, j, List.suffix_rfl, hmismatch⟩

/-- Falling through, the checker goes on with the stack it is left. -/
theorem Ran.carries_of_fallsTo {max i j : Nat} {k₁ : Checker} (h : Ran max b seen k)
    (hend : k.reachable = false) (hfalls : b.FallsTo i j) (hk₁ : seen[i]? = some k₁)
    (hreach : k₁.reachable = true) : b.Carries max seen i j := by
  obtain ⟨site, hsite, hflow, rfl⟩ := hfalls
  obtain ⟨after, hrun, hnext⟩ := h i site k₁ hsite hk₁ hreach
  obtain ⟨k₂, hk₂, hreach₂, hentries⟩ := hnext hflow
  rcases getElem?_concat.mp hk₂ with hk₂ | ⟨-, rfl⟩
  · exact ⟨site, k₁, k₂, after, hsite, hk₁, hk₂, hrun, hentries⟩
  · exact nomatch hend.symm.trans hreach₂

/-- As long as the checker went on with the stack it was left, a replay has the same stack. -/
theorem Ran.replay_eq (hran : Ran s.maxStack b seen k) (h : Tracked s b seen k)
    (hend : k.reachable = false) (hpath : b.Path p i)
    (hchain : (i :: p).IsChain fun later earlier =>
      b.FallsTo earlier later ∨ b.Carries s.maxStack seen earlier later) :
    ∃ k₁, seen[i]? = some k₁ ∧ k₁.reachable = true ∧
      b.replay s.maxStack p = .ok k₁.stack.entries := by
  induction hpath with
  | start =>
    obtain ⟨k₁, hk₁, hreach, htags⟩ := h.first.inside hend
    have hempty : k₁.stack.entries = [] := List.map_eq_nil_iff.mp htags
    exact ⟨k₁, hk₁, hreach, by rw [hempty, Body.replay]⟩
  | @step p i j hpath hedge ih =>
    rw [List.isChain_cons_cons] at hchain
    obtain ⟨k₁, hk₁, hreach₁, hreplay⟩ := ih hchain.2
    obtain ⟨k₂, hk₂, hreach₂, -⟩ := h.path hend (hpath.step hedge)
    have hcarries : b.Carries s.maxStack seen i j := by
      rcases hchain.1 with hfalls | hcarries
      · exact hran.carries_of_fallsTo hend hfalls hk₁ hreach₁
      · exact hcarries
    exact ⟨k₂, hk₂, hreach₂, hcarries.replay_cons hk₁ hk₂ hreplay⟩

end Checker

/-- **In an accepted body every path can be replayed, up to the types that joins forget.**  Along a
path the replay arrives with the tags that the verifier's stack had.  It fails with nothing but a type
mismatch, and only at an instruction that pops a value of another type than the verifier had there.  If
the verifier went on with the very stack that each instruction left, wherever the path does not fall
through, then the replay does not fail. -/
theorem Verifier.replay_ok_or_mismatch {δ : Type} [Sink δ] (s : Subject) (d : δ) (calls : List Call)
    (final : Verifier δ)
    (haccepted : Sink.run (calls ++ [.finish]) (Verifier.start s d) = some final)
    (p : List Nat) (i : Nat) (hpath : (Body.ofCalls s.method calls).Path p i) :
    ∃ site k, (Body.ofCalls s.method calls).code[i]? = some site ∧
      (statesBefore calls (Verifier.start s d))[i]? = some k ∧
      (∀ entries, (Body.ofCalls s.method calls).replay s.maxStack p = .ok entries →
        entries.map Entry.tag = k.stack.tags) ∧
      (∀ e, (Body.ofCalls s.method calls).replay s.maxStack (i :: p) = .error e →
        ∃ q j, j :: q <:+ i :: p ∧ (Body.ofCalls s.method calls).Mismatch s.maxStack
          (statesBefore calls (Verifier.start s d)) q j e) ∧
      ((i :: p).IsChain (fun later earlier =>
          (Body.ofCalls s.method calls).FallsTo earlier later ∨
          (Body.ofCalls s.method calls).Carries s.maxStack
            (statesBefore calls (Verifier.start s d)) earlier later) →
        ∃ entries, (Body.ofCalls s.method calls).replay s.maxStack (i :: p) = .ok entries) := by
  obtain ⟨v, hrun, hfinish⟩ := Sink.run_append.mp haccepted
  obtain ⟨reply, v', hstep, -⟩ := Sink.run_cons.mp hfinish
  obtain ⟨c', k', r, haccept, -, -⟩ := step_ok.mp hstep
  obtain ⟨-, -, hend, -, -, -⟩ := Checker.accept_finish.mp haccept
  have htracked := tracked_run (Checker.tracked_start s) hrun
  have hran := ran_run (Checker.tracked_start s) (fun i site k₁ hsite => by simp at hsite) hrun
  rw [List.nil_append] at htracked hran
  obtain ⟨k, hk, hreach, htags⟩ := htracked.tags_replay hend hpath
  have hi : i < (Body.ofCalls s.method calls).code.length :=
    htracked.length ▸ (List.getElem?_eq_some_iff.mp hk).1
  have hsite := List.getElem?_eq_getElem hi
  refine ⟨_, k, hsite, hk, htags, ?mismatch, ?carried⟩
  case mismatch =>
    intro e herror
    exact hran.exists_mismatch htracked hend hpath herror
  case carried =>
    intro hchain
    obtain ⟨k₁, hk₁, hreach₁, hreplay⟩ := hran.replay_eq htracked hend hpath hchain
    obtain ⟨after, hrun, -⟩ := hran i _ k₁ hsite hk₁ hreach₁
    exact ⟨after.entries, (Body.replay_cons_ok hsite).mpr ⟨_, after, hreplay, hrun, rfl⟩⟩

/-- Reads an integer through the first argument or the second, whichever the third one selects.  One
path comes to the join with the address of a narrow integer, the other with that of a wide one. -/
def addressJoin : List Call :=
  [.createLabel "same", .createLabel "join", .emit .ldarg2 .none, .branch .brtrueS 0,
    .emit .ldarg1 .none, .branch .brS 1, .markLabel 0, .emit .ldarg0 .none, .markLabel 1,
    .emit .ldindI4 .none, .emit .pop .none, .emit .ret .none]

def addressJoinSubject : Subject where
  method := { name := "Select", declaringType := .object, returnType := none, isStatic := true,
              parameters := [.pointer .int32 true, .pointer .int64 true, .int32] }

theorem Verifier.isSome_run_addressJoin :
    (Sink.run (addressJoin ++ [.finish]) (start addressJoinSubject ({} : Discard))).isSome = true := by
  decide +kernel

/-- The way through the second argument, to the instruction after the join. -/
theorem Body.path_addressJoin_wide :
    (ofCalls addressJoinSubject.method addressJoin).Path [3, 2, 1, 0] 5 := by
  refine .step (.step (.step (.step .start ?_) ?_) ?_) ⟨_, rfl, Or.inr ⟨1, ?_, ?_⟩⟩
  all_goals first | exact ⟨_, rfl, Or.inl ⟨rfl, rfl⟩⟩ | decide

/-- The way through the first argument, to the instruction after the join. -/
theorem Body.path_addressJoin_narrow :
    (ofCalls addressJoinSubject.method addressJoin).Path [4, 1, 0] 5 := by
  refine .step (.step (.step .start ?_) ⟨_, rfl, Or.inr ⟨0, ?_, ?_⟩⟩) ?_
  all_goals first | exact ⟨_, rfl, Or.inl ⟨rfl, rfl⟩⟩ | decide

theorem Body.replay_addressJoin_wide :
    (ofCalls addressJoinSubject.method addressJoin).replay 8 [5, 3, 2, 1, 0]
      = .error (.violation (.typeMismatch .ldindI4 "int32&" "int64&")) := by
  rfl

/-- The branch that selects the first argument takes the stack to where the checker went on with it. -/
theorem Body.carries_addressJoin :
    (ofCalls addressJoinSubject.method addressJoin).Carries 8
      (Verifier.statesBefore addressJoin (Verifier.start addressJoinSubject ({} : Discard))) 1 4 := by
  have hbefore : (Verifier.statesBefore addressJoin
      (Verifier.start addressJoinSubject ({} : Discard)))[1]?.map (fun k => k.stack.entries)
        = some [.of .int32] := by
    rfl
  have hafter : (Verifier.statesBefore addressJoin
      (Verifier.start addressJoinSubject ({} : Discard)))[4]?.map (fun k => k.stack.tags)
        = some [] := by
    decide +kernel
  obtain ⟨k, hk, hentries⟩ := Option.map_eq_some_iff.mp hbefore
  obtain ⟨k', hk', htags⟩ := Option.map_eq_some_iff.mp hafter
  refine ⟨⟨.branch .brtrueS 0, ⟨addressJoinSubject.method, #[], []⟩⟩, k, k', ⟨[], 8, 0, 1⟩, rfl, hk, hk',
    ?_, List.map_eq_nil_iff.mp htags⟩
  rw [hentries]
  rfl

/-- **A join can let through a value of a type that the instruction behind it refuses.** -/
theorem Verifier.exists_path_refused_after_join :
    (Sink.run (addressJoin ++ [.finish]) (start addressJoinSubject ({} : Discard))).isSome = true ∧
      (Body.ofCalls addressJoinSubject.method addressJoin).Path [3, 2, 1, 0] 5 ∧
      (Body.ofCalls addressJoinSubject.method addressJoin).replay addressJoinSubject.maxStack
          [5, 3, 2, 1, 0]
        = .error (.violation (.typeMismatch .ldindI4 "int32&" "int64&")) :=
  ⟨isSome_run_addressJoin, Body.path_addressJoin_wide, Body.replay_addressJoin_wide⟩

/-- One way to the join ends in a mismatch.  The other one branches to a label that was not reached
before and falls through from there, so that it can be replayed. -/
theorem Verifier.replay_addressJoin :
    (Sink.run (addressJoin ++ [.finish]) (start addressJoinSubject ({} : Discard))).isSome = true ∧
      (∃ q j, j :: q <:+ [5, 3, 2, 1, 0] ∧
        (Body.ofCalls addressJoinSubject.method addressJoin).Mismatch 8
          (statesBefore addressJoin (start addressJoinSubject ({} : Discard))) q j
          (.violation (.typeMismatch .ldindI4 "int32&" "int64&"))) ∧
      ∃ entries, (Body.ofCalls addressJoinSubject.method addressJoin).replay 8 [5, 4, 1, 0]
        = .ok entries := by
  obtain ⟨final, hfinal⟩ := Option.isSome_iff_exists.mp isSome_run_addressJoin
  obtain ⟨-, -, -, -, -, hmismatch, -⟩ := replay_ok_or_mismatch addressJoinSubject ({} : Discard)
    addressJoin final hfinal [3, 2, 1, 0] 5 Body.path_addressJoin_wide
  obtain ⟨-, -, -, -, -, -, hcarried⟩ := replay_ok_or_mismatch addressJoinSubject ({} : Discard)
    addressJoin final hfinal [4, 1, 0] 5 Body.path_addressJoin_narrow
  refine ⟨isSome_run_addressJoin, hmismatch _ Body.replay_addressJoin_wide, hcarried ?_⟩
  exact .cons_cons (Or.inl ⟨_, rfl, rfl, rfl⟩) (.cons_cons (Or.inr Body.carries_addressJoin)
    (.cons_cons (Or.inl ⟨_, rfl, rfl, rfl⟩) (.singleton 0)))

end Cil
