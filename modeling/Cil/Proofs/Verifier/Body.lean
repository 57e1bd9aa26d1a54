/-
The body that a list of calls describes, and the machine that runs it on tags.

A body is the list of its instructions, each with what its rule can see, and the positions at which
labels were marked.  Control goes from an instruction to the next one, unless the opcode ends it, and
to every position at which one of its targets was marked.

The machine keeps nothing but the tags of the values on its stack.  An instruction takes it from one
list of tags to another if its rule does so for some stack with these tags; `Effect.unique` says that
the result is the same for every such stack.
-/
import Cil.Proofs.Verifier.Lockstep

namespace Cil

/-- The tags of two entries are the same. -/
def Entry.SameTag (e e' : Entry) : Prop := e.tag = e'.tag

theorem Entry.fair_sameTag : Entry.Fair Entry.SameTag where
  tag := id
  of := id

theorem Stack.forall₂_sameTag_iff {s t : Stack} :
    List.Forall₂ Entry.SameTag s.entries t.entries ↔ s.tags = t.tags := by
  unfold tags Entry.SameTag
  rw [← List.forall₂_eq_eq_eq, List.forall₂_map_left_iff, List.forall₂_map_right_iff]

/-- No rule lets the stack grow past its bound. -/
theorem Transition.keeps_within_rule {c : Call} {f : Frame} {transition : Transition}
    (h : c.rule? f = some transition) {bound : Nat} :
    Step.Keeps (Stack.Within Entry.SameTag bound) (fun _ => True) transition := by
  have hkeeps := (lockstep_rule Entry.fair_sameTag (fun _ _ => rfl) h).keeps_within (fun _ _ _ => rfl) bound
  exact hkeeps.mono fun _ _ => trivial

/-- A rule that accepts two stacks with the same tags leaves them with the same tags. -/
theorem Transition.tags_eq_of_rule {c : Call} {f : Frame} {transition : Transition}
    {s s' t t' : Stack} (hrule : c.rule? f = some transition) (htags : s.tags = t.tags)
    (hs : transition s = .ok () s') (ht : transition t = .ok () t') : s'.tags = t'.tags := by
  have hlockstep := lockstep_rule Entry.fair_sameTag (fun _ _ => rfl) hrule
  have hrelated : List.Forall₂ Entry.SameTag s.entries t.entries :=
    Stack.forall₂_sameTag_iff.mpr htags
  exact Stack.forall₂_sameTag_iff.mp (hlockstep.related_ok hrelated hs ht).1

/-- Does control never go on with the instruction after this one? -/
def Call.endsFlow (c : Call) : Bool := c.opcode?.any Opcode.endsFlow

theorem Call.endsFlow_eq {c : Call} {op : Opcode} (hop : c.opcode? = some op) :
    c.endsFlow = op.endsFlow := by
  simp [endsFlow, hop]

/-! ### Bodies -/

/-- An instruction in its place: the call that emitted it and what its rule can see. -/
structure Site where
  call : Call
  frame : Frame

/-- What the calls so far describe. -/
structure Body where
  method : Method
  locals : Array (Ty × String) := #[]
  /-- The prefixes that stand at the end of the code. -/
  prefixes : List Prefix := []
  /-- The instructions in order. -/
  code : List Site := []
  /-- Labels, each with the number of instructions before the place where it was marked. -/
  marks : List (Nat × Nat) := []

namespace Body

/-- The body with one more call. -/
def add (b : Body) (c : Call) : Body :=
  match c.opcode? with
  | some op =>
    { b with code := b.code ++ [⟨c, ⟨b.method, b.locals, b.prefixes⟩⟩],
             prefixes := op.pendingPrefixes b.prefixes }
  | none =>
    match c with
    | .declareLocal t name => { b with locals := b.locals.push (t, name) }
    | .markLabel label => { b with marks := b.marks ++ [(label, b.code.length)] }
    | _ => b

theorem add_of_opcode {b : Body} {c : Call} {op : Opcode} (hop : c.opcode? = some op) :
    b.add c = { b with code := b.code ++ [⟨c, ⟨b.method, b.locals, b.prefixes⟩⟩],
                       prefixes := op.pendingPrefixes b.prefixes } := by
  simp [add, hop]

/-- Only instructions are code. -/
theorem code_add_of_none {b : Body} {c : Call} (hop : c.opcode? = none) : (b.add c).code = b.code := by
  cases c <;> simp [add, Call.opcode?] at hop ⊢

/-- The body of a method that the calls describe. -/
def ofCalls (m : Method) (calls : List Call) : Body :=
  calls.foldl add { method := m }

/-- Can control go from one position to another in one step? -/
def Edge (b : Body) (i j : Nat) : Prop :=
  ∃ site, b.code[i]? = some site ∧
    (site.call.endsFlow = false ∧ j = i + 1 ∨ ∃ label ∈ site.call.targets, (label, j) ∈ b.marks)

/-- A path from the first instruction to a position, given by the instructions on the way, the
latest first. -/
inductive Path (b : Body) : List Nat → Nat → Prop where
  | start : Path b [] 0
  | step {p : List Nat} {i j : Nat} (h : Path b p i) (hedge : b.Edge i j) : Path b (i :: p) j

end Body

/-! ### The machine on tags -/

/-- With at most `max` values on the stack, the instruction leads from one list of tags to
another. -/
def Site.Effect (site : Site) (max : Nat) (before after : List DataType) : Prop :=
  ∃ (transition : Transition) (s s' : Stack), site.call.rule? site.frame = some transition ∧
    s.maxDepth = max ∧ s.tags = before ∧ transition s = .ok () s' ∧ s'.tags = after

/-- The instruction has the same effect on all stacks with the same tags. -/
theorem Site.Effect.unique {site : Site} {max : Nat} {before after after' : List DataType}
    (h : site.Effect max before after) (h' : site.Effect max before after') : after = after' := by
  obtain ⟨transition, s, s', hrule, -, hs, hok, rfl⟩ := h
  obtain ⟨transition', t, t', hrule', -, ht, hok', rfl⟩ := h'
  rw [hrule, Option.some.injEq] at hrule'
  subst hrule'
  exact Transition.tags_eq_of_rule hrule (hs.trans ht.symm) hok hok'

/-- The machine goes along a path, from the empty stack, and arrives with the given tags. -/
inductive Body.Arrives (b : Body) (max : Nat) : List Nat → Nat → List DataType → Prop where
  | start : Arrives b max [] 0 []
  | step {p : List Nat} {i j : Nat} {site : Site} {before after : List DataType}
    (h : Arrives b max p i before) (hedge : b.Edge i j) (hsite : b.code[i]? = some site)
    (heffect : site.Effect max before after) : Arrives b max (i :: p) j after

/-- Along one path the machine arrives with one list of tags at most. -/
theorem Body.Arrives.unique {b : Body} {max : Nat} {p : List Nat} {i : Nat}
    {tags tags' : List DataType} (h : b.Arrives max p i tags) (h' : b.Arrives max p i tags') :
    tags = tags' := by
  induction h generalizing tags' with
  | start =>
    cases h'
    rfl
  | step _ _ hsite heffect ih =>
    cases h' with
    | step h' _ hsite' heffect' =>
      rw [hsite, Option.some.injEq] at hsite'
      subst hsite'
      have hbefore := ih h'
      subst hbefore
      exact heffect.unique heffect'

/-! ### Prefixes -/

/-- Prefixes that stand before a prefix change nothing for it. -/
theorem Call.rule?_activePrefixes {c : Call} {op : Opcode} (hop : c.opcode? = some op) (m : Method)
    (locals : Array (Ty × String)) (prefixes : List Prefix) :
    c.rule? ⟨m, locals, op.activePrefixes prefixes⟩ = c.rule? ⟨m, locals, prefixes⟩ := by
  unfold Opcode.activePrefixes
  cases hcategory : op.category with
  | prefixOp p =>
    cases c <;> cases hop <;>
      simp [rule?, Transition.ofNumber, Transition.ofTarget, Transition.ofMethod, Transition.ofField,
        Transition.ofType, Transition.ofMember, Transition.ofString, hcategory]
  | _ => rfl

end Cil
