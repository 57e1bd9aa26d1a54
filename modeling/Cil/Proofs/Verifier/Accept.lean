/-
What an accepted call does to the checker.

The checker has one way of taking an instruction and a few small ones of taking anything else.  The
lemmas here say once what each of them does, so that what follows never opens the checker's steps
again.  `accept_instruction` is the main one: the rule of the instruction ran on the stack that
control brings, the stack it left went to every target, and control goes on unless the opcode ends
it.
-/
import Cil.Proofs.Verifier.Labels
import Cil.Verifier

namespace Cil

/-! ### Parts of an instruction -/

/-- The rule for the instruction a call emits. -/
def Call.rule? (c : Call) (f : Frame) : Option Transition :=
  match c with
  | .emit op x => Transition.ofNumber op x f
  | .branch op _ => Transition.ofTarget op f
  | .switch _ => Transition.ofTarget .switch f
  | .invoke op m => Transition.ofMethod op m f
  | .field op member => Transition.ofField op member f
  | .type op t => Transition.ofType op t f
  | .token op m => Transition.ofMember op m f
  | .string op _ => Transition.ofString op f
  | .declareLocal .. | .createLabel _ | .markLabel _ | .finish => none

/-- The labels that the instruction may branch to. -/
def Call.targets : Call → List Nat
  | .branch _ target => [target]
  | .switch targets => targets
  | _ => []

/-- The call with other label indices. -/
def Call.mapLabels (f : Nat → Nat) : Call → Call
  | .markLabel label => .markLabel (f label)
  | .branch op target => .branch op (f target)
  | .switch targets => .switch (targets.map f)
  | c => c

namespace Opcode

/-- The prefixes that take effect on an instruction, given those that stand before it. -/
def activePrefixes (op : Opcode) (pending : List Prefix) : List Prefix :=
  match op.category with
  | .prefixOp _ => []
  | _ => pending

/-- The prefixes that wait after an instruction, given those that stand before it. -/
def pendingPrefixes (op : Opcode) (pending : List Prefix) : List Prefix :=
  match op.category with
  | .prefixOp p => p :: pending
  | _ => []

/-- May the instruction follow the prefixes?  No prefix stands twice, and any other instruction has
to allow all of them. -/
def AdmitsPrefixes (op : Opcode) (pending : List Prefix) : Prop :=
  match op.category with
  | .prefixOp p => p ∉ pending
  | _ => ∀ p ∈ pending, p ∈ op.prefixes

end Opcode

namespace Checker

variable {k k' : Checker}

theorem onStack_ok {α : Type} {m : Step Stack α} {a : α} :
    onStack m k = .ok a k' ↔ ∃ s, m k.stack = .ok a s ∧ { k with stack := s } = k' := by
  unfold onStack
  cases m k.stack with
  | ok b s =>
    constructor
    · intro h
      cases h
      exact ⟨s, rfl, rfl⟩
    · rintro ⟨s', h, rfl⟩
      cases h
      rfl
  | error e s => simp

theorem onLabels_ok {α : Type} {m : Step LabelTable α} {a : α} :
    onLabels m k = .ok a k' ↔ ∃ t, m k.labels = .ok a t ∧ { k with labels := t } = k' := by
  unfold onLabels
  cases m k.labels with
  | ok b t =>
    constructor
    · intro h
      cases h
      exact ⟨t, rfl, rfl⟩
    · rintro ⟨t', h, rfl⟩
      cases h
      rfl
  | error e t => simp

theorem label_ok {index : Nat} {l : Label} :
    label index k = .ok l k' ↔ k.labels.labels[index]? = some l ∧ k = k' := by
  unfold label LabelTable.find
  cases k.labels.labels[index]? with
  | none => simp
  | some l' => simp

theorem refuse_ok {α : Type} {v : Violation} {a : α} : refuse v k = .ok a k' ↔ False :=
  Step.throw_ok

theorem requireForm_ok {op : Opcode} {takes : Bool} {form : String} {u : Unit} :
    requireForm op takes form k = .ok u k' ↔ takes = true ∧ k = k' := by
  unfold requireForm
  cases takes with
  | true => simp [Step.pure_ok]
  | false => simp [refuse_ok]

/-- Taking up the prefixes of an instruction. -/
theorem takePrefixes_ok {op : Opcode} {active : List Prefix} :
    takePrefixes op k = .ok active k' ↔ op.AdmitsPrefixes k.pending ∧
      op.activePrefixes k.pending = active ∧
      { k with pending := op.pendingPrefixes k.pending } = k' := by
  unfold takePrefixes Opcode.AdmitsPrefixes Opcode.activePrefixes Opcode.pendingPrefixes
  cases op.category with
  | prefixOp p => by_cases hp : p ∈ k.pending <;> simp [hp]
  | _ =>
    simp only
    split
    · next hnil =>
      have hk : { k with pending := [] } = k := by rw [← hnil]
      simp [hnil, hk]
    · next last rest hcons =>
      rw [hcons]
      by_cases hall : ∀ p ∈ last :: rest, p ∈ op.prefixes
      · rw [if_pos (by simpa using hall), and_iff_right hall, EStateM.Result.ok.injEq]
      · rw [if_neg (by simpa using hall)]
        exact ⟨nofun, fun h => absurd h.1 hall⟩

/-! ### Instructions -/

/-- The state of the stack in which an instruction is taken up. -/
def entryStack (k : Checker) : Stack := (k.enter []).stack.resetCounts

theorem begin_ok {op : Opcode} {active : List Prefix} :
    begin op k = .ok active k' ↔ op.AdmitsPrefixes k.pending ∧
      op.activePrefixes k.pending = active ∧
      { k with stack := k.entryStack, reachable := true,
               pending := op.pendingPrefixes k.pending } = k' := by
  have henter : { k.enter [] with stack := (k.enter []).stack.resetCounts }
      = { k with stack := k.entryStack, reachable := true } := by
    unfold entryStack enter
    split
    · next h => rw [← h]
    · rfl
  unfold begin
  rw [Step.bind_ok]
  constructor
  · rintro ⟨⟨⟩, k₁, henter₁, h⟩
    obtain ⟨⟨⟩, k₂, hreset, htake⟩ := Step.bind_ok.mp h
    rw [Step.modify_ok] at henter₁ hreset
    subst henter₁
    rw [henter] at hreset
    subst hreset
    exact takePrefixes_ok.mp htake
  · intro h
    refine ⟨(), _, Step.modify_ok.mpr rfl, Step.bind_ok.mpr ⟨(), _, Step.modify_ok.mpr henter, ?_⟩⟩
    exact takePrefixes_ok.mpr h

theorem reachAll_ok {targets : List Nat} :
    reachAll targets k = .ok () k' ↔
      ∃ t, LabelTable.reachEach targets k.stack.entries k.labels = .ok () t ∧
        { k with labels := t } = k' := by
  have hforM : ∀ (entries : List Entry) (k : Checker),
      (targets.forM fun target => onLabels (LabelTable.reach target entries true) :
        Step Checker Unit) k = .ok () k' ↔
      ∃ t, LabelTable.reachEach targets entries k.labels = .ok () t ∧
        { k with labels := t } = k' := by
    intro entries
    induction targets with
    | nil =>
      intro k
      simp only [Step.forM_nil_ok]
      constructor
      · rintro rfl
        exact ⟨k.labels, rfl, rfl⟩
      · rintro ⟨t, rfl, rfl⟩
        rfl
    | cons target rest ih =>
      intro k
      simp only [Step.forM_cons_ok, onLabels_ok, ih]
      constructor
      · rintro ⟨k₁, ⟨t₁, hreach, rfl⟩, t, hrest, rfl⟩
        exact ⟨t, ⟨t₁, hreach, hrest⟩, rfl⟩
      · rintro ⟨t, ⟨t₁, hreach, hrest⟩, rfl⟩
        exact ⟨_, ⟨t₁, hreach, rfl⟩, t, hrest, rfl⟩
  unfold reachAll
  rw [Step.bind_ok]
  constructor
  · rintro ⟨k₁, k₂, hget, h⟩
    obtain ⟨rfl, rfl⟩ := Step.get_ok.mp hget
    exact (hforM _ _).mp h
  · intro h
    exact ⟨k, k, Step.get_ok.mpr ⟨rfl, rfl⟩, (hforM _ _).mpr h⟩

/-- An instruction is accepted if its rule runs on the stack that control brings and the targets
take the stack that the rule leaves. -/
theorem instruction_ok {op : Opcode} {rule : Frame → Option Transition} {targets : List Nat} :
    instruction op rule targets k = .ok () k' ↔ op.AdmitsPrefixes k.pending ∧
      ∃ transition s t, rule (k.frame (op.activePrefixes k.pending)) = some transition ∧
        transition k.entryStack = .ok () s ∧
        LabelTable.reachEach targets s.entries k.labels = .ok () t ∧
        { k with stack := s, labels := t, reachable := !op.endsFlow,
                 pending := op.pendingPrefixes k.pending } = k' := by
  have hend : ∀ {k₁ : Checker}, k₁.reachable = true →
      ((if op.endsFlow then modify fun k => { k with reachable := false } else pure () :
        Step Checker Unit) k₁ = .ok () k' ↔ { k₁ with reachable := !op.endsFlow } = k') := by
    intro k₁ hreach
    cases op.endsFlow with
    | true =>
      rw [if_pos rfl, Step.modify_ok]
      rfl
    | false =>
      have hsame : { k₁ with reachable := !false } = k₁ := by rw [Bool.not_false, ← hreach]
      rw [if_neg Bool.false_ne_true, Step.pure_ok, hsame]
      simp
  -- A rule sees nothing of what beginning the instruction changes.
  have hframe : ({ k with stack := k.entryStack, reachable := true,
                          pending := op.pendingPrefixes k.pending } : Checker).frame
      (op.activePrefixes k.pending) = k.frame (op.activePrefixes k.pending) := rfl
  unfold instruction
  rw [Step.bind_ok]
  constructor
  · rintro ⟨active, k₁, hbegin, h⟩
    obtain ⟨hadmits, rfl, rfl⟩ := begin_ok.mp hbegin
    obtain ⟨k₂, k₃, hget, h⟩ := Step.bind_ok.mp h
    obtain ⟨rfl, rfl⟩ := Step.get_ok.mp hget
    refine ⟨hadmits, ?_⟩
    dsimp only at h
    rw [hframe] at h
    cases hrule : rule (k.frame (op.activePrefixes k.pending)) with
    | none =>
      rw [hrule] at h
      obtain ⟨a, k₃, hthrow, -⟩ := Step.bind_ok.mp h
      exact (Step.throw_ok.mp hthrow).elim
    | some transition =>
      rw [hrule] at h
      obtain ⟨⟨⟩, k₄, hstack, h⟩ := Step.bind_ok.mp h
      obtain ⟨s, hs, rfl⟩ := onStack_ok.mp hstack
      obtain ⟨⟨⟩, k₅, hreach, h⟩ := Step.bind_ok.mp h
      obtain ⟨t, ht, rfl⟩ := reachAll_ok.mp hreach
      exact ⟨transition, s, t, rfl, hs, ht, (hend rfl).mp h⟩
  · rintro ⟨hadmits, transition, s, t, hrule, hs, ht, rfl⟩
    refine ⟨_, _, begin_ok.mpr ⟨hadmits, rfl, rfl⟩, ?_⟩
    refine Step.bind_ok.mpr ⟨_, _, Step.get_ok.mpr ⟨rfl, rfl⟩, ?_⟩
    dsimp only
    rw [hframe, hrule]
    refine Step.bind_ok.mpr ⟨(), _, onStack_ok.mpr ⟨s, hs, rfl⟩, ?_⟩
    refine Step.bind_ok.mpr ⟨(), _, reachAll_ok.mpr ⟨t, ht, rfl⟩, ?_⟩
    exact (hend rfl).mpr rfl

/-- An instruction is refused if its rule refuses the stack that control brings. -/
theorem instruction_error {op : Opcode} {rule : Frame → Option Transition} {targets : List Nat}
    {transition : Transition} {e : Rejection} {s : Stack} (hadmits : op.AdmitsPrefixes k.pending)
    (hrule : rule (k.frame (op.activePrefixes k.pending)) = some transition)
    (hs : transition k.entryStack = .error e s) :
    instruction op rule targets k = .error e
      { k with stack := s, reachable := true, pending := op.pendingPrefixes k.pending } := by
  unfold instruction
  rw [Step.bind_of_ok (begin_ok.mpr ⟨hadmits, rfl, rfl⟩), Step.get_bind]
  have hframe : ({ k with stack := k.entryStack, reachable := true,
                          pending := op.pendingPrefixes k.pending } : Checker).frame
      (op.activePrefixes k.pending) = k.frame (op.activePrefixes k.pending) := rfl
  rw [hframe, hrule]
  refine Step.bind_of_error ?_
  unfold onStack
  dsimp only
  rw [hs]

end Checker

/-! ### Calls -/

/-- The receiver's index of a label. -/
def LabelTable.downstream (t : LabelTable) (index : Nat) : Nat :=
  (t.labels[index]?.map Label.downstream).getD index

theorem LabelTable.downstream_eq {t : LabelTable} {index : Nat} {l : Label}
    (hl : t.labels[index]? = some l) : t.downstream index = l.downstream := by
  simp [downstream, hl]

/-- Labels that are looked up one by one are known, and their indices at the receiver are those of
the table. -/
theorem LabelTable.known_of_map {t : LabelTable} {targets : List Nat} {ls : List Label}
    (h : targets.map (t.labels[·]?) = ls.map some) :
    (∀ target ∈ targets, target < t.labels.size) ∧
      targets.map t.downstream = ls.map Label.downstream := by
  induction targets generalizing ls with
  | nil =>
    cases ls with
    | nil => simp
    | cons l ls => simp at h
  | cons target rest ih =>
    cases ls with
    | nil => simp at h
    | cons l ls =>
      rw [List.map_cons, List.map_cons, List.cons.injEq] at h
      obtain ⟨hl, hrest⟩ := h
      obtain ⟨hknown, hmap⟩ := ih hrest
      constructor
      · intro i hi
        rcases List.mem_cons.mp hi with rfl | hi
        · exact (Array.getElem?_eq_some_iff.mp hl).1
        · exact hknown i hi
      · rw [List.map_cons, List.map_cons, downstream_eq hl, hmap]

theorem LabelTable.exists_of_known {t : LabelTable} {targets : List Nat}
    (h : ∀ target ∈ targets, target < t.labels.size) :
    ∃ ls : List Label, targets.map (t.labels[·]?) = ls.map some := by
  induction targets with
  | nil => exact ⟨[], rfl⟩
  | cons target rest ih =>
    obtain ⟨ls, hls⟩ := ih fun i hi => h i (List.mem_cons_of_mem target hi)
    have htarget : target < t.labels.size := h target List.mem_cons_self
    exact ⟨t.labels[target] :: ls, by rw [List.map_cons, List.map_cons, hls]; simp [htarget]⟩

/-- Does the operand of an instruction have the form that its opcode takes?  Labels have to be
known. -/
def Call.Formed (t : LabelTable) : Call → Prop
  | .emit op x => op.operandKind.isSymbolic = false ∧ x.fits op.operandKind = true
  | .branch op target => Checker.branchesToOne op = true ∧ target < t.labels.size
  | .switch targets => ∀ target ∈ targets, target < t.labels.size
  | .invoke op _ => op.category.call?.isSome = true
  | .field op _ => op.category.isField = true
  | .type op _ => op.operandKind = .type
  | .token op _ => op.operandKind = .member
  | .string op _ => op.operandKind = .string
  | _ => True

namespace Checker

variable {k k' : Checker} {c c' : Call}

theorem mapM_label_ok {targets : List Nat} {ls : List Label} :
    (targets.mapM label : Step Checker (List Label)) k = .ok ls k' ↔
      targets.map (k.labels.labels[·]?) = ls.map some ∧ k = k' := by
  induction targets generalizing ls with
  | nil =>
    rw [List.mapM_nil, Step.pure_ok]
    cases ls <;> simp
  | cons target rest ih =>
    rw [List.mapM_cons]
    simp only [Step.bind_ok, Step.pure_ok, label_ok]
    constructor
    · rintro ⟨l, k₁, ⟨hl, rfl⟩, ls', k₂, hrest, rfl, rfl⟩
      obtain ⟨hmap, rfl⟩ := ih.mp hrest
      exact ⟨by rw [List.map_cons, List.map_cons, hl, hmap], rfl⟩
    · rintro ⟨hmap, rfl⟩
      cases ls with
      | nil => simp at hmap
      | cons l ls' =>
        rw [List.map_cons, List.map_cons, List.cons.injEq] at hmap
        exact ⟨l, k, ⟨hmap.1, rfl⟩, ls', k, ih.mpr ⟨hmap.2, rfl⟩, rfl, rfl⟩

/-- A check of the operand's form, the instruction, the call to pass on. -/
theorem formed_instruction_ok {op : Opcode} {rule : Frame → Option Transition} {takes : Bool}
    {form : String} {passed : Call} :
    (do requireForm op takes form; instruction op rule []; return passed : Step Checker Call) k
      = .ok c' k' ↔ takes = true ∧ instruction op rule [] k = .ok () k' ∧ passed = c' := by
  simp only [Step.bind_ok, Step.pure_ok, requireForm_ok]
  constructor
  · rintro ⟨⟨⟩, k₁, ⟨htakes, rfl⟩, ⟨⟩, k₂, hinstr, rfl, rfl⟩
    exact ⟨htakes, hinstr, rfl⟩
  · rintro ⟨htakes, hinstr, rfl⟩
    exact ⟨(), k, ⟨htakes, rfl⟩, (), k', hinstr, rfl, rfl⟩

theorem number_ok {op : Opcode} {x : Operand} {u : Unit} :
    number op x k = .ok u k' ↔ op.operandKind.isSymbolic = false ∧
      x.fits op.operandKind = true ∧ instruction op (Transition.ofNumber op x) [] k = .ok () k' := by
  unfold number
  cases hsymbolic : op.operandKind.isSymbolic with
  | true => simp [Step.bind_ok, Step.throw_ok]
  | false =>
    cases hfits : x.fits op.operandKind with
    | true => simp
    | false => simp [Step.bind_ok, refuse_ok]

/-- Every instruction is checked in the same way, whatever the form of its operand. -/
theorem accept_instruction {op : Opcode} (hop : c.opcode? = some op) :
    accept c k = .ok c' k' ↔ c.Formed k.labels ∧
      instruction op c.rule? c.targets k = .ok () k' ∧ c.mapLabels k.labels.downstream = c' := by
  cases c with
  | declareLocal t name => exact nomatch hop
  | createLabel name => exact nomatch hop
  | markLabel index => exact nomatch hop
  | finish => exact nomatch hop
  | emit op' x =>
    cases hop
    simp only [accept, Step.bind_ok, Step.pure_ok, number_ok, Call.Formed]
    constructor
    · rintro ⟨⟨⟩, k₁, ⟨hsymbolic, hfits, hinstr⟩, rfl, rfl⟩
      exact ⟨⟨hsymbolic, hfits⟩, hinstr, rfl⟩
    · rintro ⟨⟨hsymbolic, hfits⟩, hinstr, rfl⟩
      exact ⟨(), k', ⟨hsymbolic, hfits, hinstr⟩, rfl, rfl⟩
  | branch op' target =>
    cases hop
    simp only [accept, Step.bind_ok, Step.pure_ok, requireForm_ok, label_ok, Call.Formed]
    constructor
    · rintro ⟨⟨⟩, k₁, ⟨htakes, rfl⟩, l, k₂, ⟨hl, rfl⟩, ⟨⟩, k₃, hinstr, rfl, rfl⟩
      exact ⟨⟨htakes, (Array.getElem?_eq_some_iff.mp hl).1⟩, hinstr,
        by rw [Call.mapLabels, LabelTable.downstream_eq hl]⟩
    · rintro ⟨⟨htakes, hknown⟩, hinstr, rfl⟩
      have hl : k.labels.labels[target]? = some k.labels.labels[target] := by simp [hknown]
      exact ⟨(), k, ⟨htakes, rfl⟩, _, k, ⟨hl, rfl⟩, (), k', hinstr,
        by rw [Call.mapLabels, LabelTable.downstream_eq hl], rfl⟩
  | switch targets =>
    cases hop
    simp only [accept, Step.bind_ok, Step.pure_ok, mapM_label_ok, Call.Formed]
    constructor
    · rintro ⟨ls, k₁, ⟨hls, rfl⟩, ⟨⟩, k₂, hinstr, rfl, rfl⟩
      obtain ⟨hknown, hmap⟩ := LabelTable.known_of_map hls
      exact ⟨hknown, hinstr, by rw [Call.mapLabels, hmap]⟩
    · rintro ⟨hknown, hinstr, rfl⟩
      obtain ⟨ls, hls⟩ := LabelTable.exists_of_known hknown
      obtain ⟨-, hmap⟩ := LabelTable.known_of_map hls
      exact ⟨ls, k, ⟨hls, rfl⟩, (), k', hinstr, by rw [Call.mapLabels, hmap], rfl⟩
  | invoke op' m =>
    cases hop
    exact formed_instruction_ok
  | field op' f =>
    cases hop
    exact formed_instruction_ok
  | type op' t =>
    cases hop
    exact formed_instruction_ok.trans (and_congr_left' decide_eq_true_iff)
  | token op' m =>
    cases hop
    exact formed_instruction_ok.trans (and_congr_left' decide_eq_true_iff)
  | string op' value =>
    cases hop
    exact formed_instruction_ok.trans (and_congr_left' decide_eq_true_iff)

/-- A call whose operand has the right form is refused if its instruction is. -/
theorem accept_error {op : Opcode} {e : Rejection} (hop : c.opcode? = some op)
    (hformed : c.Formed k.labels) (h : instruction op c.rule? c.targets k = .error e k') :
    accept c k = .error e k' := by
  have hform : ∀ {takes : Bool} {form : String} {rule : Frame → Option Transition} {passed : Call},
      takes = true → instruction op rule [] k = .error e k' →
      (do requireForm op takes form; instruction op rule []; return passed : Step Checker Call) k
        = .error e k' := by
    intro takes form rule passed htakes herror
    rw [Step.bind_of_ok (requireForm_ok (u := ()) |>.mpr ⟨htakes, rfl⟩)]
    exact Step.bind_of_error herror
  cases c with
  | emit op' x =>
    cases hop
    obtain ⟨hsymbolic, hfits⟩ := hformed
    have hnumber : number op x k = .error e k' := by
      unfold number
      simp only [hsymbolic, hfits]
      exact h
    exact Step.bind_of_error hnumber
  | branch op' target =>
    cases hop
    obtain ⟨htakes, hknown⟩ := hformed
    have hl : k.labels.labels[target]? = some k.labels.labels[target] := by simp [hknown]
    show (do requireForm op (branchesToOne op) "a label"; _ : Step Checker Call) k = _
    rw [Step.bind_of_ok (requireForm_ok (u := ()) |>.mpr ⟨htakes, rfl⟩),
      Step.bind_of_ok (label_ok.mpr ⟨hl, rfl⟩)]
    exact Step.bind_of_error h
  | switch targets =>
    cases hop
    obtain ⟨ls, hls⟩ := LabelTable.exists_of_known hformed
    show (do let ls ← targets.mapM label; _ : Step Checker Call) k = _
    rw [Step.bind_of_ok (mapM_label_ok.mpr ⟨hls, rfl⟩)]
    exact Step.bind_of_error h
  | invoke op' m =>
    cases hop
    exact hform hformed h
  | field op' f =>
    cases hop
    exact hform hformed h
  | type op' t =>
    cases hop
    exact hform (decide_eq_true hformed) h
  | token op' m =>
    cases hop
    exact hform (decide_eq_true hformed) h
  | string op' value =>
    cases hop
    exact hform (decide_eq_true hformed) h
  | _ => cases hop

theorem accept_declareLocal {t : Ty} {name : String} :
    accept (.declareLocal t name) k = .ok c' k' ↔
      k.locals.size ≤ maxLocal ∧ .declareLocal t name = c' ∧ k = k' := by
  unfold accept
  simp only [Step.bind_ok, Step.get_ok]
  constructor
  · rintro ⟨k₁, k₂, ⟨rfl, rfl⟩, h⟩
    by_cases hfull : maxLocal < k.locals.size
    · simp only [if_pos hfull, Step.bind_ok, refuse_ok] at h
      obtain ⟨-, -, hrefused, -⟩ := h
      exact hrefused.elim
    · simp only [if_neg hfull, Step.pure_ok] at h
      exact ⟨Nat.le_of_not_lt hfull, h⟩
  · rintro ⟨hroom, rfl, rfl⟩
    refine ⟨k, k, ⟨rfl, rfl⟩, ?_⟩
    simp only [if_neg (Nat.not_lt.mpr hroom), Step.pure_ok, and_self]

theorem accept_createLabel {name : String} :
    accept (.createLabel name) k = .ok c' k' ↔ .createLabel name = c' ∧ k = k' := by
  unfold accept
  exact Step.pure_ok

/-- Marking a label: control comes from the instruction before, or else with the stack that the
label holds, and in either case the label holds the stack from here on. -/
theorem accept_markLabel {index : Nat} :
    accept (.markLabel index) k = .ok c' k' ↔
      ∃ l t, k.labels.labels[index]? = some l ∧ l.marked = false ∧
        LabelTable.reach index (k.enter (l.snapshot.getD [])).stack.entries false
          (k.labels.put index { l with marked := true }) = .ok () t ∧
        .markLabel l.downstream = c' ∧
        { k.enter (l.snapshot.getD []) with labels := t } = k' := by
  have hput : ∀ {l : Label}, k.labels.labels[index]? = some l →
      (k.labels.put index { l with marked := true }).labels[index]?
        = some { l with marked := true } := by
    intro l hl
    rw [LabelTable.getElem?_put (Array.getElem?_eq_some_iff.mp hl).1, if_pos rfl]
  have henter : ∀ (t : LabelTable) (es : List Entry),
      ({ k with labels := t } : Checker).enter es = { k.enter es with labels := t } := by
    intro t es
    unfold enter
    split <;> rfl
  unfold accept mark
  simp only [Step.bind_ok, Step.pure_ok, Step.get_ok, Step.modify_ok, onLabels_ok, label_ok,
    LabelTable.mark_ok]
  constructor
  · rintro ⟨m, k₁, ⟨⟨⟩, k₂, ⟨t₁, ⟨l, hl, hmarked, rfl⟩, rfl⟩, m₁, k₃, ⟨hm, rfl⟩, ⟨⟩, k₄, rfl,
      k₅, k₆, ⟨rfl, rfl⟩, ⟨⟩, k₇, ⟨t, hreach, rfl⟩, rfl, rfl⟩, rfl, rfl⟩
    rw [hput hl, Option.some.injEq] at hm
    subst hm
    rw [henter] at hreach
    exact ⟨l, t, hl, hmarked, hreach, rfl,
      by cases hreachable : k.reachable <;> simp [enter, hreachable]⟩
  · rintro ⟨l, t, hl, hmarked, hreach, rfl, rfl⟩
    refine ⟨{ l with marked := true }, _, ⟨(), _, ⟨_, ⟨l, hl, hmarked, rfl⟩, rfl⟩,
      { l with marked := true }, _, ⟨hput hl, rfl⟩, (), _, rfl, _, _, ⟨rfl, rfl⟩, (), _,
      ⟨t, ?_, rfl⟩, rfl, rfl⟩, rfl, ?_⟩
    · rw [henter]
      exact hreach
    · cases hreachable : k.reachable <;> simp [enter, hreachable]

theorem finish_ok {u : Unit} :
    finish k = .ok u k' ↔ k.pending = [] ∧ k.labels.firstUnmarkedTarget? = none ∧
      k.reachable = false ∧ (k.locals.size = 0 ∨ k.subject.localsZeroed = true) ∧ k = k' := by
  unfold finish
  rw [Step.get_bind]
  cases hpending : k.pending with
  | cons last rest => simp [Step.bind_ok, refuse_ok]
  | nil =>
    cases hunmarked : k.labels.firstUnmarkedTarget? with
    | some l => simp [Step.bind_ok, refuse_ok]
    | none =>
      cases hreach : k.reachable with
      | true => simp [Step.bind_ok, refuse_ok]
      | false =>
        cases hzeroed : k.subject.localsZeroed with
        | true => simp [Step.pure_ok]
        | false => by_cases hnone : k.locals.size = 0 <;> simp_all [Step.pure_ok, refuse_ok]

theorem accept_finish :
    accept .finish k = .ok c' k' ↔ k.pending = [] ∧ k.labels.firstUnmarkedTarget? = none ∧
      k.reachable = false ∧ (k.locals.size = 0 ∨ k.subject.localsZeroed = true) ∧
      .finish = c' ∧ k = k' := by
  unfold accept
  simp only [Step.bind_ok, Step.pure_ok, finish_ok]
  constructor
  · rintro ⟨⟨⟩, k₁, ⟨hpending, hunmarked, hreach, hzeroed, rfl⟩, rfl, rfl⟩
    exact ⟨hpending, hunmarked, hreach, hzeroed, rfl, rfl⟩
  · rintro ⟨hpending, hunmarked, hreach, hzeroed, rfl, rfl⟩
    exact ⟨(), k, ⟨hpending, hunmarked, hreach, hzeroed, rfl⟩, rfl, rfl⟩

end Checker

namespace Verifier

variable {δ : Type} [Sink δ] {v v' : Verifier δ} {c : Call} {reply : Option Nat}

/-- A call is accepted if the checker passes a call on and the receiver accepts that. -/
theorem step_ok : Sink.step c v = .ok reply v' ↔
    ∃ c' k r, Checker.accept c v.checker = .ok c' k ∧
      Sink.step c' v.downstream = .ok r v'.downstream ∧
      Checker.settle c r k = (reply, v'.checker) := by
  obtain ⟨k₀, d₀⟩ := v
  show step c ⟨k₀, d₀⟩ = .ok reply v' ↔ _
  unfold step
  simp only
  cases Checker.accept c k₀ with
  | error e k => simp
  | ok c' k =>
    dsimp only
    cases hstep : Sink.step c' d₀ with
    | error e d =>
      constructor
      · exact nofun
      · rintro ⟨c₁, k₁, r, hok, hr, -⟩
        cases hok
        rw [hstep] at hr
        exact nomatch hr
    | ok r d =>
      obtain ⟨k', d'⟩ := v'
      constructor
      · intro h
        cases h
        exact ⟨c', k, r, rfl, hstep, rfl⟩
      · rintro ⟨c₁, k₁, r₁, hok, hr, hsettle⟩
        cases hok
        rw [hstep] at hr
        cases hr
        dsimp only
        rw [hsettle]

/-- After an accepted instruction the checker is as its check has left it. -/
theorem accept_of_step {op : Opcode} (hop : c.opcode? = some op) (h : Sink.step c v = .ok reply v') :
    ∃ c', Checker.accept c v.checker = .ok c' v'.checker := by
  obtain ⟨c', k, r, haccept, -, hsettle⟩ := step_ok.mp h
  have hk : k = v'.checker := by
    cases c <;> first | exact (Prod.mk.inj hsettle).2 | exact nomatch hop
  exact ⟨c', hk ▸ haccept⟩

/-- What the receiver refuses is refused, and what the check has learned stays. -/
theorem step_of_refused {c' : Call} {k : Checker} {e : Rejection} {d : δ}
    (haccept : Checker.accept c v.checker = .ok c' k)
    (hrefused : Sink.step c' v.downstream = .error e d) : Sink.step c v = .error e ⟨k, d⟩ := by
  obtain ⟨k₀, d₀⟩ := v
  show step c ⟨k₀, d₀⟩ = _
  unfold step
  dsimp only at haccept hrefused ⊢
  rw [haccept]
  dsimp only
  rw [hrefused]

/-- What the checker refuses is refused, and the receiver sees nothing of it. -/
theorem step_of_unchecked {k : Checker} {e : Rejection}
    (h : Checker.accept c v.checker = .error e k) :
    Sink.step c v = .error e ⟨k, v.downstream⟩ := by
  obtain ⟨k₀, d₀⟩ := v
  show step c ⟨k₀, d₀⟩ = _
  unfold step
  dsimp only at h ⊢
  rw [h]

/-- A call is refused by the checker, and then the receiver is as before, or by the receiver. -/
theorem step_error {e : Rejection} (h : Sink.step c v = .error e v') :
    (Checker.accept c v.checker = .error e v'.checker ∧ v'.downstream = v.downstream) ∨
      ∃ c', Checker.accept c v.checker = .ok c' v'.checker ∧
        Sink.step c' v.downstream = .error e v'.downstream := by
  obtain ⟨k₀, d₀⟩ := v
  change step c ⟨k₀, d₀⟩ = .error e v' at h
  unfold step at h
  dsimp only at h
  cases haccept : Checker.accept c k₀ with
  | error e' k =>
    rw [haccept] at h
    cases h
    exact Or.inl ⟨rfl, rfl⟩
  | ok c' k =>
    rw [haccept] at h
    dsimp only at h
    cases hstep : Sink.step c' d₀ with
    | error e' d =>
      rw [hstep] at h
      cases h
      exact Or.inr ⟨c', rfl, hstep⟩
    | ok r d =>
      rw [hstep] at h
      exact nomatch h

end Verifier

end Cil
