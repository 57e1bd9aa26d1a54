/-
Short, long and compact forms of an instruction are checked alike.

Many instructions can be written in more than one way: a branch with a near or a far target, a
variable by a one-byte or a two-byte index, and some variables and constants by an opcode of their
own.  `Call.Alike` says which calls are forms of one instruction.  Each form has a row of its own in
the table of opcodes, and what is shown of the rows is that they agree in all a check looks at
(`Opcode.Kin`, `longBranch_cases`, `longVariable_cases`, `expansion?_cases`).

The reason for which a call is refused names its opcode, so the answers to two forms differ there.
`Step.Mirrors` compares steps up to that: they are accepted in the same states, and they leave the
same state behind even where they refuse.
-/
import Cil.Proofs.Opcode
import Cil.Proofs.Verifier.Forwarding
import Cil.Proofs.Verifier.PrefixRuns

namespace Cil

open List (Forall₂)

/-! ### Steps that differ only in why they refuse -/

namespace Step

variable {σ α β γ : Type} {R : α → β → Prop}

/-- Two steps that are accepted in the same states and leave the same state behind, be they accepted
or refused.  Their answers are related by `R`. -/
def Mirrors (R : α → β → Prop) (m : Step σ α) (n : Step σ β) : Prop :=
  ∀ s, (∃ a b t, m s = .ok a t ∧ n s = .ok b t ∧ R a b) ∨
    ∃ e e' t, m s = .error e t ∧ n s = .error e' t

theorem mirrors_self {R : α → α → Prop} (h : ∀ a, R a a) (m : Step σ α) : Mirrors R m m := by
  intro s
  cases hm : m s with
  | ok a t => exact Or.inl ⟨a, a, t, rfl, rfl, h a⟩
  | error e t => exact Or.inr ⟨e, e, t, rfl, rfl⟩

theorem mirrors_pure {a : α} {b : β} (h : R a b) : Mirrors R (pure a : Step σ α) (pure b) :=
  fun s => Or.inl ⟨a, b, s, rfl, rfl, h⟩

theorem mirrors_throw (e e' : Rejection) :
    Mirrors R (throw e : Step σ α) (throw e' : Step σ β) :=
  fun s => Or.inr ⟨e, e', s, rfl, rfl⟩

theorem Mirrors.symm {m : Step σ α} {n : Step σ β} (h : Mirrors R m n) :
    Mirrors (fun b a => R a b) n m := by
  intro s
  rcases h s with ⟨a, b, t, hm, hn, hab⟩ | ⟨e, e', t, hm, hn⟩
  · exact Or.inl ⟨b, a, t, hn, hm, hab⟩
  · exact Or.inr ⟨e', e, t, hn, hm⟩

theorem Mirrors.trans {R : α → α → Prop} {m n p : Step σ α}
    (htrans : ∀ a b c, R a b → R b c → R a c) (hmn : Mirrors R m n) (hnp : Mirrors R n p) :
    Mirrors R m p := by
  intro s
  rcases hmn s with ⟨a, b, t, hm, hn, hab⟩ | ⟨e, e', t, hm, hn⟩
  · rcases hnp s with ⟨b', c, t', hn', hp, hbc⟩ | ⟨e, e', t', hn', -⟩
    · rw [hn] at hn'
      cases hn'
      exact Or.inl ⟨a, c, t, hm, hp, htrans a b c hab hbc⟩
    · rw [hn] at hn'
      cases hn'
  · rcases hnp s with ⟨b', c, t', hn', -⟩ | ⟨e₁, e₂, t', hn', hp⟩
    · rw [hn] at hn'
      cases hn'
    · rw [hn] at hn'
      cases hn'
      exact Or.inr ⟨e, e₂, t, hm, hp⟩

theorem Mirrors.bind {Q : β → γ → Prop} {m n : Step σ α} {f : α → Step σ β} {g : α → Step σ γ}
    (h : Mirrors Eq m n) (hfg : ∀ a, Mirrors Q (f a) (g a)) : Mirrors Q (m >>= f) (n >>= g) := by
  intro s
  rcases h s with ⟨a, b, t, hm, hn, rfl⟩ | ⟨e, e', t, hm, hn⟩
  · rw [bind_of_ok hm, bind_of_ok hn]
    exact hfg a t
  · exact Or.inr ⟨e, e', t, bind_of_error hm, bind_of_error hn⟩

theorem Mirrors.discard {m n : Step σ α} (h : Mirrors Eq m n) :
    Mirrors Eq (discard m : Step σ Unit) (discard n : Step σ Unit) := by
  rw [discard_eq, discard_eq]
  exact h.bind fun _ => mirrors_pure rfl

end Step

/-! ### Rules under two opcodes -/

namespace Transition

open Step

variable (op op' : Opcode)

theorem mirrors_push (e : Entry) : Mirrors Eq (push op e) (push op' e) := by
  intro s
  unfold push
  cases s.push? e with
  | some t => exact Or.inl ⟨(), (), t, rfl, rfl, rfl⟩
  | none => exact Or.inr ⟨_, _, s, rfl, rfl⟩

theorem mirrors_pop : Mirrors Eq (pop op) (pop op') := by
  intro s
  unfold pop
  cases s.pop? with
  | some top => exact Or.inl ⟨top.1, top.1, top.2, rfl, rfl, rfl⟩
  | none => exact Or.inr ⟨_, _, s, rfl, rfl⟩

theorem mirrors_popOf (expected : DataTypeSet) :
    Mirrors Eq (popOf op expected) (popOf op' expected) := by
  refine (mirrors_pop op op').bind fun e => ?_
  by_cases hmem : expected.contains e.tag = true
  · rw [if_pos hmem, if_pos hmem]
    exact mirrors_pure rfl
  · rw [if_neg hmem, if_neg hmem]
    exact mirrors_throw _ _

theorem mirrors_popAssignable (t : Ty) :
    Mirrors Eq (popAssignable op t) (popAssignable op' t) := by
  refine (mirrors_pop op op').bind fun e => ?_
  unfold requireAssignable
  by_cases hassignable : e.isAssignable t = true
  · rw [if_pos hassignable, if_pos hassignable]
    exact mirrors_pure rfl
  · rw [if_neg hassignable, if_neg hassignable]
    exact mirrors_throw _ _

theorem mirrors_branch (kind : BranchKind) : Mirrors Eq (branch op kind) (branch op' kind) := by
  cases kind with
  | always => exact mirrors_pure rfl
  | leave => exact mirrors_self (fun _ => rfl) _
  | boolean branchIf => exact (mirrors_popOf op op' _).discard
  | comparison c =>
    exact (mirrors_pop op op').discard.bind fun _ => (mirrors_pop op op').discard
  | table => exact (mirrors_popOf op op' _).discard

theorem mirrors_slot (f : Frame) (access : Access) (kind : VariableKind) (index : Int) :
    Mirrors Eq (slot f op access kind index) (slot f op' access kind index) := by
  unfold slot
  cases variableType? f kind index with
  | none => exact mirrors_throw _ _
  | some t =>
    cases access with
    | load => exact mirrors_push op op' _
    | address => exact mirrors_push op op' _
    | store => exact mirrors_popAssignable op op' t

end Transition

/-! ### The forms of an instruction -/

namespace Opcode

/-- The form of a branch that reaches any target. -/
def longBranch : Opcode → Opcode
  | .brS => .br
  | .brfalseS => .brfalse
  | .brtrueS => .brtrue
  | .beqS => .beq
  | .bgeS => .bge
  | .bgtS => .bgt
  | .bleS => .ble
  | .bltS => .blt
  | .bneUnS => .bneUn
  | .bgeUnS => .bgeUn
  | .bgtUnS => .bgtUn
  | .bleUnS => .bleUn
  | .bltUnS => .bltUn
  | .leaveS => .leave
  | op => op

/-- The form of an instruction on a variable that reaches any index. -/
def longVariable : Opcode → Opcode
  | .ldargS => .ldarg
  | .ldargaS => .ldarga
  | .stargS => .starg
  | .ldlocS => .ldloc
  | .ldlocaS => .ldloca
  | .stlocS => .stloc
  | op => op

/-- What an opcode that needs no operand is short for. -/
def expansion? : Opcode → Option (Opcode × Int32)
  | .ldarg0 => some (.ldarg, 0)
  | .ldarg1 => some (.ldarg, 1)
  | .ldarg2 => some (.ldarg, 2)
  | .ldarg3 => some (.ldarg, 3)
  | .ldloc0 => some (.ldloc, 0)
  | .ldloc1 => some (.ldloc, 1)
  | .ldloc2 => some (.ldloc, 2)
  | .ldloc3 => some (.ldloc, 3)
  | .stloc0 => some (.stloc, 0)
  | .stloc1 => some (.stloc, 1)
  | .stloc2 => some (.stloc, 2)
  | .stloc3 => some (.stloc, 3)
  | .ldcI4M1 => some (.ldcI4, -1)
  | .ldcI40 => some (.ldcI4, 0)
  | .ldcI41 => some (.ldcI4, 1)
  | .ldcI42 => some (.ldcI4, 2)
  | .ldcI43 => some (.ldcI4, 3)
  | .ldcI44 => some (.ldcI4, 4)
  | .ldcI45 => some (.ldcI4, 5)
  | .ldcI46 => some (.ldcI4, 6)
  | .ldcI47 => some (.ldcI4, 7)
  | .ldcI48 => some (.ldcI4, 8)
  | _ => none

end Opcode

namespace Call

/-- The call with another opcode for its instruction. -/
def mapOpcode (f : Opcode → Opcode) : Call → Call
  | emit op x => emit (f op) x
  | branch op target => branch (f op) target
  | invoke op m => invoke (f op) m
  | field op member => field (f op) member
  | type op t => type (f op) t
  | token op m => token (f op) m
  | string op value => string (f op) value
  | c => c

/-- The two calls are the same up to the form in which the instruction is written. -/
inductive Alike : Call → Call → Prop where
  | refl (c : Call) : Alike c c
  | symm {c d : Call} (h : Alike c d) : Alike d c
  | trans {c d e : Call} (h : Alike c d) (h' : Alike d e) : Alike c e
  /-- A branch has a short form and a long one. -/
  | branch (c : Call) : Alike c (c.mapOpcode Opcode.longBranch)
  /-- So has an instruction on a variable, unless its index is too high. -/
  | slot {c : Call} (h : ∀ op v, c = emit op (.int32 v) → v.toInt ≤ 255) :
    Alike c (c.mapOpcode Opcode.longVariable)
  /-- Some variables and constants have an opcode of their own. -/
  | compact {op op' : Opcode} {v : Int32} (h : op.expansion? = some (op', v)) :
    Alike (emit op .none) (emit op' (.int32 v))
  /-- A small constant has a short form. -/
  | constant {v : Int32} (hlow : -128 ≤ v.toInt) (hhigh : v.toInt ≤ 127) :
    Alike (emit .ldcI4S (.int32 v)) (emit .ldcI4 (.int32 v))

end Call

theorem Call.mapOpcode_of_none {c : Call} {f : Opcode → Opcode} (h : c.opcode? = none) :
    c.mapOpcode f = c := by
  cases c <;> first | rfl | cases h

theorem Call.mapOpcode_of_eq {c : Call} {f : Opcode → Opcode} {op : Opcode}
    (hop : c.opcode? = some op) (h : f op = op) : c.mapOpcode f = c := by
  cases c <;> cases hop <;> simp [mapOpcode, h]

/-! ### What the rows of the table have in common -/

/-- An index fits one byte as well as two unless it is too high. -/
theorem Operand.fits_shortVar {x : Operand} (h : ∀ v, x = .int32 v → v.toInt ≤ 255) :
    x.fits .shortVar = x.fits .var := by
  cases x with
  | int32 v =>
    have hv := h v rfl
    show within 0 255 v = within 0 65535 v
    rw [Bool.eq_iff_iff, within_iff, within_iff]
    omega
  | _ => rfl

namespace Opcode

/-- Two opcodes that are checked alike apart from their rules.  Neither is a prefix and neither
names a member. -/
structure Kin (op op' : Opcode) : Prop where
  prefixes : op.prefixes = op'.prefixes
  endsFlow : op.endsFlow = op'.endsFlow
  plain : ∀ p : Prefix, op ≠ p.opcode ∧ op' ≠ p.opcode
  nameless : op.operandKind.isToken = false ∧ op'.operandKind.isToken = false

theorem longBranch_cases (op : Opcode) :
    op.longBranch = op ∨ op.Kin op.longBranch ∧
      ∃ b b', op.category = .branch b ∧ op.longBranch.category = .branch b' ∧ b.kind = b'.kind ∧
        b.kind ≠ .table := by
  cases op <;> first
    | exact Or.inl rfl
    | exact Or.inr ⟨⟨rfl, rfl, fun p => by cases p <;> decide, rfl, rfl⟩,
        _, _, rfl, rfl, rfl, by decide⟩

theorem longVariable_cases (op : Opcode) :
    op.longVariable = op ∨ op.Kin op.longVariable ∧
      op.operandKind = .shortVar ∧ op.longVariable.operandKind = .var ∧
      ∃ access kind, op.category = .slot access kind none ∧
        op.longVariable.category = .slot access kind none := by
  cases op <;> first
    | exact Or.inl rfl
    | exact Or.inr ⟨⟨rfl, rfl, fun p => by cases p <;> decide, rfl, rfl⟩, rfl, rfl, _, _, rfl, rfl⟩

theorem expansion?_cases {op op' : Opcode} {v : Int32} (h : op.expansion? = some (op', v)) :
    op.Kin op' ∧ op.operandKind = .none ∧
      ((∃ access kind index, op.category = .slot access kind (some index) ∧
          op'.category = .slot access kind none ∧ op'.operandKind = .var ∧
          v.toInt = index ∧ index ≤ 65535) ∨
        ∃ value, op.category = .constant (.int32 value) ∧
          op'.category = .constant (.int32 none) ∧ op'.operandKind = .int32) := by
  cases op <;> cases h <;> refine ⟨⟨rfl, rfl, fun p => by cases p <;> decide, rfl, rfl⟩, rfl, ?_⟩ <;>
    first
    | exact Or.inl ⟨_, _, _, rfl, rfl, rfl, rfl, by decide⟩
    | exact Or.inr ⟨_, rfl, rfl, rfl⟩

theorem forms_of_nameless {op : Opcode} (h : op.operandKind.isToken = false) :
    op.category.call?.isSome = false ∧ op.category.isField = false ∧
      ∀ kind : OperandKind, kind.isToken = true → decide (op.operandKind = kind) = false := by
  refine ⟨?_, ?_, ?_⟩
  · by_contra hcall
    rw [isToken_of_member (Or.inl (Bool.not_eq_false _ ▸ hcall))] at h
    cases h
  · by_contra hfield
    rw [isToken_of_member (Or.inr (Bool.not_eq_false _ ▸ hfield))] at h
    cases h
  · intro kind hkind
    refine decide_eq_false ?_
    rintro rfl
    rw [hkind] at h
    cases h

end Opcode

/-! ### Instructions under two opcodes -/

namespace Checker

open Step

variable {op op' : Opcode}

theorem takePrefixes_of_not_admits {k : Checker} (h : ¬ op.AdmitsPrefixes k.pending) :
    ∃ e, takePrefixes op k = .error e k := by
  cases hstep : takePrefixes op k with
  | ok active k' => exact absurd (takePrefixes_ok.mp hstep).1 h
  | error e k' =>
    unfold takePrefixes at hstep
    split at hstep
    · split at hstep
      · cases hstep
        exact ⟨_, rfl⟩
      · cases hstep
    · split at hstep
      · cases hstep
      · split at hstep
        · cases hstep
        · cases hstep
          exact ⟨_, rfl⟩

theorem mirrors_takePrefixes (h : op.Kin op') :
    Mirrors Eq (takePrefixes op) (takePrefixes op') := by
  intro k
  have hplain := fun p => (h.plain p).1
  have hplain' := fun p => (h.plain p).2
  have hadmits : op'.AdmitsPrefixes k.pending ↔ op.AdmitsPrefixes k.pending := by
    rw [Opcode.admitsPrefixes_iff hplain, Opcode.admitsPrefixes_iff hplain', h.prefixes]
  by_cases hall : op.AdmitsPrefixes k.pending
  · refine Or.inl ⟨k.pending, k.pending, { k with pending := [] }, ?_, ?_, rfl⟩
    · exact takePrefixes_ok.mpr ⟨hall, Opcode.activePrefixes_eq hplain _,
        by rw [Opcode.pendingPrefixes_eq_nil hplain]⟩
    · exact takePrefixes_ok.mpr ⟨hadmits.mpr hall, Opcode.activePrefixes_eq hplain' _,
        by rw [Opcode.pendingPrefixes_eq_nil hplain']⟩
  · obtain ⟨e, he⟩ := takePrefixes_of_not_admits hall
    obtain ⟨e', he'⟩ := takePrefixes_of_not_admits (mt hadmits.mp hall)
    exact Or.inr ⟨e, e', k, he, he'⟩

theorem mirrors_onStack {α : Type} {m n : Step Stack α} (h : Mirrors Eq m n) :
    Mirrors Eq (onStack m) (onStack n) := by
  intro k
  unfold onStack
  rcases h k.stack with ⟨a, b, s, hm, hn, rfl⟩ | ⟨e, e', s, hm, hn⟩
  · rw [hm, hn]
    exact Or.inl ⟨a, a, _, rfl, rfl, rfl⟩
  · rw [hm, hn]
    exact Or.inr ⟨e, e', _, rfl, rfl⟩

/-- Instructions are checked alike if their opcodes are kin and their rules are alike. -/
theorem mirrors_instruction {rule rule' : Frame → Option Transition} (h : op.Kin op')
    (hrule : ∀ f, ∃ m n, rule f = some m ∧ rule' f = some n ∧ Mirrors Eq m n)
    (targets : List Nat) :
    Mirrors Eq (instruction op rule targets) (instruction op' rule' targets) := by
  have hbegin : Mirrors Eq (begin op) (begin op') :=
    (mirrors_self (fun _ => rfl) _).bind fun _ =>
      (mirrors_self (fun _ => rfl) _).bind fun _ => mirrors_takePrefixes h
  refine hbegin.bind fun active => (mirrors_self (fun _ => rfl) get).bind fun k => ?_
  obtain ⟨m, n, hm, hn, hmn⟩ := hrule (k.frame active)
  rw [hm, hn, h.endsFlow]
  exact (mirrors_onStack hmn).bind fun _ => mirrors_self (fun _ => rfl) _

section Forms

variable {α β : Type} {R : α → β → Prop} {takes takes' : Bool} {form : String} {m : Step Checker α}
  {n : Step Checker β}

/-- A form of operand that neither opcode takes. -/
theorem mirrors_untaken (h : takes = false) (h' : takes' = false) :
    Mirrors R (requireForm op takes form >>= fun _ => m)
      (requireForm op' takes' form >>= fun _ => n) := by
  rw [h, h']
  exact mirrors_throw _ _

/-- A form of operand that both opcodes take or that neither does. -/
theorem mirrors_requireForm (htakes : takes = takes') (h : takes = true → Mirrors R m n) :
    Mirrors R (requireForm op takes form >>= fun _ => m)
      (requireForm op' takes' form >>= fun _ => n) := by
  cases hcase : takes with
  | true =>
    rw [← htakes, hcase]
    exact (mirrors_self (fun _ => rfl) (pure ())).bind fun _ => h hcase
  | false => exact mirrors_untaken rfl (htakes ▸ hcase)

end Forms

theorem mirrors_number {x x' : Operand} (h : op.Kin op')
    (hnumber : op.operandKind.isBranchTarget = false ∧ op'.operandKind.isBranchTarget = false)
    (hfits : x.fits op.operandKind = x'.fits op'.operandKind)
    (hrule : ∀ f, ∃ m n, Transition.ofNumber op x f = some m ∧
      Transition.ofNumber op' x' f = some n ∧ Mirrors Eq m n) :
    Mirrors Eq (number op x) (number op' x') := by
  have hsymbolic : op.operandKind.isSymbolic = false ∧ op'.operandKind.isSymbolic = false := by
    unfold OperandKind.isSymbolic
    rw [h.nameless.1, h.nameless.2, hnumber.1, hnumber.2]
    exact ⟨rfl, rfl⟩
  unfold number
  rw [hsymbolic.1, hsymbolic.2, hfits]
  cases x'.fits op'.operandKind with
  | true => exact mirrors_instruction h hrule []
  | false => exact mirrors_throw _ _

/-- A call is checked as it is with another opcode if the opcodes are kin and are checked alike with
a number and with a label. -/
theorem mirrors_accept_mapOpcode {c : Call} {f : Opcode → Opcode} {R : Call → Call → Prop}
    (hop : c.opcode? = some op) (hswitch : op ≠ .switch) (h : op.Kin (f op))
    (hR : ∀ g, R (c.mapLabels g) ((c.mapLabels g).mapOpcode f))
    (hnumber : ∀ x, c = .emit op x → Mirrors Eq (number op x) (number (f op) x))
    (hlabel : branchesToOne op = branchesToOne (f op))
    (hrule : branchesToOne op = true → ∀ frame, ∃ m n, Transition.ofTarget op frame = some m ∧
      Transition.ofTarget (f op) frame = some n ∧ Mirrors Eq m n) :
    Mirrors R (accept c) (accept (c.mapOpcode f)) := by
  obtain ⟨hmethod, hfield, hkind⟩ := Opcode.forms_of_nameless h.nameless.1
  obtain ⟨hmethod', hfield', hkind'⟩ := Opcode.forms_of_nameless h.nameless.2
  cases c with
  | emit op₁ x =>
    cases hop
    exact (hnumber x rfl).bind fun _ => mirrors_pure (hR id)
  | branch op₁ target =>
    cases hop
    refine mirrors_requireForm hlabel fun hone => ?_
    refine (mirrors_self (fun _ => rfl) (label target)).bind fun l => ?_
    exact (mirrors_instruction h (hrule hone) [target]).bind fun _ =>
      mirrors_pure (hR fun _ => l.downstream)
  | switch targets =>
    cases hop
    exact absurd rfl hswitch
  | invoke op₁ m =>
    cases hop
    exact mirrors_untaken hmethod hmethod'
  | field op₁ m =>
    cases hop
    exact mirrors_untaken hfield hfield'
  | type op₁ t =>
    cases hop
    exact mirrors_untaken (hkind .type rfl) (hkind' .type rfl)
  | token op₁ m =>
    cases hop
    exact mirrors_untaken (hkind .member rfl) (hkind' .member rfl)
  | string op₁ value =>
    cases hop
    exact mirrors_untaken (hkind .string rfl) (hkind' .string rfl)
  | _ => cases hop

/-! ### One lemma for each family of forms -/

theorem mirrors_accept_longBranch (c : Call) :
    Mirrors Call.Alike (accept c) (accept (c.mapOpcode Opcode.longBranch)) := by
  cases hop : c.opcode? with
  | none =>
    rw [Call.mapOpcode_of_none hop]
    exact mirrors_self Call.Alike.refl _
  | some op =>
    rcases op.longBranch_cases with hself | ⟨hkin, b, b', hb, hb', hkind, hone⟩
    · rw [Call.mapOpcode_of_eq hop hself]
      exact mirrors_self Call.Alike.refl _
    · have htarget := Opcode.isBranchTarget_of_branch hb
      have htarget' := Opcode.isBranchTarget_of_branch hb'
      refine mirrors_accept_mapOpcode hop ?_ hkin (fun g => .branch _) (fun x _ => ?_) ?_ ?_
      · rintro rfl
        cases hb
        exact hone rfl
      · unfold number OperandKind.isSymbolic
        rw [htarget, htarget', Bool.or_true, Bool.or_true]
        exact mirrors_throw _ _
      · unfold branchesToOne
        rw [hb, hb']
        simp [Category.branch?, hkind]
      · intro _ frame
        unfold Transition.ofTarget
        rw [hb, hb']
        exact ⟨_, _, rfl, rfl, hkind ▸ Transition.mirrors_branch _ _ b.kind⟩

theorem mirrors_accept_longVariable {c : Call}
    (h : ∀ op v, c = .emit op (.int32 v) → v.toInt ≤ 255) :
    Mirrors Call.Alike (accept c) (accept (c.mapOpcode Opcode.longVariable)) := by
  cases hop : c.opcode? with
  | none =>
    rw [Call.mapOpcode_of_none hop]
    exact mirrors_self Call.Alike.refl _
  | some op =>
    rcases op.longVariable_cases with
      hself | ⟨hkin, hshort, hlong, access, kind, hslot, hslot'⟩
    · rw [Call.mapOpcode_of_eq hop hself]
      exact mirrors_self Call.Alike.refl _
    · have hlabel : branchesToOne op = false ∧ branchesToOne op.longVariable = false := by
        unfold branchesToOne
        rw [hslot, hslot']
        exact ⟨rfl, rfl⟩
      refine mirrors_accept_mapOpcode hop ?_ hkin (fun g => .slot fun op' v hc => ?_) ?_
        (hlabel.1.trans hlabel.2.symm) ?_
      · rintro rfl
        cases hslot
      · exact h op' v (by cases c <;> first | exact hc | cases hc)
      · rintro x rfl
        refine mirrors_number hkin ?_ ?_ fun f => ?_
        · rw [hshort, hlong]
          exact ⟨rfl, rfl⟩
        · rw [hshort, hlong]
          exact Operand.fits_shortVar fun v hx => h op v (by rw [hx])
        · unfold Transition.ofNumber
          rw [hslot, hslot']
          exact ⟨_, _, rfl, rfl, Transition.mirrors_slot _ _ f access kind _⟩
      · intro hone
        rw [hlabel.1] at hone
        cases hone

theorem mirrors_accept_compact {v : Int32} (h : op.expansion? = some (op', v)) :
    Mirrors Call.Alike (accept (.emit op .none)) (accept (.emit op' (.int32 v))) := by
  obtain ⟨hkin, hnone, hrows⟩ := Opcode.expansion?_cases h
  refine Mirrors.bind ?_ fun _ => mirrors_pure (.compact h)
  rcases hrows with ⟨access, kind, index, hslot, hslot', hvar, hv, hindex⟩ |
    ⟨value, hconstant, hconstant', hint⟩
  · refine mirrors_number hkin ?_ ?_ fun f => ?_
    · rw [hnone, hvar]
      exact ⟨rfl, rfl⟩
    · rw [hnone, hvar]
      exact (Operand.within_iff.mpr ⟨by omega, by omega⟩).symm
    · have hsame : Transition.variableIndex none (.int32 v) = index := hv
      unfold Transition.ofNumber
      rw [hslot, hslot']
      exact ⟨_, _, rfl, rfl, hsame ▸ Transition.mirrors_slot _ _ f access kind _⟩
  · refine mirrors_number hkin ?_ ?_ fun f => ?_
    · rw [hnone, hint]
      exact ⟨rfl, rfl⟩
    · rw [hnone, hint]
      rfl
    · unfold Transition.ofNumber
      rw [hconstant, hconstant']
      exact ⟨_, _, rfl, rfl, Transition.mirrors_push _ _ _⟩

theorem mirrors_accept_constant {v : Int32} (hlow : -128 ≤ v.toInt) (hhigh : v.toInt ≤ 127) :
    Mirrors Call.Alike (accept (.emit .ldcI4S (.int32 v))) (accept (.emit .ldcI4 (.int32 v))) := by
  have hkin : Opcode.ldcI4S.Kin .ldcI4 := ⟨rfl, rfl, fun p => by cases p <;> decide, rfl, rfl⟩
  have hfits : (Operand.int32 v).fits .int8 = (Operand.int32 v).fits .int32 :=
    Operand.within_iff.mpr ⟨hlow, hhigh⟩
  refine Mirrors.bind ?_ fun _ => mirrors_pure (.constant hlow hhigh)
  exact mirrors_number hkin ⟨rfl, rfl⟩ hfits fun _ =>
    ⟨_, _, rfl, rfl, Transition.mirrors_push _ _ _⟩

/-- Forms of one instruction are accepted and refused together, and leave the checker in the same
state. -/
theorem mirrors_accept {c d : Call} (h : c.Alike d) : Mirrors Call.Alike (accept c) (accept d) := by
  induction h with
  | refl c => exact mirrors_self Call.Alike.refl _
  | symm _ ih =>
    intro k
    rcases ih.symm k with ⟨c', d', k', hc, hd, halike⟩ | herror
    · exact Or.inl ⟨c', d', k', hc, hd, halike.symm⟩
    · exact Or.inr herror
  | trans _ _ ih ih' => exact ih.trans (fun _ _ _ h h' => h.trans h') ih'
  | branch c => exact mirrors_accept_longBranch c
  | slot h => exact mirrors_accept_longVariable h
  | compact h => exact mirrors_accept_compact h
  | constant hlow hhigh => exact mirrors_accept_constant hlow hhigh

end Checker

/-! ### Sessions -/

/-- Calls that are alike and not the same are instructions. -/
theorem Call.Alike.eq_or_instruction {c d : Call} (h : c.Alike d) :
    c = d ∨ c.opcode?.isSome = true ∧ d.opcode?.isSome = true := by
  have hmap : ∀ (c : Call) (f : Opcode → Opcode),
      c = c.mapOpcode f ∨ c.opcode?.isSome = true ∧ (c.mapOpcode f).opcode?.isSome = true := by
    intro c f
    cases hop : c.opcode? with
    | none => exact Or.inl (mapOpcode_of_none hop).symm
    | some op => exact Or.inr ⟨rfl, by cases c <;> first | rfl | cases hop⟩
  induction h with
  | refl c => exact Or.inl rfl
  | symm _ ih => exact ih.imp Eq.symm And.symm
  | trans _ _ ih ih' =>
    rcases ih with rfl | ⟨hc, hd⟩
    · exact ih'
    · rcases ih' with rfl | ⟨-, he⟩
      · exact Or.inr ⟨hc, hd⟩
      · exact Or.inr ⟨hc, he⟩
  | branch c => exact hmap c _
  | slot _ => exact hmap _ _
  | compact _ => exact Or.inr ⟨rfl, rfl⟩
  | constant _ _ => exact Or.inr ⟨rfl, rfl⟩

theorem Checker.settle_of_alike {c d : Call} (h : c.Alike d) (reply : Option Nat) (k : Checker) :
    settle c reply k = settle d reply k := by
  have hinstruction : ∀ c : Call, c.opcode?.isSome = true → settle c reply k = (none, k) := by
    intro c hop
    cases c <;> first | rfl | cases hop
  rcases h.eq_or_instruction with rfl | ⟨hc, hd⟩
  · rfl
  · rw [hinstruction c hc, hinstruction d hd]

namespace Recorder

/-- The two recorders were given the same calls up to their forms. -/
structure Alike (r r' : Recorder) : Prop where
  calls : Forall₂ Call.Alike r.calls.toList r'.calls.toList
  labels : r.labels = r'.labels
  locals : r.locals = r'.locals

theorem Alike.record {r r' : Recorder} {c d : Call} (h : r.Alike r') (hc : c.Alike d) :
    (record c r).1 = (record d r').1 ∧ (record c r).2.Alike (record d r').2 := by
  have hcalls : Forall₂ Call.Alike (r.calls.push c).toList (r'.calls.push d).toList := by
    rw [Array.toList_push, Array.toList_push]
    exact List.rel_append h.calls (.cons hc .nil)
  have hinstruction : ∀ (c : Call) (r : Recorder), c.opcode?.isSome = true →
      Recorder.record c r = (none, { r with calls := r.calls.push c }) := by
    intro c r hop
    cases c <;> first | rfl | cases hop
  rcases hc.eq_or_instruction with rfl | ⟨hop, hop'⟩
  · cases c with
    | declareLocal t name =>
      exact ⟨congrArg some h.locals, hcalls, h.labels, congrArg (· + 1) h.locals⟩
    | createLabel name =>
      exact ⟨congrArg some h.labels, hcalls, congrArg (· + 1) h.labels, h.locals⟩
    | _ => exact ⟨rfl, hcalls, h.labels, h.locals⟩
  · rw [hinstruction c r hop, hinstruction d r' hop']
    exact ⟨rfl, hcalls, h.labels, h.locals⟩

end Recorder

namespace Verifier

variable {v v' : Verifier Recorder} {c d : Call}

/-- Two calls that came out the same: both were accepted, with the same answer, or both were refused,
and they left the same checker and the same calls to the receiver, up to their forms. -/
structure SameOutcome (a a' : Sink.Attempt (Verifier Recorder)) : Prop where
  answer : a.answer.toOption = a'.answer.toOption
  checker : a.after.checker = a'.after.checker
  recorded : Forall₂ Call.Alike a.after.downstream.calls.toList a'.after.downstream.calls.toList

/-- One call in two forms.  What comes next finds the same state. -/
theorem sameOutcome_attempt (hchecker : v.checker = v'.checker)
    (hrecorder : v.downstream.Alike v'.downstream) (hc : c.Alike d) :
    SameOutcome (Sink.attempt c v) (Sink.attempt d v') ∧
      (Sink.attempt c v).after.downstream.Alike (Sink.attempt d v').after.downstream := by
  rcases Checker.mirrors_accept hc v.checker with
    ⟨c', d', k, hck, hdk, hforwarded⟩ | ⟨e, e', k, hck, hdk⟩
  · obtain ⟨hreply, hrecorder'⟩ := hrecorder.record hforwarded
    have hstep : Sink.step c v = .ok (Checker.settle c (Recorder.record c' v.downstream).1 k).1
        ⟨(Checker.settle c (Recorder.record c' v.downstream).1 k).2,
          (Recorder.record c' v.downstream).2⟩ :=
      step_ok.mpr ⟨c', k, _, hck, Recorder.step_eq c' v.downstream, rfl⟩
    have hstep' : Sink.step d v' = .ok (Checker.settle d (Recorder.record d' v'.downstream).1 k).1
        ⟨(Checker.settle d (Recorder.record d' v'.downstream).1 k).2,
          (Recorder.record d' v'.downstream).2⟩ :=
      step_ok.mpr ⟨d', k, _, hchecker ▸ hdk, Recorder.step_eq d' v'.downstream, rfl⟩
    rw [Sink.attempt_of_ok hstep, Sink.attempt_of_ok hstep', Checker.settle_of_alike hc, hreply]
    exact ⟨⟨rfl, rfl, hrecorder'.calls⟩, hrecorder'⟩
  · rw [Sink.attempt_of_error (step_of_unchecked hck),
      Sink.attempt_of_error (step_of_unchecked (hchecker ▸ hdk))]
    exact ⟨⟨rfl, rfl, hrecorder.calls⟩, hrecorder⟩

theorem sameOutcome_attempts {calls calls' : List Call} (h : Forall₂ Call.Alike calls calls')
    (hchecker : v.checker = v'.checker) (hrecorder : v.downstream.Alike v'.downstream) :
    Forall₂ SameOutcome (Sink.attempts calls v) (Sink.attempts calls' v') := by
  induction h generalizing v v' with
  | nil => exact .nil
  | cons hc _ ih =>
    obtain ⟨houtcome, hrecorder'⟩ := sameOutcome_attempt hchecker hrecorder hc
    exact .cons houtcome (ih houtcome.checker hrecorder')

/-- **Short, long and compact forms verify alike.**  Write the instructions of a session in other
forms, wherever they stand.  Then each call is accepted if the call in its place was, and refused if
that was refused; and after each call, accepted or not, the checker is in the same state: its stack, its
labels with their snapshots and marks, its locals, whether control gets there and the prefixes that
wait. -/
theorem attempts_alike (s : Subject) (calls calls' : List Call)
    (h : Forall₂ Call.Alike calls calls') :
    Forall₂ SameOutcome (Sink.attempts calls (start s {})) (Sink.attempts calls' (start s {})) :=
  sameOutcome_attempts h rfl ⟨.nil, rfl, rfl⟩

end Verifier

/-- A loop on a local.  A prefix that is not allowed there stands before its test. -/
def loopOnLocal : List Call :=
  [.declareLocal .int32 "i", .createLabel "loop", .emit .ldcI48 .none, .emit .stloc0 .none,
    .markLabel 0, .emit .ldloc0 .none, .emit .volatile .none, .branch .brtrueS 0]

/-- The same in longer forms. -/
def loopOnLocalLong : List Call :=
  [.declareLocal .int32 "i", .createLabel "loop", .emit .ldcI4S (.int32 8), .emit .stloc (.int32 0),
    .markLabel 0, .emit .ldlocS (.int32 0), .emit .volatile .none, .branch .brtrue 0]

/-- Both forms of the loop are refused at the branch, and nowhere else. -/
theorem Verifier.attempts_alike_loopOnLocal :
    Forall₂ Call.Alike loopOnLocal loopOnLocalLong ∧
      ((Sink.attempts loopOnLocal (start countdownSubject ({} : Recorder))).map
          fun a => a.answer.toOption.isSome)
        = [true, true, true, true, true, true, true, false] ∧
      ((Sink.attempts loopOnLocalLong (start countdownSubject ({} : Recorder))).map
          fun a => a.answer.toOption.isSome)
        = [true, true, true, true, true, true, true, false] := by
  have hconstant : Call.Alike (.emit .ldcI48 .none) (.emit .ldcI4S (.int32 8)) :=
    .trans (.compact rfl) (.symm (.constant (by decide) (by decide)))
  have hload : Call.Alike (.emit .ldloc0 .none) (.emit .ldlocS (.int32 0)) := by
    refine .trans (.compact rfl) (.symm (.slot ?_))
    intro op v h
    cases h
    decide
  have hforms : Forall₂ Call.Alike loopOnLocal loopOnLocalLong :=
    .cons (.refl _) (.cons (.refl _) (.cons hconstant (.cons (.compact rfl) (.cons (.refl _)
      (.cons hload (.cons (.refl _) (.cons (.branch _) .nil)))))))
  have hanswers : ((Sink.attempts loopOnLocal (start countdownSubject ({} : Recorder))).map
      fun a => a.answer.toOption.isSome) = [true, true, true, true, true, true, true, false] := by
    decide +kernel
  refine ⟨hforms, hanswers, ?_⟩
  have halike := attempts_alike countdownSubject loopOnLocal loopOnLocalLong hforms
  have hmaps : Forall₂ Eq
      ((Sink.attempts loopOnLocal (start countdownSubject ({} : Recorder))).map
        fun a => a.answer.toOption.isSome)
      ((Sink.attempts loopOnLocalLong (start countdownSubject ({} : Recorder))).map
        fun a => a.answer.toOption.isSome) := by
    rw [List.forall₂_map_left_iff, List.forall₂_map_right_iff]
    exact halike.imp fun _ _ h => congrArg Option.isSome h.answer
  rw [List.forall₂_eq_eq_eq] at hmaps
  rw [← hmaps, hanswers]

end Cil
