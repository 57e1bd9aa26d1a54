/-
Which bodies a writer accepts.

Whether a distance fits is found out at two times: when the branch is written if its label is marked by
then, and when the label is marked otherwise.  The order does not matter in the end: a body is accepted if
every distance fits, wherever the branch and the mark stand (`Sound`), and if no label is missing where the
body ends (`AllMarked`).  Both are said of the calls alone, with the offsets counted from their sizes.

What a writer knows after some calls follows from them (`Follows`), and so does what it takes next
(`exists_step_iff`).  The main result is then an induction on the calls, from the last one back.
-/
import Cil.Proofs.Code.Codec
import Cil.Proofs.Verifier.Accept
import Cil.Proofs.Writer.Marks
import Mathlib.Data.List.Induction
import Mathlib.Data.List.Nodup

namespace Cil

/-! ### Sound bodies -/

namespace Call

/-- The bytes of the instruction that a call emits. -/
def size : Call → Nat
  | .emit op _ | .branch op _ | .invoke op _ | .field op _ | .type op _ | .token op _ | .string op _ =>
    op.size + op.operandKind.size?.getD 0
  | .switch targets => 5 + 4 * targets.length
  | .declareLocal .. | .createLabel _ | .markLabel _ | .finish => 0

def createsLabel : Call → Bool
  | .createLabel _ => true
  | _ => false

/-- The labels that a call names. -/
def labels (c : Call) : List Nat := c.targets ++ c.marked?.toList

/-- Does the opcode go with the operand, labels apart? -/
def Suited : Call → Prop
  | .emit op x => op ≠ .switch ∧ x.fits op.operandKind = true
  | .branch op _ => op ≠ .switch ∧ ∃ b, op.category = .branch b
  | .invoke op _ | .field op _ | .type op _ | .token op _ | .string op _ =>
    op.operandKind.isToken = true
  | _ => True

/-- Is the distance to the label a single byte? -/
def isShort : Call → Bool
  | .branch op _ => op.operandKind = .shortTarget
  | _ => false

/-- Has the instruction room for the distance? -/
def HasRoom (c : Call) (distance : Int) : Prop :=
  if c.isShort then -128 ≤ distance ∧ distance ≤ 127
  else -2147483648 ≤ distance ∧ distance ≤ 2147483647

end Call

namespace Writer

variable {calls before : List Call} {b c : Call} {label : Nat}

/-- The call is one of `calls`, and the calls before it are these. -/
def Made (calls before : List Call) (c : Call) : Prop :=
  before ++ [c] <+: calls

/-- The bytes that some calls emit. -/
def codeSize : List Call → Nat
  | [] => 0
  | c :: rest => c.size + codeSize rest

/-- The number of labels that some calls create. -/
def labelCount (calls : List Call) : Nat :=
  calls.countP Call.createsLabel

/-- Opcodes go with their operands, labels are created before they are named, no label is marked twice,
and the distance from the end of an instruction to each of its labels fits. -/
structure Sound (calls : List Call) : Prop where
  suited : ∀ c ∈ calls, c.Suited
  created : ∀ before c, Made calls before c → ∀ label ∈ c.labels, label < labelCount before
  markedOnce : (calls.filterMap Call.marked?).Nodup
  inRange : ∀ before c, Made calls before c → ∀ label ∈ c.targets,
    ∀ front, Made calls front (.markLabel label) →
      c.HasRoom ((codeSize front : Int) - codeSize (before ++ [c]))

/-- Every label that an instruction names is marked. -/
def AllMarked (calls : List Call) : Prop :=
  ∀ c ∈ calls, ∀ label ∈ c.targets, .markLabel label ∈ calls

/-- Every label is marked by the next `finish`. -/
def MarkedByFinish (calls : List Call) : Prop :=
  ∀ before, Made calls before .finish → AllMarked before

/-! ### One more call -/

theorem made_concat : Made (calls ++ [c]) before b ↔ Made calls before b ∨ before = calls ∧ b = c := by
  unfold Made
  rw [List.prefix_concat_iff, or_comm]
  refine or_congr_right ⟨fun h => ?_, fun h => by rw [h.1, h.2]⟩
  exact ⟨(List.append_inj' h rfl).1, List.singleton_inj.mp (List.append_inj' h rfl).2⟩

theorem Made.mem (h : Made calls before c) : c ∈ calls :=
  h.subset (by simp)

theorem exists_made (h : c ∈ calls) : ∃ before, Made calls before c := by
  obtain ⟨before, after, rfl⟩ := List.append_of_mem h
  exact ⟨before, after, by simp⟩

theorem codeSize_concat (calls : List Call) (c : Call) :
    codeSize (calls ++ [c]) = codeSize calls + c.size := by
  induction calls with
  | nil => simp [codeSize]
  | cons first rest ih => rw [List.cons_append, codeSize, codeSize, ih, Nat.add_assoc]

theorem mem_filterMap_marked? : label ∈ calls.filterMap Call.marked? ↔ .markLabel label ∈ calls := by
  rw [List.mem_filterMap]
  constructor
  · rintro ⟨c, hc, hmarked⟩
    cases c with
    | markLabel l =>
      cases hmarked
      exact hc
    | _ => cases hmarked
  · intro h
    exact ⟨_, h, rfl⟩

/-- What a sound body asks of the call after it. -/
structure Next (calls : List Call) (c : Call) : Prop where
  suited : c.Suited
  created : ∀ label ∈ c.labels, label < labelCount calls
  unmarked : ∀ label, c = .markLabel label → .markLabel label ∉ calls
  /-- The distances to labels that are marked. -/
  back : ∀ label ∈ c.targets, ∀ front, Made calls front (.markLabel label) →
    c.HasRoom ((codeSize front : Int) - codeSize (calls ++ [c]))
  /-- The distances from instructions that waited for a mark. -/
  ahead : ∀ label, c = .markLabel label → ∀ before b, Made calls before b → label ∈ b.targets →
    b.HasRoom ((codeSize calls : Int) - codeSize (before ++ [b]))
  byFinish : c = .finish → AllMarked calls

/-- A call that names no label and ends nothing may always come next. -/
theorem next_idle (hsuited : c.Suited) (htargets : c.targets = []) (hmarked : c.marked? = none)
    (hfinish : c ≠ .finish) : Next calls c := by
  have hmark : ∀ label, c ≠ .markLabel label := by
    rintro label rfl
    cases hmarked
  refine ⟨hsuited, ?_, fun label hc => absurd hc (hmark label), ?_,
    fun label hc => absurd hc (hmark label), fun hc => absurd hc hfinish⟩
  · simp [Call.labels, htargets, hmarked]
  · simp [htargets]

theorem next_instruction_iff {op : Opcode} (hop : c.opcode? = some op) : Next calls c ↔
    c.Suited ∧ ∀ label ∈ c.targets, label < labelCount calls ∧
      ∀ front, Made calls front (.markLabel label) →
        c.HasRoom ((codeSize front : Int) - codeSize (calls ++ [c])) := by
  have hlabels : c.labels = c.targets := by
    cases c <;> first | exact List.append_nil _ | cases hop
  constructor
  · intro h
    exact ⟨h.suited, fun label hlabel => ⟨h.created label (hlabels ▸ hlabel), h.back label hlabel⟩⟩
  · rintro ⟨hsuited, htargets⟩
    refine ⟨hsuited, ?_, ?_, fun label hlabel => (htargets label hlabel).2, ?_, ?_⟩
    · exact hlabels ▸ fun label hlabel => (htargets label hlabel).1
    · rintro label rfl
      cases hop
    · rintro label rfl
      cases hop
    · rintro rfl
      cases hop

theorem next_mark_iff : Next calls (.markLabel label) ↔ label < labelCount calls ∧
    .markLabel label ∉ calls ∧ ∀ before b, Made calls before b → label ∈ b.targets →
      b.HasRoom ((codeSize calls : Int) - codeSize (before ++ [b])) := by
  constructor
  · intro h
    exact ⟨h.created label List.mem_cons_self, h.unmarked label rfl, h.ahead label rfl⟩
  · rintro ⟨hcreated, hunmarked, hahead⟩
    refine ⟨trivial, ?_, ?_, ?_, ?_, ?_⟩
    · intro l hl
      exact List.mem_singleton.mp hl ▸ hcreated
    · rintro l ⟨⟩
      exact hunmarked
    · simp [Call.targets]
    · rintro l ⟨⟩
      exact hahead
    · simp

theorem next_finish_iff : Next calls .finish ↔ AllMarked calls := by
  constructor
  · intro h
    exact h.byFinish rfl
  · intro h
    refine ⟨trivial, ?_, ?_, ?_, ?_, fun _ => h⟩ <;> simp [Call.labels, Call.targets, Call.marked?]

theorem nodup_marked_concat : ((calls ++ [c]).filterMap Call.marked?).Nodup ↔
    (calls.filterMap Call.marked?).Nodup ∧ ∀ label, c = .markLabel label → .markLabel label ∉ calls := by
  rw [List.filterMap_append]
  cases c with
  | markLabel label =>
    show (calls.filterMap Call.marked? ++ [label]).Nodup ↔ _
    rw [← List.concat_eq_append, List.nodup_concat, mem_filterMap_marked?, and_comm]
    simp
  | _ =>
    rw [List.filterMap_cons_none rfl, List.filterMap_nil, List.append_nil]
    simp

theorem sound_concat : Sound (calls ++ [c]) ∧ MarkedByFinish (calls ++ [c]) ↔
    (Sound calls ∧ MarkedByFinish calls) ∧ Next calls c := by
  constructor
  · rintro ⟨hsound, hmarked⟩
    obtain ⟨hnodup, hunmarked⟩ := nodup_marked_concat.mp hsound.markedOnce
    have hlast : Made (calls ++ [c]) calls c := made_concat.mpr (.inr ⟨rfl, rfl⟩)
    have hearlier : ∀ {before b}, Made calls before b → Made (calls ++ [c]) before b :=
      fun h => made_concat.mpr (.inl h)
    refine ⟨⟨⟨?_, ?_, hnodup, ?_⟩, ?_⟩, ⟨?_, ?_, hunmarked, ?_, ?_, ?_⟩⟩
    · intro b hb
      exact hsound.suited b (List.mem_append_left _ hb)
    · intro before b hb
      exact hsound.created before b (hearlier hb)
    · intro before b hb label hlabel front hfront
      exact hsound.inRange before b (hearlier hb) label hlabel front (hearlier hfront)
    · intro before hb
      exact hmarked before (hearlier hb)
    · exact hsound.suited c (by simp)
    · exact hsound.created calls c hlast
    · intro label hlabel front hfront
      exact hsound.inRange calls c hlast label hlabel front (hearlier hfront)
    · rintro label rfl before b hb hlabel
      exact hsound.inRange before b (hearlier hb) label hlabel calls hlast
    · rintro rfl
      exact hmarked calls hlast
  · rintro ⟨⟨hsound, hmarked⟩, hnext⟩
    refine ⟨⟨?_, ?_, nodup_marked_concat.mpr ⟨hsound.markedOnce, hnext.unmarked⟩, ?_⟩, ?_⟩
    · intro b hb
      rcases List.mem_append.mp hb with hb | hb
      · exact hsound.suited b hb
      · exact List.mem_singleton.mp hb ▸ hnext.suited
    · intro before b hb
      rcases made_concat.mp hb with hb | ⟨rfl, rfl⟩
      · exact hsound.created before b hb
      · exact hnext.created
    · intro before b hb label hlabel front hfront
      rcases made_concat.mp hb with hb | ⟨rfl, rfl⟩
      · rcases made_concat.mp hfront with hfront | ⟨rfl, hc⟩
        · exact hsound.inRange before b hb label hlabel front hfront
        · exact hnext.ahead label hc.symm before b hb hlabel
      · rcases made_concat.mp hfront with hfront | ⟨-, hc⟩
        · exact hnext.back label hlabel front hfront
        · rw [← hc] at hlabel
          exact absurd hlabel List.not_mem_nil
    · intro before hb
      rcases made_concat.mp hb with hb | ⟨rfl, hc⟩
      · exact hmarked before hb
      · exact hnext.byFinish hc.symm

/-! ### Places in the code of a call -/

theorem fits_iff_hasRoom {f : Fixup} (h : f.short = c.isShort) {distance : Int} :
    f.fits distance = true ↔ c.HasRoom distance := by
  unfold Fixup.fits Fixup.limit Call.HasRoom
  rw [h, Bool.and_eq_true, decide_eq_true_iff, decide_eq_true_iff]
  cases c.isShort with
  | true =>
    show -128 ≤ distance ∧ distance < 128 ↔ -128 ≤ distance ∧ distance ≤ 127
    omega
  | false =>
    show -2147483648 ≤ distance ∧ distance < 2147483648 ↔ -2147483648 ≤ distance ∧ distance ≤ 2147483647
    omega

theorem place_of_tableCells {origin position : Nat} {targets : List Nat} {f : Fixup}
    (h : .slot f ∈ tableCells origin position targets) : f.origin = origin ∧ f.short = false := by
  induction targets generalizing position with
  | nil => exact absurd h List.not_mem_nil
  | cons target rest ih =>
    rcases List.mem_cons.mp h with hfirst | hrest
    · cases hfirst
      exact ⟨rfl, rfl⟩
    · exact ih hrest

theorem exists_slot_of_table {origin position : Nat} {targets : List Nat} (h : label ∈ targets) :
    ∃ f, .slot f ∈ tableCells origin position targets ∧ f.label = label := by
  induction targets generalizing position with
  | nil => exact absurd h List.not_mem_nil
  | cons target rest ih =>
    rcases List.mem_cons.mp h with rfl | hrest
    · exact ⟨_, List.mem_cons_self, rfl⟩
    · obtain ⟨f, hf, hlabel⟩ := ih hrest
      exact ⟨f, List.mem_cons_of_mem _ hf, hlabel⟩

/-- A place in the code of a call is for one of its labels, and its distance counts from the end of the
instruction. -/
theorem place_of_cells {token : Option Token} {start : Nat} {f : Fixup}
    (h : .slot f ∈ c.cells token start) :
    f.label ∈ c.targets ∧ f.origin = start + c.size ∧ f.short = c.isShort := by
  cases c with
  | branch op target =>
    obtain rfl : f = branchPlace op target start := by simpa [Call.cells] using h
    exact ⟨List.mem_singleton.mpr rfl, Nat.add_assoc _ _ _, rfl⟩
  | switch targets =>
    have hcell : .slot f ∈ tableCells (start + 5 + 4 * targets.length) (start + 5) targets := by
      simpa [Call.cells, switchCells] using h
    obtain ⟨horigin, hshort⟩ := place_of_tableCells hcell
    exact ⟨label_mem_of_tableCells hcell, by rw [horigin, Nat.add_assoc]; rfl, hshort⟩
  | _ => simp [Call.cells] at h

theorem exists_slot_of_target (h : label ∈ c.targets) (token : Option Token) (start : Nat) :
    ∃ f, .slot f ∈ c.cells token start ∧ f.label = label := by
  cases c with
  | branch op target =>
    obtain rfl := List.mem_singleton.mp h
    exact ⟨_, List.mem_cons_of_mem _ List.mem_cons_self, rfl⟩
  | switch targets =>
    obtain ⟨f, hf, hlabel⟩ := exists_slot_of_table h
    exact ⟨f, List.mem_cons_of_mem _ hf, hlabel⟩
  | _ => exact absurd h List.not_mem_nil

/-- What is asked of all places of a call is asked of all its labels. -/
theorem forall_slot_iff (token : Option Token) (start : Nat) {Q : Nat → (Int → Prop) → Prop} :
    (∀ f, .slot f ∈ c.cells token start → Q f.label fun m => f.fits (m - f.origin) = true) ↔
      ∀ label ∈ c.targets, Q label fun m => c.HasRoom (m - (start + c.size : Nat)) := by
  have hplace : ∀ f, .slot f ∈ c.cells token start →
      (fun m : Int => f.fits (m - f.origin) = true) = fun m => c.HasRoom (m - (start + c.size : Nat)) := by
    intro f hf
    obtain ⟨-, horigin, hshort⟩ := place_of_cells hf
    funext m
    rw [horigin, fits_iff_hasRoom hshort]
  constructor
  · intro h label hlabel
    obtain ⟨f, hf, rfl⟩ := exists_slot_of_target hlabel token start
    exact hplace f hf ▸ h f hf
  · intro h f hf
    exact hplace f hf ▸ h f.label (place_of_cells hf).1

/-- The places do not depend on the token. -/
theorem slot_mem_cells_iff {token : Option Token} {start : Nat} {f : Fixup} :
    .slot f ∈ c.cells token start ↔ .slot f ∈ c.cells none start := by
  cases c <;> simp [Call.cells]

theorem suited_iff_writable : c.Suited ↔ c.Writable := by
  cases c with
  | emit op x =>
    show _ ↔ (op.operandKind != .table && x.fits op.operandKind) = true
    rw [Bool.and_eq_true, bne_iff_ne]
    refine and_congr_left fun _ => not_congr ⟨fun h => ?_, Opcode.eq_switch_of_table⟩
    rw [h]
    rfl
  | branch op target =>
    constructor
    · rintro ⟨hop, b, hcategory⟩
      exact ⟨b, hcategory, fun htable => hop (Opcode.eq_switch_of_kind hcategory htable)⟩
    · rintro ⟨b, hcategory, hone⟩
      refine ⟨?_, b, hcategory⟩
      rintro rfl
      cases hcategory
      exact hone rfl
  | _ => exact Iff.rfl

theorem extent_cells (hc : c.Writable) (token : Option Token) (start : Nat) :
    extent (c.cells token start) = c.size := by
  cases c with
  | branch op target =>
    obtain ⟨b, hcategory, hone⟩ := hc
    show op.bytes.length + ((branchPlace op target start).width + 0) = _
    rw [width_branchPlace hcategory hone, Opcode.length_bytes]
    rfl
  | switch targets =>
    show (tableHead targets).length + extent (tableCells _ _ targets) = 5 + 4 * targets.length
    rw [length_tableHead, extent_tableCells]
  | declareLocal t name => rfl
  | createLabel name => rfl
  | markLabel label => rfl
  | finish => rfl
  | _ => exact Code.length_bytes_instruction _

/-! ### What a writer knows after some calls -/

section

variable {π : Type} {w w' : Writer π} {reply : Option Nat}

/-- The labels, the length of the code, the marks and the places in the code are those of the calls. -/
structure Follows (w : Writer π) (calls : List Call) : Prop where
  size_labels : w.labels.size = labelCount calls
  offset_eq : w.offset = codeSize calls
  mark?_eq : ∀ label m, w.mark? label = some m ↔
    ∃ front, Made calls front (.markLabel label) ∧ codeSize front = m
  laid : ∃ cells, w.Laid cells ∧ ∀ f, .slot f ∈ cells ↔
    ∃ before b, Made calls before b ∧ .slot f ∈ b.cells none (codeSize before)

theorem follows_fresh (p : π) : Follows { symbols := p } [] where
  size_labels := rfl
  offset_eq := rfl
  mark?_eq := by simp [Made, mark?]
  laid := ⟨[], laid_fresh p, by simp [Made]⟩

theorem Follows.mark?_eq_none (h : w.Follows calls) : w.mark? label = none ↔ .markLabel label ∉ calls := by
  rw [Option.eq_none_iff_forall_ne_some]
  constructor
  · intro hnone hmem
    obtain ⟨front, hfront⟩ := exists_made hmem
    exact hnone _ ((h.mark?_eq label _).mpr ⟨front, hfront, rfl⟩)
  · intro hmem m hm
    obtain ⟨front, hfront, -⟩ := (h.mark?_eq label m).mp hm
    exact hmem hfront.mem

variable [TokenProvider π]

theorem writable_of_step (hstep : Sink.step c w = .ok reply w') : c.Writable := by
  cases hop : c.opcode? with
  | some op => exact ((step_instruction_ok hop).mp hstep).2.1
  | none => cases c <;> trivial

theorem size_labels_of_step {cells : List Cell} (h : w.Laid cells)
    (hstep : Sink.step c w = .ok reply w') : w'.labels.size = w.labels.size + labelCount [c] := by
  cases hop : c.opcode? with
  | some op =>
    obtain ⟨-, -, -, rfl⟩ := (step_instruction_ok hop).mp hstep
    cases c <;> first | rfl | exact nomatch hop
  | none =>
    cases c with
    | declareLocal t name =>
      cases hstep
      rfl
    | createLabel name =>
      cases hstep
      exact Array.size_push _
    | markLabel label =>
      obtain ⟨-, -, -, rfl⟩ := (mark_ok h).mp (silent_ok.mp hstep).2
      exact Array.size_modify
    | finish =>
      obtain ⟨-, rfl⟩ := finish_ok.mp (silent_ok.mp hstep).2
      rfl
    | _ => exact nomatch hop

theorem eq_of_marked? (h : c.marked? = some label) : c = .markLabel label := by
  cases c with
  | markLabel l => exact congrArg Call.markLabel (Option.some.inj h)
  | _ => exact nomatch h

/-- What a writer knows follows the next call. -/
theorem Follows.step (h : w.Follows calls) (hstep : Sink.step c w = .ok reply w') :
    w'.Follows (calls ++ [c]) := by
  obtain ⟨cells, hlaid, hslots⟩ := h.laid
  have hadvances := advances_of_step hlaid hstep
  refine ⟨?_, ?_, ?_, cells ++ added c w, hadvances.laid, ?_⟩
  · rw [size_labels_of_step hlaid hstep, h.size_labels]
    exact (List.countP_append ..).symm
  · rw [hadvances.offset, codeSize_concat, h.offset_eq, added, extent_cells (writable_of_step hstep)]
  · intro label m
    have hmade : (∃ front, Made (calls ++ [c]) front (.markLabel label) ∧ codeSize front = m) ↔
        w.mark? label = some m ∨ .markLabel label = c ∧ codeSize calls = m := by
      simp [made_concat, h.mark?_eq, or_and_right, exists_or, and_assoc]
    rw [hmade]
    cases hmarked : c.marked? with
    | none =>
      have hne : .markLabel label ≠ c := by
        rintro rfl
        cases hmarked
      simp [hadvances.keeps hmarked, hne]
    | some l =>
      obtain ⟨hunmarked, hmark⟩ := hadvances.marks l hmarked
      rw [hmark, eq_of_marked? hmarked, Call.markLabel.injEq]
      by_cases hl : label = l
      · subst hl
        simp [withMark_self, hunmarked, h.offset_eq]
      · simp [withMark_of_ne hl, hl]
  · intro f
    rw [List.mem_append, hslots, added, slot_mem_cells_iff, h.offset_eq]
    simp [made_concat, or_and_right, exists_or, and_assoc]

theorem follows_run {p : π} (hrun : Sink.run calls { symbols := p } = some w) : w.Follows calls := by
  induction calls using List.reverseRecOn generalizing w with
  | nil =>
    cases hrun
    exact follows_fresh p
  | append_singleton calls c ih =>
    obtain ⟨w₁, hcalls, hlast⟩ := Sink.run_append.mp hrun
    obtain ⟨reply, w₂, hstep, hnil⟩ := Sink.run_cons.mp hlast
    cases hnil
    exact (ih hcalls).step hstep

/-! ### What a writer takes next -/

theorem Follows.instruction_iff (h : w.Follows calls) {op : Opcode} (hop : c.opcode? = some op) :
    (∃ reply w', Sink.step c w = .ok reply w') ↔ c.Writable ∧ ∀ label ∈ c.targets,
      label < labelCount calls ∧ ∀ front, Made calls front (.markLabel label) →
        c.HasRoom ((codeSize front : Int) - codeSize (calls ++ [c])) := by
  have hallowed : (∀ f, .slot f ∈ c.cells (c.tokenFrom w.symbols).1 w.offset → w.Allowed f) ↔
      ∀ label ∈ c.targets, label < labelCount calls ∧
        ∀ front, Made calls front (.markLabel label) →
          c.HasRoom ((codeSize front : Int) - codeSize (calls ++ [c])) := by
    refine (forall_slot_iff _ _ (Q := fun label room => label < w.labels.size ∧
      ∀ target : Nat, w.mark? label = some target → room target)).trans ?_
    simp only [h.size_labels, h.mark?_eq, h.offset_eq, codeSize_concat]
    refine forall₂_congr fun label _ => and_congr_right fun _ => ?_
    exact ⟨fun hall front hfront => hall _ ⟨front, hfront, rfl⟩,
      fun hall target ⟨front, hfront, htarget⟩ => htarget ▸ hall front hfront⟩
  simp only [step_instruction_ok hop, hallowed]
  exact ⟨fun ⟨_, _, _, hc, htargets, _⟩ => ⟨hc, htargets⟩,
    fun ⟨hc, htargets⟩ => ⟨_, _, rfl, hc, htargets, rfl⟩⟩

/-- What is asked of all places in the code is asked of all labels named so far. -/
theorem forall_slot_of_made {cells : List Cell}
    (hslots : ∀ f, .slot f ∈ cells ↔
      ∃ before b, Made calls before b ∧ .slot f ∈ b.cells none (codeSize before))
    {Q : Nat → (Int → Prop) → Prop} :
    (∀ f, .slot f ∈ cells → Q f.label fun m => f.fits (m - f.origin) = true) ↔
      ∀ before b, Made calls before b → ∀ label ∈ b.targets,
        Q label fun m => b.HasRoom (m - codeSize (before ++ [b])) := by
  simp only [codeSize_concat]
  constructor
  · intro h before b hb
    exact (forall_slot_iff none _).mp fun f hf => h f ((hslots f).mpr ⟨before, b, hb, hf⟩)
  · intro h f hf
    obtain ⟨before, b, hb, hf⟩ := (hslots f).mp hf
    exact (forall_slot_iff none _).mpr (h before b hb) f hf

theorem Follows.mark_iff (h : w.Follows calls) :
    (∃ reply w', Sink.step (.markLabel label) w = .ok reply w') ↔ label < labelCount calls ∧
      .markLabel label ∉ calls ∧ ∀ before b, Made calls before b → label ∈ b.targets →
        b.HasRoom ((codeSize calls : Int) - codeSize (before ++ [b])) := by
  obtain ⟨cells, hlaid, hslots⟩ := h.laid
  have hwaiting : (∀ f, .slot f ∈ cells → f.label = label → f.fits ((w.offset : Int) - f.origin) = true) ↔
      ∀ before b, Made calls before b → label ∈ b.targets →
        b.HasRoom ((codeSize calls : Int) - codeSize (before ++ [b])) := by
    rw [h.offset_eq]
    refine (forall_slot_of_made hslots (Q := fun l room => l = label → room (codeSize calls))).trans ?_
    refine forall₃_congr fun before b _ => ?_
    exact ⟨fun hall hlabel => hall label hlabel rfl, fun hroom l hl hlabel => hroom (hlabel ▸ hl)⟩
  have hstep : ∀ reply w', Sink.step (.markLabel label) w = .ok reply w' ↔
      none = reply ∧ mark label w = .ok () w' := fun _ _ => silent_ok
  simp only [hstep, mark_ok hlaid, hwaiting, h.size_labels, h.mark?_eq_none]
  exact ⟨fun ⟨_, _, _, hknown, hunmarked, hroom, _⟩ => ⟨hknown, hunmarked, hroom⟩,
    fun ⟨hknown, hunmarked, hroom⟩ => ⟨_, _, rfl, hknown, hunmarked, hroom, rfl⟩⟩

omit [TokenProvider π] in
theorem Laid.fixups_eq_nil_iff {cells : List Cell} (h : w.Laid cells) :
    w.fixups = [] ↔ ∀ f, .slot f ∈ cells → w.mark? f.label ≠ none := by
  rw [h.fixups, List.filterMap_eq_nil_iff]
  constructor
  · intro hall f hf hnone
    cases (Cell.waiting_of_none hnone).symm.trans (hall _ hf)
  · intro hall cell hcell
    cases cell with
    | fixed bytes => rfl
    | slot f =>
      obtain ⟨target, htarget⟩ := Option.ne_none_iff_exists'.mp (hall f hcell)
      exact Cell.waiting_of_some htarget

theorem Follows.finish_iff (h : w.Follows calls) :
    (∃ reply w', Sink.step .finish w = .ok reply w') ↔ AllMarked calls := by
  obtain ⟨cells, hlaid, hslots⟩ := h.laid
  have hmarked : (∀ f, .slot f ∈ cells → w.mark? f.label ≠ none) ↔ AllMarked calls := by
    refine (forall_slot_of_made hslots (Q := fun label _ => w.mark? label ≠ none)).trans ?_
    simp only [ne_eq, h.mark?_eq_none, not_not]
    constructor
    · intro hall b hb
      obtain ⟨before, hmade⟩ := exists_made hb
      exact hall before b hmade
    · intro hall before b hb
      exact hall b hb.mem
  have hstep : ∀ reply w', Sink.step .finish w = .ok reply w' ↔ none = reply ∧ finish w = .ok () w' :=
    fun _ _ => silent_ok
  simp only [hstep, finish_ok, hlaid.fixups_eq_nil_iff, hmarked]
  exact ⟨fun ⟨_, _, _, hall, _⟩ => hall, fun hall => ⟨_, _, rfl, hall, rfl⟩⟩

theorem Follows.exists_step_iff (h : w.Follows calls) (c : Call) :
    (∃ reply w', Sink.step c w = .ok reply w') ↔ Next calls c := by
  cases hop : c.opcode? with
  | some op => rw [h.instruction_iff hop, next_instruction_iff hop, suited_iff_writable]
  | none =>
    cases c with
    | declareLocal t name => exact iff_of_true ⟨_, _, rfl⟩ (next_idle trivial rfl rfl (by simp))
    | createLabel name => exact iff_of_true ⟨_, _, rfl⟩ (next_idle trivial rfl rfl (by simp))
    | markLabel label => rw [h.mark_iff, next_mark_iff]
    | finish => rw [h.finish_iff, next_finish_iff]
    | _ => cases hop

theorem run_iff_sound (p : π) (calls : List Call) :
    (∃ w, Sink.run calls ({ symbols := p } : Writer π) = some w) ↔ Sound calls ∧ MarkedByFinish calls := by
  induction calls using List.reverseRecOn with
  | nil =>
    refine iff_of_true ⟨_, rfl⟩ ⟨⟨?_, ?_, List.nodup_nil, ?_⟩, ?_⟩
    · simp
    · simp [Made]
    · simp [Made]
    · simp [MarkedByFinish, Made]
  | append_singleton calls c ih =>
    rw [sound_concat, ← ih]
    constructor
    · rintro ⟨w', hrun⟩
      obtain ⟨w, hcalls, hlast⟩ := Sink.run_append.mp hrun
      obtain ⟨reply, w₂, hstep, -⟩ := Sink.run_cons.mp hlast
      exact ⟨⟨w, hcalls⟩, ((follows_run hcalls).exists_step_iff c).mp ⟨reply, w₂, hstep⟩⟩
    · rintro ⟨⟨w, hcalls⟩, hnext⟩
      obtain ⟨reply, w', hstep⟩ := ((follows_run hcalls).exists_step_iff c).mpr hnext
      exact ⟨w', Sink.run_append.mpr ⟨w, hcalls, Sink.run_cons.mpr ⟨reply, w', hstep, rfl⟩⟩⟩

/-- **A writer accepts a body just if it is sound and no label is missing where the body ends.**  Labels
may be marked before the branches to them or after, and a distance fits or not whichever comes first; but
if the body is ended more than once, every label named before an end is marked before it. -/
theorem accepts_iff_sound (p : π) (calls : List Call) :
    (∃ w, Sink.run (calls ++ [.finish]) ({ symbols := p } : Writer π) = some w) ↔
      Sound calls ∧ AllMarked calls ∧ ∀ before, Made calls before .finish → AllMarked before := by
  rw [run_iff_sound, sound_concat, next_finish_iff, and_assoc, and_comm (b := AllMarked calls)]
  exact Iff.rfl

end

/-! ### A label that is marked too late -/

/-- Ends a body twice, and marks a label in between. -/
def lateMark : List Call :=
  [.createLabel "end", .branch .br 0, .finish, .markLabel 0]

theorem made_lateMark (h : Made lateMark before c) :
    before = [] ∧ c = .createLabel "end" ∨ before = [.createLabel "end"] ∧ c = .branch .br 0 ∨
    before = [.createLabel "end", .branch .br 0] ∧ c = .finish ∨
    before = [.createLabel "end", .branch .br 0, .finish] ∧ c = .markLabel 0 := by
  change Made ([] ++ [.createLabel "end"] ++ [.branch .br 0] ++ [.finish] ++ [.markLabel 0]) before c at h
  simp only [made_concat] at h
  simpa [Made, or_assoc] using h

/-- It is not enough that every label is marked somewhere: the first `finish` does not wait for the mark
that comes after it. -/
theorem lateMark_refused :
    Sound lateMark ∧ AllMarked lateMark ∧
      Sink.run (lateMark ++ [.finish]) ({} : Writer) = none := by
  refine ⟨⟨?_, ?_, ?_, ?_⟩, ?_, rfl⟩
  · have hbr : (Call.branch .br 0).Suited := ⟨by decide, _, rfl⟩
    simpa [lateMark, Call.Suited] using hbr
  · intro before c hc label hlabel
    rcases made_lateMark hc with ⟨rfl, rfl⟩ | ⟨rfl, rfl⟩ | ⟨rfl, rfl⟩ | ⟨rfl, rfl⟩
    · cases hlabel
    · obtain rfl := List.mem_singleton.mp hlabel
      decide
    · cases hlabel
    · obtain rfl := List.mem_singleton.mp hlabel
      decide
  · decide
  · intro before c hc label hlabel front hfront
    obtain ⟨rfl, rfl⟩ : before = [.createLabel "end"] ∧ c = .branch .br 0 := by
      rcases made_lateMark hc with ⟨rfl, rfl⟩ | h | ⟨rfl, rfl⟩ | ⟨rfl, rfl⟩
      · cases hlabel
      · exact h
      · cases hlabel
      · cases hlabel
    obtain ⟨rfl, -⟩ : front = [.createLabel "end", .branch .br 0, .finish] ∧ label = 0 := by
      simpa using made_lateMark hfront
    show -2147483648 ≤ (0 : Int) ∧ (0 : Int) ≤ 2147483647
    decide
  · simp [AllMarked, lateMark, Call.targets]

end Writer

end Cil
