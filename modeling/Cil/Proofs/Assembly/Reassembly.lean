/-
A listing assembles to the code it was made from.

A line of a listing marks the place it stands at and emits its instruction.  Labels are made as places
are first named, so an index stands for a place from then on (`Refers`).  The code written so far is
then known but for the places that are still to be marked: with the places that the labels stand for
put in, the cells are the bytes of the instructions so far (`Assembled`).  At the end every label is
marked where it stands for, and the code is what it was.
-/
import Cil.Proofs.Assembly.Lines
import Cil.Proofs.Code.Listing
import Cil.Proofs.Writer.Marks
import Mathlib.Data.Bool.AllAny

namespace Cil

open Code (placeName)

namespace Assembler

variable {π : Type}

/-- The label stands for a place in the code. -/
def Refers (a : Assembler (Writer π)) (label m : Nat) : Prop := (placeName m, label) ∈ a.labels

/-- The places are those that the labels stand for. -/
def Agrees (a : Assembler (Writer π)) (places : Nat → Option Nat) : Prop :=
  ∀ label m, a.Refers label m → places label = some m

/-- The text so far has been assembled into the given bytes.  Instructions start at `starts`, and the
places among them that are `marked` have a label that is marked. -/
structure Assembled (starts marked : List Nat) (bytes : List UInt8) (cells : List Writer.Cell)
    (a : Assembler (Writer π)) : Prop where
  laid : a.sink.Laid cells
  /-- Every name is that of a place where an instruction starts, and its label is known. -/
  named : ∀ name label, (name, label) ∈ a.labels →
    label < a.sink.labels.size ∧ ∃ m ∈ starts, name = placeName m
  /-- A place has one label. -/
  once : ∀ {label label' m}, a.Refers label m → a.Refers label' m → label = label'
  /-- A label stands for one place. -/
  apart : ∀ {label m m'}, a.Refers label m → a.Refers label m' → m = m'
  /-- A label is marked at the place it stands for. -/
  refers : ∀ label m, a.sink.mark? label = some m → a.Refers label m ∧ m ∈ marked
  marks : ∀ m ∈ marked, ∃ label, a.sink.mark? label = some m
  /-- Every branch leads to a place that it can reach. -/
  slots : ∀ f, .slot f ∈ cells → ∃ m, a.Refers f.label m ∧ f.fits ((m : Int) - f.origin) = true
  image : ∀ places, a.Agrees places → Writer.image places cells = bytes

theorem assembled_fresh (starts : List Nat) (p : π) :
    Assembled starts [] [] [] ({ sink := { symbols := p } } : Assembler (Writer π)) where
  laid := Writer.laid_fresh p
  named := fun _ _ h => absurd h List.not_mem_nil
  once := fun h => absurd h List.not_mem_nil
  apart := fun h => absurd h List.not_mem_nil
  refers := fun _ _ h => nomatch h
  marks := fun _ h => absurd h List.not_mem_nil
  slots := fun _ h => absurd h List.not_mem_nil
  image := fun _ _ => rfl

theorem Assembled.exists_agrees {starts marked : List Nat} {bytes : List UInt8}
    {cells : List Writer.Cell} {a : Assembler (Writer π)} (h : Assembled starts marked bytes cells a) :
    ∃ places, a.Agrees places := by
  classical
  refine ⟨fun label => if hm : ∃ m, a.Refers label m then some hm.choose else none, ?_⟩
  intro label m hm
  have hsome : ∃ m, a.Refers label m := ⟨m, hm⟩
  show (if hm : ∃ m, a.Refers label m then some hm.choose else none) = some m
  rw [dif_pos hsome, h.apart hsome.choose_spec hm]

/-- Once every place is marked the code is complete. -/
theorem Assembled.complete {starts marked : List Nat} {bytes : List UInt8} {cells : List Writer.Cell}
    {a : Assembler (Writer π)} (h : Assembled starts marked bytes cells a)
    (hall : ∀ m ∈ starts, m ∈ marked) : a.sink.fixups = [] ∧ a.sink.bytes = bytes := by
  have hagrees : a.Agrees a.sink.mark? := by
    intro label m hm
    obtain ⟨-, k, hk, hname⟩ := h.named _ _ hm
    obtain rfl := Code.placeName_injective hname
    obtain ⟨label', hmark⟩ := h.marks m (hall m hk)
    exact h.once (h.refers label' m hmark).1 hm ▸ hmark
  constructor
  · rw [h.laid.fixups, List.filterMap_eq_nil_iff]
    intro c hc
    cases c with
    | fixed bytes => rfl
    | slot f =>
      obtain ⟨m, hm, -⟩ := h.slots f hc
      exact Writer.Cell.waiting_of_some (hagrees f.label m hm)
  · exact h.laid.code.trans (h.image _ hagrees)

/-! ### Calls that stand for an instruction -/

section

variable {a : Assembler (Writer π)}

/-- The label stands for the place that a distance from `next` leads to. -/
def Leads (a : Assembler (Writer π)) (next label : Nat) (distance : Int32) : Prop :=
  ∃ m, a.Refers label m ∧ (m : Int) = next + distance.toInt

/-- The call stands for an instruction at the given offset: with the places that its labels stand for
put in, it has the bytes of the instruction. -/
structure Stands (a : Assembler (Writer π)) (start : Nat) (i : Instruction) (c : Call) : Prop where
  opcode : ∃ op, c.opcode? = some op
  writable : c.Writable
  slots : ∀ token f, .slot f ∈ c.cells token start →
    ∃ m, a.Refers f.label m ∧ f.fits ((m : Int) - f.origin) = true
  image : ∀ token places, a.Agrees places → Writer.image places (c.cells token start) = i.bytes

theorem stands_emit {op : Opcode} {x : Operand} (hformed : (Instruction.plain op x).isWellFormed = true)
    (a : Assembler (Writer π)) (start : Nat) : Stands a start (.plain op x) (.emit op x) where
  opcode := ⟨op, rfl⟩
  writable := hformed
  slots := by simp [Call.cells]
  image := fun _ _ _ => List.append_nil _

theorem Leads.reaches {next label : Nat} {distance : Int32} {places : Nat → Option Nat}
    (h : a.Leads next label distance) (hagrees : a.Agrees places) :
    Writer.Reaches places next label distance := by
  obtain ⟨m, hm, hplace⟩ := h
  exact ⟨m, hagrees label m hm, by omega⟩

theorem stands_branch {op : Opcode} {b : Branch} {distance : Int32} {start label : Nat}
    (hcategory : op.category = .branch b) (hone : b.kind ≠ .table)
    (hformed : (Instruction.plain op (.int32 distance)).isWellFormed = true)
    (hleads : a.Leads (start + (Instruction.plain op (.int32 distance)).size) label distance) :
    Stands a start (.plain op (.int32 distance)) (.branch op label) := by
  refine ⟨⟨op, rfl⟩, ⟨b, hcategory, hone⟩, ?_, ?_⟩
  · intro token f hf
    simp only [Call.cells, List.mem_cons, Writer.Cell.slot.injEq, reduceCtorEq, false_or,
      List.not_mem_nil, or_false] at hf
    subst hf
    obtain ⟨m, hm, hplace⟩ := hleads
    have hdistance : (m : Int) - (Writer.branchPlace op label start).origin = distance.toInt := by
      show (m : Int) - (start + op.size + op.operandKind.size?.getD 0 : Nat) = _
      rw [Instruction.size] at hplace
      omega
    refine ⟨m, hm, ?_⟩
    rw [hdistance, Writer.fits_branchPlace hcategory hone]
    exact hformed
  · intro token places hagrees
    exact Writer.image_branch hcategory hone (hleads.reaches hagrees)

theorem slots_tableCells {distances : List Int32} {next position : Nat} {labels : List Nat}
    (hleads : List.Forall₂ (a.Leads next) labels distances) :
    ∀ f, .slot f ∈ Writer.tableCells next position labels →
      ∃ m, a.Refers f.label m ∧ f.fits ((m : Int) - f.origin) = true := by
  induction hleads generalizing position with
  | nil => exact fun f hf => absurd hf List.not_mem_nil
  | @cons label distance labels distances hlead _ ih =>
    intro f hf
    rcases List.mem_cons.mp hf with hf | hf
    · cases hf
      obtain ⟨m, hm, hplace⟩ := hlead
      have hdistance : (m : Int) - (Writer.tablePlace next position label).origin = distance.toInt := by
        show (m : Int) - next = distance.toInt
        omega
      refine ⟨m, hm, ?_⟩
      rw [hdistance]
      exact Writer.fits_tablePlace next position label distance
    · exact ih f hf

theorem stands_switch {distances : List Int32} {start : Nat} {labels : List Nat}
    (hleads : List.Forall₂ (a.Leads (start + (Instruction.switch distances).size)) labels distances) :
    Stands a start (.switch distances) (.switch labels) := by
  refine ⟨⟨.switch, rfl⟩, trivial, ?_, ?_⟩
  · intro token f hf
    have horigin : start + (Instruction.switch distances).size = start + 5 + 4 * labels.length := by
      rw [Instruction.size, hleads.length_eq, Nat.add_assoc]
    rw [horigin] at hleads
    rcases List.mem_cons.mp hf with hf | hf
    · cases hf
    · exact slots_tableCells hleads f hf
  · intro token places hagrees
    exact Writer.image_switch (hleads.imp fun _ _ hlead => hlead.reaches hagrees)

end

variable {starts marked : List Nat} {bytes : List UInt8} {cells : List Writer.Cell}
  {a : Assembler (Writer π)}

/-! ### Labels -/

/-- What naming a place does: nothing but a new label, if there was none. -/
structure Names (starts marked : List Nat) (bytes : List UInt8) (cells : List Writer.Cell)
    (a a' : Assembler (Writer π)) : Prop where
  assembled : Assembled starts marked bytes cells a'
  offset : a'.sink.offset = a.sink.offset
  refers : ∀ {label m}, a.Refers label m → a'.Refers label m

theorem Names.trans {a' a'' : Assembler (Writer π)} (h : Names starts marked bytes cells a a')
    (h' : Names starts marked bytes cells a' a'') : Names starts marked bytes cells a a'' where
  assembled := h'.assembled
  offset := h'.offset.trans h.offset
  refers := fun hrefers => h'.refers (h.refers hrefers)

variable [TokenProvider π]

/-- A place is named for the first time. -/
theorem names_fresh (h : Assembled starts marked bytes cells a) {m : Nat} (hm : m ∈ starts)
    (hnew : ∀ label, ¬a.Refers label m) :
    Names starts marked bytes cells a
      { a with sink := { a.sink with labels := a.sink.labels.push { name := placeName m } }
               labels := (placeName m, a.sink.labels.size) :: a.labels } := by
  have hadvances := Writer.advances_of_step (c := .createLabel (placeName m)) h.laid rfl
  have hlaid := hadvances.laid
  have hmark := hadvances.keeps rfl
  rw [show Writer.added (.createLabel (placeName m)) a.sink = [] from rfl, List.append_nil] at hlaid
  have hold : ∀ {label k}, a.Refers label k → label < a.sink.labels.size ∧ k ≠ m := by
    intro label k hrefers
    refine ⟨(h.named _ _ hrefers).1, ?_⟩
    rintro rfl
    exact hnew label hrefers
  have hcases : ∀ {label k : Nat},
      (placeName k, label) ∈ (placeName m, a.sink.labels.size) :: a.labels →
      (k = m ∧ label = a.sink.labels.size) ∨ a.Refers label k := by
    intro label k hmem
    rcases List.mem_cons.mp hmem with heq | hmem
    · obtain ⟨hname, hlabel⟩ := Prod.mk.inj heq
      exact .inl ⟨Code.placeName_injective hname, hlabel⟩
    · exact .inr hmem
  refine ⟨⟨hlaid, ?_, ?_, ?_, ?_, ?_, ?_, ?_⟩, rfl, List.mem_cons_of_mem _⟩
  · intro name label hmem
    rw [Array.size_push]
    rcases List.mem_cons.mp hmem with heq | hmem
    · cases heq
      exact ⟨Nat.lt_succ_self _, m, hm, rfl⟩
    · obtain ⟨hlabel, hplace⟩ := h.named name label hmem
      exact ⟨Nat.lt_succ_of_lt hlabel, hplace⟩
  · intro label label' k hk hk'
    rcases hcases hk with ⟨hkm, rfl⟩ | hrefers
    · rcases hcases hk' with ⟨-, rfl⟩ | hrefers'
      · rfl
      · exact absurd hkm (hold hrefers').2
    · rcases hcases hk' with ⟨hkm, -⟩ | hrefers'
      · exact absurd hkm (hold hrefers).2
      · exact h.once hrefers hrefers'
  · intro label k k' hk hk'
    rcases hcases hk with ⟨hkm, hlabel⟩ | hrefers
    · rcases hcases hk' with ⟨hkm', -⟩ | hrefers'
      · exact hkm.trans hkm'.symm
      · exact absurd hlabel (Nat.ne_of_lt (hold hrefers').1)
    · rcases hcases hk' with ⟨-, hlabel⟩ | hrefers'
      · exact absurd hlabel (Nat.ne_of_lt (hold hrefers).1)
      · exact h.apart hrefers hrefers'
  · intro label k hk
    obtain ⟨hrefers, hmarked⟩ := h.refers label k (hmark ▸ hk)
    exact ⟨List.mem_cons_of_mem _ hrefers, hmarked⟩
  · intro k hk
    obtain ⟨label, hlabel⟩ := h.marks k hk
    exact ⟨label, hmark.symm ▸ hlabel⟩
  · intro f hf
    obtain ⟨k, hk, hfits⟩ := h.slots f hf
    exact ⟨k, List.mem_cons_of_mem _ hk, hfits⟩
  · intro places hagrees
    exact h.image places fun label k hk => hagrees label k (List.mem_cons_of_mem _ hk)

theorem label_ok (line : Nat) (h : Assembled starts marked bytes cells a) {m : Nat} (hm : m ∈ starts) :
    ∃ index a', label line (placeName m) a = .ok index a' ∧ Names starts marked bytes cells a a' ∧
      a'.Refers index m := by
  have hget : (get : Work (Writer π) _) a = .ok a a := rfl
  cases hlookup : a.labels.lookup (placeName m) with
  | some index =>
    obtain ⟨front, back, hlabels, -⟩ := List.lookup_eq_some_iff.mp hlookup
    refine ⟨index, a, ?_, ⟨h, rfl, id⟩, ?_⟩
    · unfold label
      rw [Step.bind_of_ok hget, hlookup]
      rfl
    · rw [Refers, hlabels]
      exact List.mem_append_right _ List.mem_cons_self
  | none =>
    have hnew : ∀ label, ¬a.Refers label m := by
      intro label hrefers
      have hne := List.lookup_eq_none_iff.mp hlookup _ hrefers
      simp at hne
    refine ⟨a.sink.labels.size, _, ?_, names_fresh h hm hnew, List.mem_cons_self⟩
    unfold label
    rw [Step.bind_of_ok hget, hlookup]
    rfl

theorem target_ok (line : Nat) (h : Assembled starts marked bytes cells a) {next : Nat}
    {distance : Int32} (hstart : ∃ m ∈ starts, (m : Int) = next + distance.toInt) :
    ∃ index a', label line (placeName ((next : Int) + distance.toInt)) a = .ok index a' ∧
      Names starts marked bytes cells a a' ∧ a'.Leads next index distance := by
  obtain ⟨m, hm, hplace⟩ := hstart
  obtain ⟨index, a', hlabel, hnames, hrefers⟩ := label_ok line h hm
  exact ⟨index, a', hplace ▸ hlabel, hnames, m, hrefers, hplace⟩

theorem targets_ok (line : Nat) (h : Assembled starts marked bytes cells a) {next : Nat}
    {distances : List Int32} (hstarts : ∀ d ∈ distances, ∃ m ∈ starts, (m : Int) = next + d.toInt) :
    ∃ indices a', (distances.map fun d : Int32 => placeName ((next : Int) + d.toInt)).mapM (label line) a
        = .ok indices a' ∧ Names starts marked bytes cells a a' ∧
      List.Forall₂ (a'.Leads next) indices distances := by
  induction distances generalizing a with
  | nil => exact ⟨[], a, rfl, ⟨h, rfl, id⟩, .nil⟩
  | cons d rest ih =>
    obtain ⟨index, a₁, hlabel, hnames, m, hm, hplace⟩ :=
      target_ok line h (hstarts d List.mem_cons_self)
    obtain ⟨indices, a₂, hrest, hnames', hall⟩ :=
      ih hnames.assembled fun d' hd' => hstarts d' (List.mem_cons_of_mem d hd')
    refine ⟨index :: indices, a₂, ?_, hnames.trans hnames', .cons ⟨m, hnames'.refers hm, hplace⟩ hall⟩
    rw [List.map_cons, List.mapM_cons, Step.bind_of_ok hlabel, Step.bind_of_ok hrest]
    rfl

/-! ### Marking a place -/

omit [TokenProvider π] in
/-- Every branch to a label can reach the place that the label stands for. -/
theorem Assembled.fits (h : Assembled starts marked bytes cells a) {index m : Nat}
    (hrefers : a.Refers index m) (f : Writer.Fixup) (hf : .slot f ∈ cells) (hlabel : f.label = index) :
    f.fits ((m : Int) - f.origin) = true := by
  subst hlabel
  obtain ⟨k, hk, hfits⟩ := h.slots f hf
  exact h.apart hk hrefers ▸ hfits

omit [TokenProvider π] in
theorem Assembled.unmarked (h : Assembled starts marked bytes cells a) {index m : Nat}
    (hrefers : a.Refers index m) (hnew : m ∉ marked) : a.sink.mark? index = none := by
  cases hmark : a.sink.mark? index with
  | none => rfl
  | some k =>
    obtain ⟨hk, hmarked⟩ := h.refers index k hmark
    exact absurd (h.apart hk hrefers ▸ hmarked) hnew

omit [TokenProvider π] in
/-- The label of the place at the end of the code is marked. -/
theorem Assembled.withMark (h : Assembled starts marked bytes cells a) {index : Nat}
    (hrefers : a.Refers index a.sink.offset) (hnew : a.sink.offset ∉ marked) :
    Assembled starts (a.sink.offset :: marked) bytes cells
      { a with sink := a.sink.marked index cells } := by
  have hknown := (h.named _ _ hrefers).1
  have hunmarked := h.unmarked hrefers hnew
  have hmark := Writer.mark?_marked hknown cells
  refine ⟨h.laid.marked hknown (h.fits hrefers), ?_, h.once, h.apart, ?_, ?_, h.slots, h.image⟩
  · intro name label hmem
    show label < (a.sink.labels.modify index _).size ∧ _
    rw [Array.size_modify]
    exact h.named name label hmem
  · intro label m hm
    rw [hmark] at hm
    by_cases hl : label = index
    · subst hl
      rw [Writer.withMark_self, Option.some.injEq] at hm
      subst hm
      exact ⟨hrefers, List.mem_cons_self⟩
    · rw [Writer.withMark_of_ne hl] at hm
      obtain ⟨hm, hmarked⟩ := h.refers label m hm
      exact ⟨hm, List.mem_cons_of_mem _ hmarked⟩
  · intro m hm
    rw [hmark]
    rcases List.mem_cons.mp hm with rfl | hm
    · exact ⟨index, Writer.withMark_self _ _ _⟩
    · obtain ⟨label, hmarked⟩ := h.marks m hm
      refine ⟨label, (Writer.withMark_of_ne ?_).trans hmarked⟩
      rintro rfl
      exact nomatch hunmarked.symm.trans hmarked

theorem define_ok (line : Nat) (h : Assembled starts marked bytes cells a)
    (hstart : a.sink.offset ∈ starts) (hnew : a.sink.offset ∉ marked) :
    ∃ a', define line (some (placeName a.sink.offset)) a = .ok () a' ∧
      Assembled starts (a.sink.offset :: marked) bytes cells a' ∧ a'.sink.offset = a.sink.offset := by
  obtain ⟨index, a₁, hlabel, ⟨h₁, hoffset, -⟩, hrefers⟩ := label_ok line h hstart
  rw [← hoffset] at hlabel hrefers hnew ⊢
  have hmark : Writer.mark index a₁.sink = .ok () (a₁.sink.marked index cells) :=
    (Writer.mark_ok h₁.laid).mpr
      ⟨(h₁.named _ _ hrefers).1, h₁.unmarked hrefers hnew, h₁.fits hrefers, rfl⟩
  have hstep : Sink.step (.markLabel index) a₁.sink = .ok none (a₁.sink.marked index cells) :=
    Writer.silent_ok.mpr ⟨rfl, hmark⟩
  refine ⟨_, ?_, h₁.withMark hrefers hnew, Writer.offset_marked h₁.laid⟩
  show (label line _ >>= fun index => discard (send line (.markLabel index))) a = _
  rw [Step.bind_of_ok hlabel]
  exact discard_of_ok (send_of_ok hstep line)

/-! ### Instructions -/

theorem send_ok (line : Nat) (h : Assembled starts marked bytes cells a) {i : Instruction} {c : Call}
    (hc : Stands a a.sink.offset i c) :
    ∃ cells' a', send line c a = .ok none a' ∧
      Assembled starts marked (bytes ++ i.bytes) cells' a' ∧
      a'.sink.offset = a.sink.offset + i.size := by
  obtain ⟨op, hop⟩ := hc.opcode
  have hallowed : ∀ f, .slot f ∈ Writer.added c a.sink → a.sink.Allowed f := by
    intro f hf
    obtain ⟨m, hm, hfits⟩ := hc.slots _ f hf
    refine ⟨(h.named _ _ hm).1, ?_⟩
    intro target htarget
    exact h.apart (h.refers _ target htarget).1 hm ▸ hfits
  have hstep := (Writer.step_instruction_ok (w := a.sink) hop).mpr ⟨rfl, hc.writable, hallowed, rfl⟩
  have hadvances := Writer.advances_of_step h.laid hstep
  have hmarked : c.marked? = none := by cases c <;> first | rfl | exact nomatch hop
  have hmark := hadvances.keeps hmarked
  refine ⟨_, _, send_of_ok hstep line, ⟨hadvances.laid, h.named, h.once, h.apart, ?_, ?_, ?_, ?_⟩, ?_⟩
  · rw [hmark]
    exact h.refers
  · rw [hmark]
    exact h.marks
  · intro f hf
    rcases List.mem_append.mp hf with hf | hf
    · exact h.slots f hf
    · exact hc.slots _ f hf
  · intro places hagrees
    rw [Writer.image_append, h.image places hagrees]
    exact congrArg (bytes ++ ·) (hc.image _ places hagrees)
  · obtain ⟨places, hagrees⟩ := h.exists_agrees
    have hlength := congrArg List.length (hc.image (c.tokenFrom a.sink.symbols).1 places hagrees)
    rw [Writer.length_image, Code.length_bytes_instruction] at hlength
    rw [← hlength]
    exact hadvances.offset

theorem int32?_toInt64 (v : Int32) : int32? v.toInt64 = some v := by
  have hlow := v.le_toInt
  have hhigh := v.toInt_lt
  rw [int32?, Int32.toInt_toInt64, if_pos (by omega), Int32.ofInt_toInt]

/-- The operand of a listing gives the call that stands for the instruction. -/
theorem callFor_ok (env : Environment) (line : Nat) (h : Assembled starts marked bytes cells a)
    {i : Instruction} (hi : Listed i)
    (hstarts : ∀ d ∈ i.distances, ∃ m ∈ starts, (m : Int) = (a.sink.offset + i.size : Nat) + d.toInt) :
    ∃ c a', callFor env line i.opcode (Code.written (a.sink.offset + i.size) i) a = .ok c a' ∧
      Names starts marked bytes cells a a' ∧ Stands a' a.sink.offset i c := by
  have hsame : Names starts marked bytes cells a a := ⟨h, rfl, id⟩
  cases hi with
  | @bare op hformed hkind =>
    refine ⟨.emit op .none, a, ?_, hsame, stands_emit hformed a _⟩
    show callFor env line op none a = _
    unfold callFor
    rw [hkind]
    rfl
  | @integer op v hformed hkind =>
    refine ⟨.emit op (.int32 v), a, ?_, hsame, stands_emit hformed a _⟩
    show callFor env line op
      (if op.operandKind.isBranchTarget then _ else some (.integer v.toInt64)) a = _
    rw [isBranchTarget_of_integer hkind, if_neg Bool.false_ne_true]
    unfold callFor
    rcases hkind with hkind | hkind | hkind | hkind <;>
    · rw [hkind]
      dsimp only
      rw [int32?_toInt64]
      rfl
  | @long op v hformed hkind =>
    refine ⟨.emit op (.int64 v), a, ?_, hsame, stands_emit hformed a _⟩
    show callFor env line op (some (.integer v)) a = _
    unfold callFor
    rw [hkind]
    rfl
  | @branch op b v hformed hcategory hone =>
    have htarget := Opcode.isBranchTarget_of_branch hcategory
    have hdistance : v ∈ (Instruction.plain op (.int32 v)).distances := by
      show v ∈ if op.operandKind.isBranchTarget then [v] else []
      rw [if_pos htarget]
      exact List.mem_cons_self
    obtain ⟨index, a', hlabel, hnames, hleads⟩ := target_ok line h (hstarts v hdistance)
    refine ⟨.branch op index, a', ?_, hnames, stands_branch hcategory hone hformed hleads⟩
    show callFor env line op (if op.operandKind.isBranchTarget then
      some (.name (placeName (_ + v.toInt))) else _) a = _
    rw [if_pos htarget]
    unfold callFor
    rw [Opcode.operandKind_of_branch hcategory hone]
    cases b.short <;> exact Step.bind_of_ok hlabel
  | @switch distances =>
    obtain ⟨indices, a', hlabels, hnames, hall⟩ := targets_ok line h hstarts
    exact ⟨.switch indices, a', Step.bind_of_ok hlabels, hnames, stands_switch hall⟩

/-! ### Lines -/

theorem oneLine_ok (env : Environment) (line : Nat) (h : Assembled starts marked bytes cells a)
    {i : Instruction} (hi : Listed i) (hstart : a.sink.offset ∈ starts) (hnew : a.sink.offset ∉ marked)
    (hstarts : ∀ d ∈ i.distances, ∃ m ∈ starts, (m : Int) = (a.sink.offset + i.size : Nat) + d.toInt) :
    ∃ cells' a', oneLine env line (Code.lineText a.sink.offset i) a = .ok () a' ∧
      Assembled starts (a.sink.offset :: marked) (bytes ++ i.bytes) cells' a' ∧
      a'.sink.offset = a.sink.offset + i.size := by
  obtain ⟨a₁, hdefine, h₁, hoffset₁⟩ := define_ok line h hstart hnew
  rw [← hoffset₁] at hstarts
  obtain ⟨c, a₂, hcall, hnames, hstands⟩ := callFor_ok env line h₁ hi hstarts
  rw [← hnames.offset] at hstands
  obtain ⟨cells', a₃, hsend, h₃, hoffset₃⟩ := send_ok line hnames.assembled hstands
  refine ⟨cells', a₃, ?_, h₃, by rw [hoffset₃, hnames.offset, hoffset₁]⟩
  unfold oneLine
  rw [Code.parse_lineText hi]
  show (define line (some (placeName a.sink.offset)) >>= fun _ => statement env line
    (.instruction i.opcode.mnemonic (Code.written (a.sink.offset + i.size) i))) a = _
  rw [Step.bind_of_ok hdefine, statement, Opcode.ofMnemonic?_mnemonic]
  show (callFor env line i.opcode (Code.written (a.sink.offset + i.size) i) >>= fun c =>
    discard (send line c)) a₁ = _
  rw [← hoffset₁, Step.bind_of_ok hcall]
  exact discard_of_ok hsend

/-- **Lines of a listing assemble to the bytes of its instructions.** -/
theorem allLines_ok (env : Environment) (line : Nat) {is : List Instruction}
    (h : Assembled starts marked bytes cells a) (hlisted : ∀ i ∈ is, Listed i)
    (hmarked : ∀ m ∈ marked, m < a.sink.offset)
    (hstarts : ∀ item ∈ Code.placed a.sink.offset is, item.offset ∈ starts ∧
      ∀ i, item.result = .ok i → ∀ d ∈ i.distances,
        ∃ m ∈ starts, (m : Int) = (item.offset + i.size : Nat) + d.toInt)
    (hall : ∀ m ∈ starts, m ∈ marked ∨ ∃ item ∈ Code.placed a.sink.offset is, item.offset = m) :
    ∃ a', allLines env line (Code.lineTexts a.sink.offset is) a = .ok () a' ∧
      a'.sink.bytes = bytes ++ is.flatMap Instruction.bytes := by
  induction is generalizing line a marked bytes cells with
  | nil =>
    have hcomplete : ∀ m ∈ starts, m ∈ marked := by
      intro m hm
      rcases hall m hm with hm | ⟨item, hitem, -⟩
      · exact hm
      · exact absurd hitem List.not_mem_nil
    obtain ⟨hfixups, hbytes⟩ := h.complete hcomplete
    have hstep : Sink.step .finish a.sink = .ok none a.sink :=
      Writer.silent_ok.mpr ⟨rfl, Writer.finish_ok.mpr ⟨hfixups, rfl⟩⟩
    exact ⟨a, discard_of_ok (send_of_ok hstep line), by rw [hbytes]; exact (List.append_nil _).symm⟩
  | cons i rest ih =>
    obtain ⟨⟨hstart, hdistances⟩, hrest⟩ := List.forall_mem_cons.mp hstarts
    have hpos := Code.size_pos i
    obtain ⟨cells₁, a₁, hline, h₁, hoffset⟩ := oneLine_ok env line h
      (hlisted i List.mem_cons_self) hstart (fun hmem => Nat.lt_irrefl _ (hmarked _ hmem))
      (hdistances i rfl)
    have hmarked₁ : ∀ m ∈ a.sink.offset :: marked, m < a₁.sink.offset := by
      rw [List.forall_mem_cons, hoffset]
      refine ⟨by omega, fun m hm => ?_⟩
      have := hmarked m hm
      omega
    have hall₁ : ∀ m ∈ starts, m ∈ a.sink.offset :: marked ∨
        ∃ item ∈ Code.placed (a.sink.offset + i.size) rest, item.offset = m := by
      intro m hm
      rcases hall m hm with hm | ⟨item, hitem, rfl⟩
      · exact .inl (List.mem_cons_of_mem _ hm)
      · rcases List.mem_cons.mp hitem with rfl | hitem
        · exact .inl List.mem_cons_self
        · exact .inr ⟨item, hitem, rfl⟩
    rw [← hoffset] at hrest hall₁
    obtain ⟨a₂, hlines, hbytes⟩ := ih (line + 1) h₁
      (fun j hj => hlisted j (List.mem_cons_of_mem i hj)) hmarked₁ hrest hall₁
    refine ⟨a₂, ?_, by rw [hbytes, List.flatMap_cons, List.append_assoc]⟩
    rw [Code.lineTexts, allLines, Step.bind_of_ok hline, ← hoffset]
    exact hlines

end Assembler

/-- **A listing assembles to the code it was made from**, if the code can be read, has no tokens and no
floats in it, and its branches lead to instructions. -/
theorem assemble_listing {π : Type} [TokenProvider π] (env : Environment) (p : π) (bytes : List UInt8)
    (h : ∀ item ∈ Code.items bytes, ∃ i, item.result = .ok i ∧
      i.opcode.operandKind.isToken = false ∧ i.opcode ≠ .ldcR4 ∧ i.opcode ≠ .ldcR8 ∧
      ∀ d ∈ i.distances, ∃ target ∈ Code.items bytes,
        (target.offset : Int) = (item.offset + i.size : Nat) + d.toInt) :
    ∃ text w, Code.listing bytes = .ok text ∧
      assemble env text ({ symbols := p } : Writer π) = (.ok (), w) ∧ w.bytes = bytes := by
  have hok : ∀ item ∈ Code.items bytes, item.result.isOk = true := by
    intro item hitem
    obtain ⟨i, hi, -⟩ := h item hitem
    rw [hi]
    rfl
  obtain ⟨is, hitems, hflat, hformed⟩ := Code.exists_of_items_ok bytes 0 hok
  have hitems : Code.items bytes = Code.placed 0 is := hitems
  rw [hitems] at h
  have hlisted : ∀ i ∈ is, Listed i := by
    intro i hi
    obtain ⟨item, hitem, hresult⟩ := Code.exists_mem_placed 0 hi
    obtain ⟨j, hj, htoken, hsingle, hdouble, -⟩ := h item hitem
    obtain rfl : i = j := Except.ok.inj (hresult.symm.trans hj)
    exact listed_of_wellFormed (hformed i hi).1 htoken hsingle hdouble
  obtain ⟨text, hlisting, hlines⟩ := Code.exists_listing hitems hlisted
  have hstarts : ∀ item ∈ Code.placed 0 is, item.offset ∈ (Code.placed 0 is).map Reader.Item.offset ∧
      ∀ i, item.result = .ok i → ∀ d ∈ i.distances,
        ∃ m ∈ (Code.placed 0 is).map Reader.Item.offset,
          (m : Int) = (item.offset + i.size : Nat) + d.toInt := by
    intro item hitem
    refine ⟨List.mem_map_of_mem hitem, ?_⟩
    intro i hi d hd
    obtain ⟨j, hj, -, -, -, htargets⟩ := h item hitem
    obtain rfl : i = j := Except.ok.inj (hi.symm.trans hj)
    obtain ⟨target, htarget, hplace⟩ := htargets d hd
    exact ⟨target.offset, List.mem_map_of_mem htarget, hplace⟩
  obtain ⟨a, hlast, hcode⟩ := Assembler.allLines_ok env 1
    (Assembler.assembled_fresh ((Code.placed 0 is).map Reader.Item.offset) p) hlisted
    (fun m hm => absurd hm List.not_mem_nil) hstarts
    (fun m hm => .inr (List.mem_map.mp hm))
  have hlast : Assembler.allLines env 1 (Code.lineTexts 0 is) { sink := ({ symbols := p } : Writer π) }
      = .ok () a := hlast
  refine ⟨text, a.sink, hlisting, ?_, by rw [hcode, hflat]; rfl⟩
  rw [assemble, hlines, hlast]

/-- A loop with a jump table, left by a branch and by the table. -/
def tableLoop : List Instruction :=
  [.plain .ldcI4S (.int32 (-3)), .plain .brtrueS (.int32 20), .plain .ldcI4 (.int32 2),
    .switch [2, -22], .plain .brS (.int32 (-24)), .plain .ret .none]

def tableLoopBytes : List UInt8 :=
  [0x1F, 0xFD, 0x2D, 20, 0x20, 2, 0, 0, 0, 0x45, 2, 0, 0, 0, 2, 0, 0, 0, 0xEA, 0xFF, 0xFF, 0xFF,
    0x2B, 0xE8, 0x2A]

theorem assemble_listing_tableLoop : ∃ text w, Code.listing tableLoopBytes = .ok text ∧
    assemble .initial text ({ symbols := {} } : Writer) = (.ok (), w) ∧ w.bytes = tableLoopBytes := by
  have hbytes : tableLoopBytes = tableLoop.flatMap Instruction.bytes := by decide +kernel
  have hformed : ∀ i ∈ tableLoop, i.isWellFormed = true ∧ i.TableFits := by
    simp only [tableLoop, List.forall_mem_cons]
    have htable : (Instruction.switch [2, -22]).TableFits := by simp [Instruction.TableFits]
    exact ⟨⟨by decide, trivial⟩, ⟨by decide, trivial⟩, ⟨by decide, trivial⟩, ⟨rfl, htable⟩,
      ⟨by decide, trivial⟩, ⟨by decide, trivial⟩, fun _ hi => absurd hi List.not_mem_nil⟩
  have hitems : Code.items tableLoopBytes = Code.placed 0 tableLoop := by
    rw [hbytes]
    exact Code.items_flatMap_bytes hformed 0
  refine assemble_listing .initial ({} : SymbolTable) tableLoopBytes ?_
  rw [hitems]
  intro item hitem
  simp only [tableLoop, Code.placed, List.mem_cons, List.not_mem_nil, or_false] at hitem
  rcases hitem with rfl | rfl | rfl | rfl | rfl | rfl
  all_goals
    exact ⟨_, rfl, rfl, by decide, by decide, List.all_iff_forall_prop.mp (by decide +kernel)⟩

end Cil
