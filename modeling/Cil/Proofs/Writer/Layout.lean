/-
What each call adds to the code.

Every instruction becomes a few cells, known from the call, the token it was given and the offset it
starts at (`Call.cells`).  A writer accepts the call just if the instruction can be written and every
place in it is `Allowed`, and then it has these cells more and is otherwise as before
(`step_instruction_ok`).
-/
import Cil.Proofs.Code.Encoding
import Cil.Proofs.Writer.Cells

namespace Cil

namespace Writer

variable {π : Type} {w w' : Writer π}

/-- The writer with some bytes more. -/
def padded (w : Writer π) (bytes : List UInt8) : Writer π :=
  { w with code := w.code.appendList bytes }

/-- The writer with some cells more. -/
def extended (w : Writer π) (cells : List Cell) : Writer π :=
  { w with code := w.code.appendList (image w.mark? cells),
           fixups := w.fixups ++ cells.filterMap (Cell.waiting w.mark?) }

/-- May the offset be written?  Its label has to be known, and the distance has to fit if the label is
marked. -/
def Allowed (w : Writer π) (f : Fixup) : Prop :=
  f.label < w.labels.size ∧
    ∀ target, w.mark? f.label = some target → f.fits ((target : Int) - f.origin) = true

@[simp] theorem padded_nil (w : Writer π) : w.padded [] = w := by
  simp [padded]

theorem padded_padded (w : Writer π) (bytes bytes' : List UInt8) :
    (w.padded bytes).padded bytes' = w.padded (bytes ++ bytes') := by
  unfold padded
  congr 1
  apply Array.toList_inj.mp
  simp

theorem offset_padded (w : Writer π) (bytes : List UInt8) :
    (w.padded bytes).offset = w.offset + bytes.length := by
  have hcode : (w.padded bytes).code.toList = w.code.toList ++ bytes := by simp [padded]
  unfold offset
  rw [← Array.length_toList, hcode, List.length_append, Array.length_toList]

theorem extended_fixed (w : Writer π) (bytes : List UInt8) :
    w.extended [.fixed bytes] = w.padded bytes := by
  simp [extended, padded, image, Cell.bytes, Cell.waiting]

theorem toList_code_extended (w : Writer π) (cells : List Cell) :
    (w.extended cells).code.toList = w.code.toList ++ image w.mark? cells := by
  simp [extended]

theorem offset_extended (w : Writer π) (cells : List Cell) :
    (w.extended cells).offset = w.offset + extent cells := by
  unfold offset
  rw [← Array.length_toList, toList_code_extended, List.length_append, Array.length_toList,
    length_image]

/-! ### References -/

theorem refer_ok {f : Fixup} {u : Unit} :
    refer f w = .ok u w' ↔ w.Allowed f ∧
      (match w.mark? f.label with
        | some target =>
          { w with code := overwrite w.code f.position (f.bytes ((target : Int) - f.origin)) }
        | none => { w with fixups := w.fixups ++ [f] }) = w' := by
  unfold refer Allowed
  cases hlabel : w.labels[f.label]? with
  | none =>
    have hsize := Array.getElem?_eq_none_iff.mp hlabel
    simp [Nat.not_lt.mpr hsize]
  | some slot =>
    have hsize := (Array.getElem?_eq_some_iff.mp hlabel).1
    have hmark : w.mark? f.label = slot.offset := by simp [mark?, hlabel]
    cases hoffset : slot.offset with
    | none => simp [hmark, hoffset, hsize]
    | some target => simp [hmark, hoffset, hsize, patch_ok]

/-- Referring to a label from a place that was written as zeros just before. -/
theorem refer_padded_ok {f : Fixup} {cells : List Cell} {tail : List UInt8} {u : Unit}
    (hposition : f.position = w.offset + extent cells) :
    refer f ((w.extended cells).padded (List.replicate f.width 0 ++ tail)) = .ok u w' ↔
      w.Allowed f ∧ (w.extended (cells ++ [.slot f])).padded tail = w' := by
  rw [refer_ok]
  refine and_congr Iff.rfl (Eq.congr_left ?_)
  have hcode : ((w.extended cells).padded (List.replicate f.width 0 ++ tail)).code.toList
      = (w.code.toList ++ image w.mark? cells) ++ (List.replicate f.width 0 ++ tail) := by
    simp [padded, toList_code_extended]
  have hfront : (w.code.toList ++ image w.mark? cells).length = f.position := by
    simp [hposition, offset]
  have hmark? : ((w.extended cells).padded (List.replicate f.width 0 ++ tail)).mark? = w.mark? := rfl
  rw [hmark?]
  cases hmark : w.mark? f.label with
  | some target =>
    have hpatched := toList_overwrite (f.bytes ((target : Int) - f.origin)) hcode hfront (by simp)
    simp only [padded, extended, mk.injEq, and_true, true_and]
    constructor
    · apply Array.toList_inj.mp
      refine hpatched.trans ?_
      simp [image, Cell.bytes_of_some hmark]
    · simp [Cell.waiting_of_some hmark]
  | none =>
    simp only [padded, extended, mk.injEq, and_true, true_and]
    constructor
    · apply Array.toList_inj.mp
      simp [image, Cell.bytes_of_none hmark]
    · simp [Cell.waiting_of_none hmark]

/-- The place of an entry of a jump table. -/
def tablePlace (origin position target : Nat) : Fixup where
  label := target
  op := .switch
  position := position
  origin := origin
  short := false

/-- The places of a jump table, the first of which stands at `position`. -/
def tableCells (origin : Nat) : Nat → List Nat → List Cell
  | _, [] => []
  | position, target :: rest =>
    .slot (tablePlace origin position target) :: tableCells origin (position + 4) rest

theorem label_mem_of_tableCells {origin position : Nat} {targets : List Nat} {f : Fixup}
    (h : .slot f ∈ tableCells origin position targets) : f.label ∈ targets := by
  induction targets generalizing position with
  | nil => exact absurd h List.not_mem_nil
  | cons target rest ih =>
    rcases List.mem_cons.mp h with hfirst | hrest
    · cases hfirst
      exact List.mem_cons_self
    · exact List.mem_cons_of_mem target (ih hrest)

theorem placed_tableCells (origin position : Nat) (targets : List Nat) :
    Placed position (tableCells origin position targets) := by
  induction targets generalizing position with
  | nil => trivial
  | cons target rest ih => exact ⟨rfl, ih (position + 4)⟩

theorem extent_tableCells (origin position : Nat) (targets : List Nat) :
    extent (tableCells origin position targets) = 4 * targets.length := by
  induction targets generalizing position with
  | nil => rfl
  | cons target rest ih =>
    show 4 + extent (tableCells origin (position + 4) rest) = 4 * (rest.length + 1)
    rw [ih]
    omega

/-- The zeros of a jump table, with those of its first place set apart. -/
theorem zeros_cons (target : Nat) (rest : List Nat) :
    List.replicate (4 * (target :: rest).length) (0 : UInt8)
      = List.replicate 4 0 ++ List.replicate (4 * rest.length) 0 := by
  rw [List.replicate_append_replicate, List.length_cons, Nat.mul_add, Nat.add_comm]

theorem next_place (origin target : Nat) {position : Nat} {cells : List Cell}
    (h : position = w.offset + extent cells) :
    position + 4 = w.offset + extent (cells ++ [.slot (tablePlace origin position target)]) := by
  rw [extent_append, h, Nat.add_assoc]
  rfl

theorem referTable_ok {origin position : Nat} {targets : List Nat} {cells : List Cell} {u : Unit}
    (hposition : position = w.offset + extent cells) :
    referTable origin position targets
        ((w.extended cells).padded (List.replicate (4 * targets.length) 0)) = .ok u w' ↔
      (∀ f, .slot f ∈ tableCells origin position targets → w.Allowed f) ∧
      w.extended (cells ++ tableCells origin position targets) = w' := by
  induction targets generalizing position cells with
  | nil =>
    rw [referTable, Step.pure_ok]
    simp [tableCells]
  | cons target rest ih =>
    have hnext := next_place origin target hposition
    rw [referTable, Step.bind_ok, zeros_cons]
    constructor
    · rintro ⟨⟨⟩, w₁, hrefer, hrest⟩
      obtain ⟨hallowed, rfl⟩ := (refer_padded_ok hposition).mp hrefer
      obtain ⟨hall, rfl⟩ := (ih hnext).mp hrest
      refine ⟨?_, by rw [List.append_assoc]; rfl⟩
      intro f hf
      rcases List.mem_cons.mp hf with hf | hf
      · cases hf
        exact hallowed
      · exact hall f hf
    · rintro ⟨hall, rfl⟩
      refine ⟨(), _, (refer_padded_ok hposition).mpr ⟨hall _ List.mem_cons_self, rfl⟩,
        (ih hnext).mpr ⟨fun f hf => hall f (List.mem_cons_of_mem _ hf), ?_⟩⟩
      rw [List.append_assoc]
      rfl

/-- A writer refuses an instruction before it has written any of it. -/
theorem write_of_not_wellFormed {i : Instruction} (h : i.isWellFormed = false) (w : Writer π) :
    write i w = .error (.write i.misfit) w := by
  simp [write, Instruction.encodeInto_of_not_wellFormed h]

theorem write_ok {i : Instruction} {u : Unit} :
    write i w = .ok u w' ↔ i.isWellFormed = true ∧ w.padded i.bytes = w' := by
  by_cases h : i.isWellFormed = true
  · simp [write, Instruction.encodeInto_of_wellFormed h, h, padded]
  · have hnot : i.isWellFormed = false := by simpa using h
    simp [write_of_not_wellFormed hnot, hnot]

/-- The place in a branch that starts at the given offset. -/
def branchPlace (op : Opcode) (target start : Nat) : Fixup where
  label := target
  op := op
  position := start + op.size
  origin := start + op.size + op.operandKind.size?.getD 0
  short := op.operandKind = .shortTarget

section

variable {op : Opcode} {b : Branch} (hcategory : op.category = .branch b) (hone : b.kind ≠ .table)
  (target start : Nat)

include hcategory hone

theorem width_branchPlace : (branchPlace op target start).width = op.operandKind.size?.getD 0 := by
  unfold branchPlace Fixup.width
  rw [Opcode.operandKind_of_branch hcategory hone]
  cases b.short <;> rfl

theorem short_branchPlace : (branchPlace op target start).short = b.short := by
  unfold branchPlace
  rw [Opcode.operandKind_of_branch hcategory hone]
  cases b.short <;> rfl

/-- A distance fits its place just if it can be the operand of the branch. -/
theorem fits_branchPlace (distance : Int32) :
    (branchPlace op target start).fits distance.toInt
      = (Instruction.plain op (.int32 distance)).isWellFormed := by
  have hlow := distance.le_toInt
  have hhigh := distance.toInt_lt
  show _ = (op.operandKind != .table && (Operand.int32 distance).fits op.operandKind)
  unfold Fixup.fits Fixup.limit
  rw [short_branchPlace hcategory hone, Opcode.operandKind_of_branch hcategory hone]
  apply Bool.eq_iff_iff.mpr
  cases b.short with
  | true =>
    show _ ↔ Operand.within (-128) 127 distance = true
    rw [Operand.within_iff, Bool.and_eq_true, decide_eq_true_iff, decide_eq_true_iff]
    show -128 ≤ distance.toInt ∧ distance.toInt < 128 ↔ _
    omega
  | false =>
    show _ ↔ true = true
    simp only [Bool.and_eq_true, decide_eq_true_eq, iff_true]
    show -2147483648 ≤ distance.toInt ∧ distance.toInt < 2147483648
    omega

theorem isWellFormed_branch_zero : (Instruction.plain op (.int32 0)).isWellFormed = true := by
  rw [← fits_branchPlace hcategory hone 0 0]
  unfold Fixup.fits Fixup.limit
  cases (branchPlace op 0 0).short <;> rfl

end

theorem littleEndian_zero (n : Nat) : Code.littleEndian n 0 = List.replicate n 0 := by
  induction n with
  | zero => rfl
  | succ n ih =>
    rw [Code.littleEndian, Nat.zero_div, ih]
    rfl

/-- A branch with a zero offset: its opcode and the place of the offset. -/
theorem padded_branch {op : Opcode} {b : Branch} (hcategory : op.category = .branch b)
    (hone : b.kind ≠ .table) (target : Nat) (w : Writer π) :
    w.padded (Instruction.plain op (.int32 0)).bytes = (w.extended [.fixed op.bytes]).padded
      (List.replicate (branchPlace op target w.offset).width 0 ++ []) := by
  have hbits : (Operand.int32 0).bits = 0 := rfl
  rw [extended_fixed, width_branchPlace hcategory hone, List.append_nil, Instruction.bytes, hbits,
    littleEndian_zero, padded_padded]

/-- The place in a branch, counted back from the end of what was written. -/
theorem branchPlace_of_padded {op : Opcode} {b : Branch} (hcategory : op.category = .branch b)
    (hone : b.kind ≠ .table) (target : Nat) (w : Writer π) :
    ({ label := target, op := op, short := b.short
       origin := (w.padded (Instruction.plain op (.int32 0)).bytes).offset
       position := (w.padded (Instruction.plain op (.int32 0)).bytes).offset -
         if b.short then 1 else 4 } : Fixup) = branchPlace op target w.offset := by
  have hkind := Opcode.operandKind_of_branch hcategory hone
  rw [offset_padded, Instruction.bytes, List.length_append, Opcode.length_bytes,
    Code.length_littleEndian, ← short_branchPlace hcategory hone target w.offset]
  unfold branchPlace
  rw [hkind]
  cases b.short <;> simp [OperandKind.size?] <;> omega

theorem branch_ok {op : Opcode} {target : Nat} {u : Unit} :
    branch op target w = .ok u w' ↔ (∃ b, op.category = .branch b ∧ b.kind ≠ .table) ∧
      w.Allowed (branchPlace op target w.offset) ∧
      w.extended [.fixed op.bytes, .slot (branchPlace op target w.offset)] = w' := by
  have hrefused : ∀ {e : WriteError}, (refuse e : Step (Writer π) Unit) w = .ok u w' ↔ False :=
    Step.throw_ok
  unfold branch
  cases hcategory : op.category with
  | branch b =>
    dsimp only
    by_cases htable : b.kind = .table
    · rw [if_pos htable, hrefused]
      simp [htable]
    · have hpadded := padded_branch hcategory htable target w
      have hformed := isWellFormed_branch_zero hcategory htable
      have hposition : (branchPlace op target w.offset).position
          = w.offset + extent [.fixed op.bytes] := by
        simp [branchPlace, extent, Cell.length]
      have hexists : ∃ b', Category.branch b = .branch b' ∧ b'.kind ≠ .table := ⟨b, rfl, htable⟩
      have hplace := branchPlace_of_padded hcategory htable target w
      rw [if_neg htable, and_iff_right hexists, Step.bind_ok]
      constructor
      · rintro ⟨⟨⟩, w₁, hwrite, hrefer⟩
        obtain ⟨-, rfl⟩ := write_ok.mp hwrite
        rw [Step.get_bind, hplace, hpadded] at hrefer
        obtain ⟨hallowed, hw'⟩ := (refer_padded_ok hposition).mp hrefer
        rw [padded_nil] at hw'
        exact ⟨hallowed, hw'⟩
      · rintro ⟨hallowed, hw'⟩
        refine ⟨(), _, write_ok.mpr ⟨hformed, rfl⟩, ?_⟩
        rw [Step.get_bind, hplace, hpadded]
        refine (refer_padded_ok hposition).mpr ⟨hallowed, ?_⟩
        rw [padded_nil]
        exact hw'
  | _ =>
    rw [hrefused]
    simp

/-- The opcode and the count of a jump table. -/
def tableHead (targets : List Nat) : List UInt8 :=
  Opcode.switch.bytes ++ Code.littleEndian 4 targets.length

/-- The cells of a jump table that starts at the given offset. -/
def switchCells (targets : List Nat) (start : Nat) : List Cell :=
  .fixed (tableHead targets) :: tableCells (start + 5 + 4 * targets.length) (start + 5) targets

theorem length_tableHead (targets : List Nat) : (tableHead targets).length = 5 := by
  rw [tableHead, List.length_append, Code.length_littleEndian]
  rfl

theorem bytes_switch_zeros (targets : List Nat) :
    (Instruction.switch (targets.map fun _ => 0)).bytes
      = tableHead targets ++ List.replicate (4 * targets.length) 0 := by
  have hzeros : (targets.map fun _ => (0 : Int32)).flatMap offsetBytes
      = List.replicate (4 * targets.length) 0 := by
    induction targets with
    | nil => rfl
    | cons target rest ih =>
      have hzero : offsetBytes 0 = List.replicate 4 0 := rfl
      rw [List.map_cons, List.flatMap_cons, ih, hzero, List.replicate_append_replicate,
        List.length_cons, Nat.mul_add, Nat.add_comm]
  rw [Instruction.bytes, hzeros, List.length_map, tableHead]

theorem offset_padded_switch (targets : List Nat) (w : Writer π) :
    (w.padded (Instruction.switch (targets.map fun _ => 0)).bytes).offset
      = w.offset + 5 + 4 * targets.length := by
  rw [offset_padded, bytes_switch_zeros, List.length_append, length_tableHead,
    List.length_replicate, Nat.add_assoc]

theorem switch_ok {targets : List Nat} {u : Unit} :
    switch targets w = .ok u w' ↔
      (∀ f, .slot f ∈ switchCells targets w.offset → w.Allowed f) ∧
      w.extended (switchCells targets w.offset) = w' := by
  have hposition : w.offset + 5 = w.offset + extent [.fixed (tableHead targets)] := by
    show _ = w.offset + ((tableHead targets).length + 0)
    rw [length_tableHead]
  have hpadded : w.padded (Instruction.switch (targets.map fun _ => 0)).bytes
      = (w.extended [.fixed (tableHead targets)]).padded
          (List.replicate (4 * targets.length) 0) := by
    rw [extended_fixed, padded_padded, bytes_switch_zeros]
  have hslots : (∀ f, .slot f ∈ switchCells targets w.offset → w.Allowed f) ↔
      ∀ f, .slot f ∈ tableCells (w.offset + 5 + 4 * targets.length) (w.offset + 5) targets →
        w.Allowed f := by
    simp [switchCells]
  unfold switch
  rw [Step.bind_ok, hslots]
  constructor
  · rintro ⟨⟨⟩, w₁, hwrite, hrefer⟩
    obtain ⟨-, rfl⟩ := write_ok.mp hwrite
    rw [Step.get_bind, offset_padded_switch, hpadded, Nat.add_sub_cancel] at hrefer
    exact (referTable_ok hposition).mp hrefer
  · intro h
    refine ⟨(), _, write_ok.mpr ⟨rfl, rfl⟩, ?_⟩
    rw [Step.get_bind, offset_padded_switch, hpadded, Nat.add_sub_cancel]
    exact (referTable_ok hposition).mpr h

/-! ### Distances put in place -/

/-- The label has a place at the given distance. -/
def Reaches (places : Nat → Option Nat) (origin label : Nat) (distance : Int32) : Prop :=
  ∃ m, places label = some m ∧ (m : Int) - origin = distance.toInt

theorem Reaches.bytes {places : Nat → Option Nat} {f : Fixup} {distance : Int32}
    (h : Reaches places f.origin f.label distance) :
    (Cell.slot f).bytes places = Code.littleEndian f.width (Operand.int32 distance).bits := by
  obtain ⟨m, hm, hdistance⟩ := h
  rw [Cell.bytes_of_some hm, hdistance, Fixup.bytes, Int32.ofInt_toInt]

/-- A branch whose label has a place. -/
theorem image_branch {places : Nat → Option Nat} {op : Opcode} {b : Branch}
    (hcategory : op.category = .branch b) (hone : b.kind ≠ .table) {target start : Nat}
    {distance : Int32}
    (h : Reaches places (start + (Instruction.plain op (.int32 distance)).size) target distance) :
    image places [.fixed op.bytes, .slot (branchPlace op target start)]
      = (Instruction.plain op (.int32 distance)).bytes := by
  rw [Instruction.size, ← Nat.add_assoc] at h
  have hbytes := Reaches.bytes (f := branchPlace op target start) h
  show op.bytes ++ ((Cell.slot (branchPlace op target start)).bytes places ++ []) = _
  rw [hbytes, width_branchPlace hcategory hone, List.append_nil, Instruction.bytes]

theorem image_tableCells {places : Nat → Option Nat} {origin : Nat} {targets : List Nat}
    {distances : List Int32} (h : List.Forall₂ (Reaches places origin) targets distances)
    (position : Nat) :
    image places (tableCells origin position targets) = distances.flatMap offsetBytes := by
  induction h generalizing position with
  | nil => rfl
  | @cons target distance targets distances hreaches _ ih =>
    have hbytes := Reaches.bytes (f := tablePlace origin position target) hreaches
    rw [List.flatMap_cons, ← ih (position + 4)]
    exact congrArg (· ++ image places (tableCells origin (position + 4) targets)) hbytes

/-- A jump table whose labels have places. -/
theorem image_switch {places : Nat → Option Nat} {targets : List Nat} {start : Nat}
    {distances : List Int32}
    (h : List.Forall₂ (Reaches places (start + (Instruction.switch distances).size)) targets distances) :
    image places (switchCells targets start) = (Instruction.switch distances).bytes := by
  have hlength := h.length_eq
  rw [Instruction.size, ← hlength, ← Nat.add_assoc] at h
  show tableHead targets ++ image places (tableCells _ _ targets) = _
  rw [image_tableCells h (start + 5), tableHead, Instruction.bytes, hlength]

/-- An entry of a jump table has room for every distance. -/
theorem fits_tablePlace (origin position target : Nat) (distance : Int32) :
    (tablePlace origin position target).fits distance.toInt = true := by
  have hlow := distance.le_toInt
  have hhigh := distance.toInt_lt
  simp only [Fixup.fits, Bool.and_eq_true, decide_eq_true_eq]
  show -2147483648 ≤ distance.toInt ∧ distance.toInt < 2147483648
  omega

/-! ### Tokens -/

theorem isWellFormed_token (op : Opcode) (t : Token) :
    (Instruction.plain op (.token t)).isWellFormed = op.operandKind.isToken := by
  show (op.operandKind != .table && (Operand.token t).fits op.operandKind) = _
  cases op.operandKind <;> rfl

theorem writeToken_ok {op : Opcode} {request : π → Token × π} {u : Unit} :
    writeToken op request w = .ok u w' ↔ op.operandKind.isToken = true ∧
      { w.extended [.fixed (Instruction.plain op (.token (request w.symbols).1)).bytes] with
        symbols := (request w.symbols).2 } = w' := by
  have hask : ask request w
      = .ok (request w.symbols).1 { w with symbols := (request w.symbols).2 } := rfl
  unfold writeToken
  rw [Step.bind_ok, extended_fixed]
  constructor
  · rintro ⟨token, w₁, hasked, hwrite⟩
    rw [hask] at hasked
    cases hasked
    rw [write_ok, isWellFormed_token] at hwrite
    exact hwrite
  · intro h
    refine ⟨_, _, hask, ?_⟩
    rw [write_ok, isWellFormed_token]
    exact h

end Writer

/-! ### Calls -/

/-- What a call with a symbolic operand asks the provider for. -/
def Call.request? {π : Type} [TokenProvider π] : Call → Option (π → Token × π)
  | .invoke op m => some (Writer.calledToken op m)
  | .field _ f => some (TokenProvider.fieldToken f)
  | .type _ t => some (TokenProvider.typeToken t)
  | .token _ m => some (TokenProvider.memberToken m)
  | .string _ value => some (TokenProvider.stringToken value)
  | _ => none

/-- The token that the provider returns for a call, if it is asked for one, and the provider after
that. -/
def Call.tokenFrom {π : Type} [TokenProvider π] (c : Call) (p : π) : Option Token × π :=
  match (c.request? : Option (π → Token × π)) with
  | some request => (some (request p).1, (request p).2)
  | none => (none, p)

/-- The cells of the instruction that a call emits at the given offset. -/
def Call.cells (token : Option Token) (start : Nat) : Call → List Writer.Cell
  | .emit op x => [.fixed (Instruction.plain op x).bytes]
  | .branch op target => [.fixed op.bytes, .slot (Writer.branchPlace op target start)]
  | .switch targets => Writer.switchCells targets start
  | .invoke op _ | .field op _ | .type op _ | .token op _ | .string op _ =>
    [.fixed (Instruction.plain op (.token (token.getD default))).bytes]
  | _ => []

/-- Can the call's instruction be written, labels apart? -/
def Call.Writable : Call → Prop
  | .emit op x => (Instruction.plain op x).isWellFormed = true
  | .branch op _ => ∃ b, op.category = .branch b ∧ b.kind ≠ .table
  | .invoke op _ | .field op _ | .type op _ | .token op _ | .string op _ =>
    op.operandKind.isToken = true
  | _ => True

namespace Writer

variable {π : Type} {w w' : Writer π} {reply : Option Nat}

theorem silent_ok {m : Step (Writer π) Unit} :
    (do m; return none : Step (Writer π) (Option Nat)) w = .ok reply w' ↔
      none = reply ∧ m w = .ok () w' := by
  rw [Step.bind_ok]
  constructor
  · rintro ⟨⟨⟩, w₁, hm, hreturn⟩
    obtain ⟨hreply, rfl⟩ := Step.pure_ok.mp hreturn
    exact ⟨hreply, hm⟩
  · rintro ⟨hreply, hm⟩
    exact ⟨(), w', hm, Step.pure_ok.mpr ⟨hreply, rfl⟩⟩

theorem allowed_fixed (w : Writer π) (bytes : List UInt8) :
    ∀ f, .slot f ∈ [Cell.fixed bytes] → w.Allowed f := by
  simp

theorem step_request_ok {op : Opcode} {request : π → Token × π} {token : Token}
    (htoken : (request w.symbols).1 = token) :
    (do writeToken op request; return none : Step (Writer π) (Option Nat)) w = .ok reply w' ↔
      none = reply ∧ op.operandKind.isToken = true ∧
      (∀ f, .slot f ∈ [Cell.fixed (Instruction.plain op (.token token)).bytes] → w.Allowed f) ∧
      { w.extended [.fixed (Instruction.plain op (.token token)).bytes] with
        symbols := (request w.symbols).2 } = w' := by
  rw [silent_ok, writeToken_ok, htoken, and_iff_right (allowed_fixed w _)]

/-- Every instruction is taken up in the same way: it can be written, its places are allowed, and the
writer has its cells more. -/
theorem step_instruction_ok [TokenProvider π] {c : Call} {op : Opcode} (hop : c.opcode? = some op) :
    Sink.step c w = .ok reply w' ↔ none = reply ∧ c.Writable ∧
      (∀ f, .slot f ∈ c.cells (c.tokenFrom w.symbols).1 w.offset → w.Allowed f) ∧
      { w.extended (c.cells (c.tokenFrom w.symbols).1 w.offset) with
        symbols := (c.tokenFrom w.symbols).2 } = w' := by
  cases c with
  | emit op x =>
    show (do write (.plain op x); return none : Step _ _) w = _ ↔ none = reply ∧
      (Instruction.plain op x).isWellFormed = true ∧
        (∀ f, .slot f ∈ [Cell.fixed (Instruction.plain op x).bytes] → w.Allowed f) ∧
          w.extended [.fixed (Instruction.plain op x).bytes] = w'
    rw [silent_ok, write_ok, extended_fixed, and_iff_right (allowed_fixed w _)]
  | branch op target =>
    show (do branch op target; return none : Step _ _) w = _ ↔ none = reply ∧
      (∃ b, op.category = .branch b ∧ b.kind ≠ .table) ∧
        (∀ f, .slot f ∈ [Cell.fixed op.bytes, .slot (branchPlace op target w.offset)] →
          w.Allowed f) ∧
          w.extended [.fixed op.bytes, .slot (branchPlace op target w.offset)] = w'
    have hplace : (∀ f, .slot f ∈ [Cell.fixed op.bytes, .slot (branchPlace op target w.offset)] →
        w.Allowed f) ↔ w.Allowed (branchPlace op target w.offset) := by
      simp
    rw [silent_ok, branch_ok, hplace]
  | switch targets =>
    show (do switch targets; return none : Step _ _) w = _ ↔ none = reply ∧ True ∧
      (∀ f, .slot f ∈ switchCells targets w.offset → w.Allowed f) ∧
        w.extended (switchCells targets w.offset) = w'
    rw [silent_ok, switch_ok, true_and]
  | invoke op m => exact step_request_ok rfl
  | field op f => exact step_request_ok rfl
  | type op t => exact step_request_ok rfl
  | token op m => exact step_request_ok rfl
  | string op value => exact step_request_ok rfl
  | _ => exact nomatch hop

end Writer

end Cil
