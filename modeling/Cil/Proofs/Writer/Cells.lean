/-
The code of a writer, cell by cell.

A cell is a run of bytes that never changes, or the place of a branch offset.  What stands in such a
place depends on whether its label is marked: the distance to the label, or zeros.  So the bytes of
the code follow from the cells and the marks (`image`), and so do the fixups that wait (`Cell.waiting`).

Marking a label is then easy to state: the cells stay and the marks gain one.  `forM_patch_ok` says
that settling the fixups that waited for the label brings the code to the new image, wherever the
places are and whatever stands between them.
-/
import Cil.Proofs.Step
import Cil.Writer

namespace Cil

namespace Writer

variable {π : Type} {w w' : Writer π}

/-- The offset of a label, once it is marked. -/
def mark? (w : Writer π) (label : Nat) : Option Nat :=
  w.labels[label]?.bind Slot.offset

/-- A part of the code. -/
inductive Cell where
  | fixed (bytes : List UInt8)
  /-- The place of a branch offset. -/
  | slot (f : Fixup)

@[simp] theorem Fixup.length_bytes (f : Fixup) (distance : Int) :
    (f.bytes distance).length = f.width :=
  Code.length_littleEndian _ _

namespace Cell

def length : Cell → Nat
  | fixed bytes => bytes.length
  | slot f => f.width

/-- The bytes of a cell, given the offsets of the labels that are marked. -/
def bytes (marks : Nat → Option Nat) : Cell → List UInt8
  | fixed bytes => bytes
  | slot f =>
    match marks f.label with
    | some target => f.bytes ((target : Int) - f.origin)
    | none => List.replicate f.width 0

/-- The fixup that waits for the cell's label, if it is not marked. -/
def waiting (marks : Nat → Option Nat) : Cell → Option Fixup
  | fixed _ => none
  | slot f => if (marks f.label).isNone then some f else none

theorem bytes_of_some {marks : Nat → Option Nat} {f : Fixup} {target : Nat}
    (h : marks f.label = some target) :
    (slot f).bytes marks = f.bytes ((target : Int) - f.origin) := by
  simp only [bytes, h]

theorem bytes_of_none {marks : Nat → Option Nat} {f : Fixup} (h : marks f.label = none) :
    (slot f).bytes marks = List.replicate f.width 0 := by
  simp only [bytes, h]

theorem waiting_of_some {marks : Nat → Option Nat} {f : Fixup} {target : Nat}
    (h : marks f.label = some target) : (slot f).waiting marks = none := by
  simp [waiting, h]

theorem waiting_of_none {marks : Nat → Option Nat} {f : Fixup} (h : marks f.label = none) :
    (slot f).waiting marks = some f := by
  simp [waiting, h]

@[simp] theorem length_bytes (marks : Nat → Option Nat) (c : Cell) :
    (c.bytes marks).length = c.length := by
  cases c with
  | fixed bytes => rfl
  | slot f =>
    cases hmark : marks f.label with
    | some target =>
      rw [bytes_of_some hmark]
      exact f.length_bytes _
    | none =>
      rw [bytes_of_none hmark]
      exact List.length_replicate

end Cell

/-- The bytes of some cells. -/
def image (marks : Nat → Option Nat) (cells : List Cell) : List UInt8 :=
  cells.flatMap (Cell.bytes marks)

/-- The number of bytes of some cells. -/
def extent : List Cell → Nat
  | [] => 0
  | c :: rest => c.length + extent rest

@[simp] theorem length_image (marks : Nat → Option Nat) (cells : List Cell) :
    (image marks cells).length = extent cells := by
  induction cells with
  | nil => rfl
  | cons c rest ih =>
    rw [image, List.flatMap_cons, List.length_append, Cell.length_bytes]
    exact congrArg (c.length + ·) ih

theorem image_append (marks : Nat → Option Nat) (cells cells' : List Cell) :
    image marks (cells ++ cells') = image marks cells ++ image marks cells' :=
  List.flatMap_append

theorem extent_append (cells cells' : List Cell) :
    extent (cells ++ cells') = extent cells + extent cells' := by
  induction cells with
  | nil => exact (Nat.zero_add _).symm
  | cons c rest ih => rw [List.cons_append, extent, extent, ih, Nat.add_assoc]

/-- Every place is where its fixup says. -/
def Placed : Nat → List Cell → Prop
  | _, [] => True
  | start, .fixed bytes :: rest => Placed (start + bytes.length) rest
  | start, .slot f :: rest => f.position = start ∧ Placed (start + f.width) rest

theorem placed_append {start : Nat} {cells cells' : List Cell} :
    Placed start (cells ++ cells') ↔ Placed start cells ∧ Placed (start + extent cells) cells' := by
  induction cells generalizing start with
  | nil => simp [Placed, extent]
  | cons c rest ih =>
    have hextent : extent (c :: rest) = c.length + extent rest := rfl
    rw [hextent, ← Nat.add_assoc]
    cases c with
    | fixed bytes => exact ih
    | slot f =>
      show _ ∧ Placed (start + f.width) (rest ++ cells') ↔ (_ ∧ Placed _ rest) ∧ _
      rw [ih, and_assoc]
      rfl

/-! ### Writing over some bytes -/

theorem toList_overwrite {code : Array UInt8} {position : Nat} {front old back : List UInt8}
    (new : List UInt8) (hcode : code.toList = front ++ (old ++ back))
    (hposition : front.length = position) (hlength : old.length = new.length) :
    (overwrite code position new).toList = front ++ (new ++ back) := by
  induction new generalizing code position front old with
  | nil =>
    obtain rfl := List.length_eq_zero_iff.mp hlength
    exact hcode
  | cons b new ih =>
    cases old with
    | nil => exact nomatch hlength
    | cons b' old =>
      have hset : (code.setIfInBounds position b).toList = (front ++ [b]) ++ (old ++ back) := by
        rw [Array.toList_setIfInBounds, hcode, List.set_append_right _ _ (by omega)]
        simp [hposition]
      rw [overwrite, ih hset (by simp [hposition]) (Nat.succ.inj hlength)]
      simp

theorem patch_ok {f : Fixup} {u : Unit} :
    patch f w = .ok u w' ↔ ∃ target, w.mark? f.label = some target ∧
      f.fits ((target : Int) - f.origin) = true ∧
      { w with code := overwrite w.code f.position (f.bytes ((target : Int) - f.origin)) } = w' := by
  unfold patch mark?
  cases w.labels[f.label]? with
  | none => simp
  | some slot =>
    cases hoffset : slot.offset with
    | none => simp [hoffset]
    | some target =>
      by_cases hfits : f.fits ((target : Int) - f.origin) = true <;> simp [hoffset, hfits]

/-! ### Settling the fixups of a label -/

/-- The marks with one more. -/
def withMark (marks : Nat → Option Nat) (label target : Nat) (l : Nat) : Option Nat :=
  if l = label then some target else marks l

/-- The fixups of some cells that wait for a label. -/
def ready (marks : Nat → Option Nat) (label : Nat) (cells : List Cell) : List Fixup :=
  (cells.filterMap (Cell.waiting marks)).filter (·.label = label)

theorem withMark_self (marks : Nat → Option Nat) (label target : Nat) :
    withMark marks label target label = some target :=
  if_pos rfl

theorem withMark_of_ne {marks : Nat → Option Nat} {label target l : Nat} (h : l ≠ label) :
    withMark marks label target l = marks l :=
  if_neg h

/-- A cell with another label, or with none, is the same before and after. -/
theorem ready_cons_of_ne (marks : Nat → Option Nat) {label : Nat} {c : Cell} (rest : List Cell)
    (h : ∀ f, c = .slot f → f.label ≠ label) (target : Nat) :
    ready marks label (c :: rest) = ready marks label rest ∧
      c.bytes (withMark marks label target) = c.bytes marks := by
  cases c with
  | fixed bytes => exact ⟨rfl, rfl⟩
  | slot f =>
    have hne := h f rfl
    constructor
    · unfold ready
      cases hmark : marks f.label with
      | some target => rw [List.filterMap_cons_none (Cell.waiting_of_some hmark)]
      | none =>
        rw [List.filterMap_cons_some (Cell.waiting_of_none hmark)]
        exact List.filter_cons_of_neg (by simpa using hne)
    · simp only [Cell.bytes, withMark_of_ne hne]

theorem ready_cons_of_eq {marks : Nat → Option Nat} {f : Fixup} (rest : List Cell)
    (hunmarked : marks f.label = none) :
    ready marks f.label (.slot f :: rest) = f :: ready marks f.label rest := by
  unfold ready
  rw [List.filterMap_cons_some (Cell.waiting_of_none hunmarked)]
  exact List.filter_cons_of_pos (by simp)

/-- Settling what waited for a label leads from one image of the cells to the next. -/
theorem forM_patch_ok {marks : Nat → Option Nat} {label target : Nat} {cells : List Cell}
    {front back : List UInt8} {u : Unit} (hunmarked : marks label = none)
    (hmarks : w.mark? = withMark marks label target) (hplaced : Placed front.length cells)
    (hcode : w.code.toList = front ++ (image marks cells ++ back)) :
    ((ready marks label cells).forM patch : Step (Writer π) Unit) w = .ok u w' ↔
      (∀ f ∈ ready marks label cells, f.fits ((target : Int) - f.origin) = true) ∧
      { w with code := (front ++ (image (withMark marks label target) cells ++ back)).toArray }
        = w' := by
  induction cells generalizing front w with
  | nil =>
    have hsame : (front ++ (image (withMark marks label target) [] ++ back)).toArray = w.code := by
      apply Array.toList_inj.mp
      rw [hcode]
      rfl
    rw [hsame]
    show ([].forM patch : Step (Writer π) Unit) w = .ok u w' ↔ _
    rw [Step.forM_nil_ok]
    simp [ready]
  | cons c rest ih =>
    have himage : ∀ marks, image marks (c :: rest) = c.bytes marks ++ image marks rest :=
      fun _ => List.flatMap_cons
    by_cases hslot : ∃ f, c = .slot f ∧ f.label = label
    · -- The place is settled first; what stands before it grows by its bytes.
      obtain ⟨f, rfl, rfl⟩ := hslot
      obtain ⟨hposition, hplaced⟩ := hplaced
      have hmark : w.mark? f.label = some target := hmarks ▸ withMark_self marks f.label target
      have hzeros := Cell.bytes_of_none hunmarked
      have hsettled := Cell.bytes_of_some (withMark_self marks f.label target)
      rw [himage, hzeros, List.append_assoc] at hcode
      have hpatched := toList_overwrite (f.bytes ((target : Int) - f.origin)) hcode
        hposition.symm (by simp)
      rw [← List.append_assoc] at hpatched
      have hrest := ih (w := { w with
          code := overwrite w.code f.position (f.bytes ((target : Int) - f.origin)) })
        hmarks (by simpa using hplaced) hpatched
      rw [ready_cons_of_eq rest hunmarked, Step.forM_cons_ok]
      rw [List.forall_mem_cons, himage, hsettled]
      constructor
      · rintro ⟨w₁, hpatch, hforM⟩
        obtain ⟨target', htarget, hfits, rfl⟩ := patch_ok.mp hpatch
        obtain rfl : target = target' := Option.some.inj (hmark.symm.trans htarget)
        obtain ⟨hall, rfl⟩ := hrest.mp hforM
        exact ⟨⟨hfits, hall⟩, by simp only [List.append_assoc]⟩
      · rintro ⟨⟨hfits, hall⟩, rfl⟩
        refine ⟨_, patch_ok.mpr ⟨target, hmark, hfits, rfl⟩, hrest.mpr ⟨hall, ?_⟩⟩
        simp only [List.append_assoc]
    · have hne : ∀ f, c = .slot f → f.label ≠ label := fun f hc hl => hslot ⟨f, hc, hl⟩
      obtain ⟨hready, hbytes⟩ := ready_cons_of_ne marks rest hne target
      rw [himage, List.append_assoc, ← List.append_assoc] at hcode
      have hplaced' : Placed (front ++ c.bytes marks).length rest := by
        rw [List.length_append, Cell.length_bytes]
        cases c with
        | fixed bytes => exact hplaced
        | slot f => exact hplaced.2
      have hrest := ih hmarks hplaced' hcode
      rw [hready, hrest, himage, hbytes]
      simp only [List.append_assoc]

end Writer

end Cil
