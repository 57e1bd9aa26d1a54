/-
Little-endian numbers.
-/
namespace Cil.Code

/-- The `n` low bytes of a number, least significant first. -/
def littleEndian : Nat → Nat → List UInt8
  | 0, _ => []
  | n + 1, value => UInt8.ofNat value :: littleEndian n (value / 256)

/-- The number with the given bytes, least significant first. -/
def ofLittleEndian : List UInt8 → Nat
  | [] => 0
  | b :: rest => b.toNat + 256 * ofLittleEndian rest

/-- Splits off the first `n` bytes, if there are that many. -/
def splitBytes? : Nat → List UInt8 → Option (List UInt8 × List UInt8)
  | 0, bytes => some ([], bytes)
  | _ + 1, [] => none
  | n + 1, b :: bytes => (splitBytes? n bytes).map fun (front, rest) => (b :: front, rest)

@[simp] theorem length_littleEndian (n value : Nat) : (littleEndian n value).length = n := by
  induction n generalizing value with
  | zero => rfl
  | succ n ih => simp [littleEndian, ih]

/-- Splitting loses nothing. -/
theorem append_of_splitBytes? {n : Nat} {bytes front rest : List UInt8}
    (h : splitBytes? n bytes = some (front, rest)) : front ++ rest = bytes ∧ front.length = n := by
  induction n generalizing bytes front rest with
  | zero => simp_all [splitBytes?]
  | succ n ih =>
    cases bytes with
    | nil => simp [splitBytes?] at h
    | cons b bytes =>
      simp only [splitBytes?, Option.map_eq_some_iff, Prod.mk.injEq, Prod.exists] at h
      obtain ⟨front', rest', hsplit, rfl, rfl⟩ := h
      obtain ⟨happ, hlen⟩ := ih hsplit
      simp [happ, hlen]

end Cil.Code
