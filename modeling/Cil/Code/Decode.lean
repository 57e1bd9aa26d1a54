/-
Bytes as instructions.

`Code.decode` reads one instruction from the front of a list of bytes and says how many it took.
It stops in two ways only: the bytes end inside the instruction, or they start with a code that no
opcode has.  A `Reader` goes through a whole source and reports where it stopped; an
`InstructionStream` hands out what a reader finds and then nothing more.
-/
import Cil.Code.Bytes
import Cil.Instruction

namespace Cil

/-- The value an operand of the kind has, by its bits. -/
def OperandKind.read (k : OperandKind) (bits : Nat) : Operand :=
  match k with
  | .none | .table => .none
  | .int8 | .shortTarget => .int32 (UInt8.ofNat bits).toInt8.toInt32
  | .shortVar | .var | .int32 | .target => .int32 (UInt32.ofNat bits).toInt32
  | .int64 => .int64 (UInt64.ofNat bits).toInt64
  | .float32 => .float32 (UInt32.ofNat bits)
  | .float64 => .float64 (UInt64.ofNat bits)
  | .field | .method | .type | .string | .signature | .member => .token ⟨UInt32.ofNat bits⟩

namespace Code

/-- What stops a decoder inside an instruction. -/
inductive Fault where
  | truncated
  | unknown (code : UInt16)
  deriving DecidableEq, Repr

/-- An instruction read from the front of some bytes. -/
structure Decoded where
  instruction : Instruction
  /-- The bytes it took. -/
  length : Nat
  /-- The bytes after it. -/
  rest : List UInt8

/-- The offsets of a jump table, four bytes each. -/
def offsets : List UInt8 → List Int32
  | a :: b :: c :: d :: rest =>
    (UInt32.ofNat (ofLittleEndian [a, b, c, d])).toInt32 :: offsets rest
  | _ => []

/-- Reads the operand of `op`, whose opcode took `taken` bytes. -/
def decodeOperand (op : Opcode) (taken : Nat) (bytes : List UInt8) : Except Fault Decoded :=
  match op.operandKind.size? with
  | some n =>
    match splitBytes? n bytes with
    | some (front, rest) =>
      .ok ⟨.plain op (op.operandKind.read (ofLittleEndian front)), taken + n, rest⟩
    | none => .error .truncated
  | none =>
    match splitBytes? 4 bytes with
    | some (front, body) =>
      let n := 4 * ofLittleEndian front
      match splitBytes? n body with
      | some (table, rest) => .ok ⟨.switch (offsets table), taken + 4 + n, rest⟩
      | none => .error .truncated
    | none => .error .truncated

/-- Reads the operand of the opcode with the given code, which took `taken` bytes. -/
def decodeAfterCode (code : UInt16) (taken : Nat) (bytes : List UInt8) : Except Fault Decoded :=
  match Opcode.ofCode? code with
  | some op => decodeOperand op taken bytes
  | none => .error (.unknown code)

/-- Reads one instruction. -/
def decode : List UInt8 → Except Fault Decoded
  | [] => .error .truncated
  | first :: bytes =>
    if first = Opcode.escape then
      match bytes with
      | [] => .error .truncated
      | second :: bytes => decodeAfterCode (Opcode.escapedCode second) 2 bytes
    else decodeAfterCode first.toUInt16 1 bytes

theorem length_rest_of_decodeOperand {op : Opcode} {taken : Nat} {bytes : List UInt8}
    {d : Decoded} (h : decodeOperand op taken bytes = .ok d) : d.rest.length ≤ bytes.length := by
  unfold decodeOperand at h
  split at h
  · split at h
    · next hsplit =>
      obtain rfl := Except.ok.inj h
      simp [← (append_of_splitBytes? hsplit).1]
    · exact nomatch h
  · split at h
    · next hsplit =>
      simp only at h
      split at h
      · next hbody =>
        obtain rfl := Except.ok.inj h
        simp [← (append_of_splitBytes? hsplit).1, ← (append_of_splitBytes? hbody).1]
        omega
      · exact nomatch h
    · exact nomatch h

theorem length_rest_of_decodeAfterCode {code : UInt16} {taken : Nat} {bytes : List UInt8}
    {d : Decoded} (h : decodeAfterCode code taken bytes = .ok d) :
    d.rest.length ≤ bytes.length := by
  unfold decodeAfterCode at h
  split at h
  · exact length_rest_of_decodeOperand h
  · exact nomatch h

/-- An instruction takes at least one byte. -/
theorem length_rest_of_decode {bytes : List UInt8} {d : Decoded} (h : decode bytes = .ok d) :
    d.rest.length < bytes.length := by
  unfold decode at h
  split at h
  · exact nomatch h
  · split at h
    · split at h
      · exact nomatch h
      · have := length_rest_of_decodeAfterCode h
        simp only [List.length_cons]
        omega
    · have := length_rest_of_decodeAfterCode h
      simp only [List.length_cons]
      omega

end Code

/-- Why a source cannot be decoded. -/
inductive DecodeError where
  | endOfStream (offset : Nat)
  | unknownOpcode (code : UInt16) (offset : Nat)
  /-- The source itself failed. -/
  | readFailed (offset : Nat)
  deriving DecidableEq, Repr

def DecodeError.message : DecodeError → String
  | endOfStream offset => "unexpected end of stream at offset " ++ toString offset
  | unknownOpcode code offset =>
    "unknown opcode 0x" ++ Text.hexUpper 2 code.toNat ++ " at offset " ++ toString offset
  | readFailed offset => "read failed at offset " ++ toString offset

/-- What comes after the last byte of a source. -/
inductive SourceEnd where
  | ends
  /-- The next read fails. -/
  | fails
  deriving DecidableEq, Repr

/-- A position in a source of bytes. -/
structure Reader where
  rest : List UInt8
  /-- The number of bytes read so far. -/
  offset : Nat := 0
  sourceEnd : SourceEnd := .ends

namespace Reader

/-- The error of a source that stops before the next byte. -/
def stopError (r : Reader) (offset : Nat) : DecodeError :=
  match r.sourceEnd with
  | .ends => .endOfStream offset
  | .fails => .readFailed offset

/-- Reads the next instruction, or nothing at a clean end, and says where the reader stands then.
A reader that ran into the end of its source has read all of it; one that met an unknown code has
read the code. -/
def next (r : Reader) : Except DecodeError (Option Instruction) × Reader :=
  match r.rest, r.sourceEnd with
  | [], .ends => (.ok none, r)
  | [], .fails => (.error (.readFailed r.offset), r)
  | _ :: _, _ =>
    match Code.decode r.rest with
    | .ok d => (.ok (some d.instruction), { r with rest := d.rest, offset := r.offset + d.length })
    | .error .truncated =>
      let last := r.offset + r.rest.length
      (.error (r.stopError last), { r with rest := [], offset := last })
    | .error (.unknown code) =>
      let taken := if code > 0xFF then 2 else 1
      (.error (.unknownOpcode code r.offset),
        { r with rest := r.rest.drop taken, offset := r.offset + taken })

theorem length_rest_of_next {r s : Reader} {i : Instruction} (h : r.next = (.ok (some i), s)) :
    s.rest.length < r.rest.length := by
  unfold next at h
  split at h
  · simp at h
  · simp at h
  · split at h
    · next hd =>
      have := Code.length_rest_of_decode hd
      simp only [Prod.mk.injEq] at h
      simpa [← h.2] using this
    · simp at h
    · simp at h

/-- An instruction or an error, with the offset it was read at. -/
structure Item where
  offset : Nat
  result : Except DecodeError Instruction

/-- All that is left to read: instructions, up to the end of the source or the first error. -/
def items (r : Reader) : List Item :=
  match _h : r.next with
  | (.ok none, _) => []
  | (.ok (some i), s) => ⟨r.offset, .ok i⟩ :: s.items
  | (.error e, _) => [⟨r.offset, .error e⟩]
termination_by r.rest.length
decreasing_by exact length_rest_of_next (by assumption)

end Reader

/-- Instructions asked for one at a time, until the source ends or cannot be decoded. -/
structure InstructionStream where
  reader : Reader
  /-- Has the end or an error been met? -/
  done : Bool := false

namespace InstructionStream

/-- The stream of some bytes. -/
def ofBytes (bytes : List UInt8) : InstructionStream :=
  { reader := { rest := bytes } }

/-- The offset of the next instruction. -/
def offset (s : InstructionStream) : Nat := s.reader.offset

/-- The next instruction, or the error that stands in its place.  Nothing follows an error. -/
def next (s : InstructionStream) : Option (Except DecodeError Instruction) × InstructionStream :=
  if s.done then (none, s)
  else
    match s.reader.next with
    | (.ok (some i), r) => (some (.ok i), { reader := r })
    | (.ok none, r) => (none, { reader := r, done := true })
    | (.error e, r) => (some (.error e), { reader := r, done := true })

end InstructionStream

/-- The instructions of a list of bytes, up to its end or the first error. -/
def Code.items (bytes : List UInt8) : List Reader.Item :=
  Reader.items { rest := bytes }

end Cil
