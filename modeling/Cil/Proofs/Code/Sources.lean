/-
Sources that fail.

A source hands out one byte at a time, and each time a byte is asked for it may instead end or fail.
`Reader.next` looks at all the bytes that are left at once.  `readInstruction` asks for one byte after
the other: for the first byte of the code, for the second one after the escape byte, and for each byte
of the operand.  By `next_eq_readInstruction` the two find the same and stop at the same place.

Read by read, a source that fails and one that ends give the same until the bytes are used up, and what
is an unexpected end for the one is a failure for the other (`Mirrors`).  Only before an instruction do
they differ in more than the error: there the end is a clean one, and a failure never is.
-/
import Cil.Proofs.Code.Faults
import Cil.Proofs.Step

namespace Cil

namespace Reader

/-! ### One byte at a time -/

/-- What asks a source for bytes.  Be there an answer or an error, the reader has moved on. -/
abbrev Reading := EStateM DecodeError Reader

/-- The next byte, or nothing at the end of the source. -/
def nextByte : Reading (Option UInt8) := fun r =>
  match r.rest, r.sourceEnd with
  | b :: rest, _ => .ok (some b) { r with rest, offset := r.offset + 1 }
  | [], .ends => .ok none r
  | [], .fails => .error (.readFailed r.offset) r

/-- A byte that has to be there. -/
def byte : Reading UInt8 := do
  match ← nextByte with
  | some b => return b
  | none => throw (.endOfStream (← get).offset)

/-- A number of so many bytes, least significant first. -/
def number : Nat → Reading Nat
  | 0 => return 0
  | n + 1 => do
    let low ← byte
    let high ← number n
    return low.toNat + 256 * high

/-- So many offsets of a jump table. -/
def table : Nat → Reading (List Int32)
  | 0 => return []
  | n + 1 => do
    let bits ← number 4
    let others ← table n
    return (UInt32.ofNat bits).toInt32 :: others

/-- The operand that the opcode calls for. -/
def operand (op : Opcode) : Reading Instruction :=
  match op.operandKind.size? with
  | some n => do
    let bits ← number n
    return .plain op (op.operandKind.read bits)
  | none => do
    let count ← number 4
    let offsets ← table count
    return .switch offsets

/-- The code that starts with the given byte. -/
def code (first : UInt8) : Reading UInt16 :=
  if first = Opcode.escape then do
    let second ← byte
    return Opcode.escapedCode second
  else return first.toUInt16

/-- The instruction whose code has been read, from `start` on. -/
def instructionOf (start : Nat) (code : UInt16) : Reading Instruction :=
  match Opcode.ofCode? code with
  | some op => operand op
  | none => throw (.unknownOpcode code start)

/-- The next instruction, or nothing at a clean end. -/
def readInstruction : Reading (Option Instruction) := do
  let start := (← get).offset
  match ← nextByte with
  | none => return none
  | some first =>
    let code ← code first
    let i ← instructionOf start code
    return some i

/-! ### Reading byte by byte is decoding -/

variable {α β : Type} {r : Reader}

/-- The reader behind the next `n` bytes. -/
def passed (n : Nat) (r : Reader) : Reader :=
  { r with rest := r.rest.drop n, offset := r.offset + n }

/-- The reader behind all its bytes. -/
def usedUp (r : Reader) : Reader := r.passed r.rest.length

/-- The reading takes `n` bytes and answers what they give.  If there are fewer, it takes them all and
stops there. -/
structure Takes (m : Reading α) (n : Nat) (f : List UInt8 → α) : Prop where
  enough : ∀ r : Reader, n ≤ r.rest.length → m r = .ok (f (r.rest.take n)) (r.passed n)
  short : ∀ r : Reader, r.rest.length < n → m r = .error (r.faultError .truncated) r.usedUp

theorem takes_pure (a : α) : Takes (pure a) 0 fun _ => a where
  enough _ _ := rfl
  short _ h := absurd h (Nat.not_lt_zero _)

theorem takes_byte : Takes byte 1 (·.headD 0) where
  enough r h := by
    obtain ⟨rest, offset, sourceEnd⟩ := r
    cases rest with
    | nil => simp at h
    | cons b rest => rfl
  short r h := by
    obtain ⟨rest, offset, sourceEnd⟩ := r
    obtain rfl : rest = [] := by simpa using h
    cases sourceEnd <;> rfl

theorem passed_passed (m n : Nat) (r : Reader) : (r.passed m).passed n = r.passed (m + n) := by
  simp [passed, Nat.add_assoc]

/-- Stopping behind the first bytes is stopping at the same end. -/
theorem usedUp_passed {n : Nat} (h : n ≤ r.rest.length) : (r.passed n).usedUp = r.usedUp := by
  have hlength : n + (r.rest.length - n) = r.rest.length := by omega
  simp only [usedUp, passed_passed]
  simp [passed, hlength]

theorem faultError_passed {n : Nat} (h : n ≤ r.rest.length) :
    (r.passed n).faultError .truncated = r.faultError .truncated := by
  have hlength : r.offset + n + (r.rest.length - n) = r.offset + r.rest.length := by omega
  simp [faultError, stopError, passed, hlength]

theorem Takes.bind {m : Reading α} {k : α → Reading β} {n n' : Nat} {f : List UInt8 → α}
    {g : α → List UInt8 → β} (hm : Takes m n f) (hk : ∀ a, Takes (k a) n' (g a)) :
    Takes (m >>= k) (n + n') fun bs => g (f (bs.take n)) (bs.drop n) where
  enough r h := by
    have hrest : n' ≤ (r.passed n).rest.length := by
      simp [passed]
      omega
    rw [Step.bind_of_ok (hm.enough r (by omega)), (hk _).enough _ hrest, passed_passed]
    simp [passed, List.take_take, List.drop_take]
  short r h := by
    by_cases hn : n ≤ r.rest.length
    · have hrest : (r.passed n).rest.length < n' := by
        simp [passed]
        omega
      rw [Step.bind_of_ok (hm.enough r hn), (hk _).short _ hrest, usedUp_passed hn,
        faultError_passed hn]
    · rw [Step.bind_of_error (hm.short r (by omega))]

theorem Takes.map {m : Reading α} {n : Nat} {f : List UInt8 → α} (hm : Takes m n f) (g : α → β) :
    Takes (m >>= fun a => pure (g a)) n fun bs => g (f bs) where
  enough r h := by
    rw [Step.bind_of_ok (hm.enough r h)]
    rfl
  short r h := by
    rw [Step.bind_of_error (hm.short r h)]

theorem Takes.congr {m : Reading α} {n : Nat} {f g : List UInt8 → α} (h : Takes m n f)
    (heq : ∀ bs, bs.length = n → f bs = g bs) : Takes m n g where
  enough r hle := by
    rw [h.enough r hle, heq _ (List.length_take_of_le hle)]
  short := h.short

theorem takes_number (n : Nat) : Takes (number n) n Code.ofLittleEndian := by
  induction n with
  | zero =>
    refine (takes_pure 0).congr ?_
    intro bs hbs
    simp [List.length_eq_zero_iff.mp hbs, Code.ofLittleEndian]
  | succ n ih =>
    have hsteps := takes_byte.bind fun low => ih.map fun high => low.toNat + 256 * high
    rw [Nat.add_comm 1] at hsteps
    refine hsteps.congr ?_
    intro bs hbs
    cases bs with
    | nil => simp at hbs
    | cons b bs => simp [Code.ofLittleEndian]

theorem takes_table (n : Nat) : Takes (table n) (4 * n) Code.offsets := by
  induction n with
  | zero =>
    refine (takes_pure []).congr ?_
    intro bs hbs
    simp [List.length_eq_zero_iff.mp hbs, Code.offsets]
  | succ n ih =>
    have hsteps := (takes_number 4).bind fun bits => ih.map fun others =>
      (UInt32.ofNat bits).toInt32 :: others
    have hsize : 4 + 4 * n = 4 * (n + 1) := by omega
    rw [hsize] at hsteps
    refine hsteps.congr ?_
    intro bs hbs
    rcases bs with _ | ⟨a, _ | ⟨b, _ | ⟨c, _ | ⟨d, bs⟩⟩⟩⟩
    all_goals simp only [List.length_cons, List.length_nil] at hbs
    any_goals omega
    simp [Code.offsets]

/-- What comes of a reader whose bytes are decoded as given. -/
def outcome (r : Reader) :
    Except Code.Fault Code.Decoded → EStateM.Result DecodeError Reader Instruction
  | .ok d => .ok d.instruction { r with rest := d.rest, offset := r.offset + d.length }
  | .error .truncated => .error (r.faultError .truncated) r.usedUp
  | .error (.unknown code) =>
    .error (r.faultError (.unknown code)) (r.passed (if code > 0xFF then 2 else 1))

theorem splitBytes?_of_le {n : Nat} {bytes : List UInt8} (h : n ≤ bytes.length) :
    Code.splitBytes? n bytes = some (bytes.take n, bytes.drop n) := by
  have hsplit := Code.splitBytes?_append (List.length_take_of_le h) (bytes.drop n)
  rwa [List.take_append_drop] at hsplit

/-- Stopping behind the first bytes is what comes of bytes that end too early. -/
theorem outcome_truncated {n : Nat} (h : n ≤ r.rest.length) :
    r.outcome (.error .truncated)
      = .error ((r.passed n).faultError .truncated) (r.passed n).usedUp := by
  rw [faultError_passed h, usedUp_passed h, outcome]

theorem operand_of_number {op : Opcode} {n taken : Nat} (hsize : op.operandKind.size? = some n)
    (h : taken ≤ r.rest.length) :
    operand op (r.passed taken)
      = r.outcome (Code.decodeOperand op taken (r.passed taken).rest) := by
  have htakes : Takes (operand op) n fun bs =>
      .plain op (op.operandKind.read (Code.ofLittleEndian bs)) := by
    unfold operand
    rw [hsize]
    exact (takes_number n).map _
  by_cases hn : n ≤ (r.passed taken).rest.length
  · rw [htakes.enough _ hn, Code.decodeOperand_of_number hsize (splitBytes?_of_le hn)]
    simp [outcome, passed, Nat.add_assoc]
  · have hshort := Nat.lt_of_not_le hn
    have hcut : Code.decodeOperand op taken (r.passed taken).rest = .error .truncated := by
      simp [Code.decodeOperand, hsize, Code.splitBytes?_eq_none_iff.mpr hshort]
    rw [htakes.short _ hshort, hcut, outcome_truncated h]

theorem operand_of_table {op : Opcode} {taken : Nat} (hsize : op.operandKind.size? = none)
    (h : taken ≤ r.rest.length) :
    operand op (r.passed taken)
      = r.outcome (Code.decodeOperand op taken (r.passed taken).rest) := by
  unfold operand
  rw [hsize]
  dsimp only
  by_cases hcount : 4 ≤ (r.passed taken).rest.length
  · have hfront := splitBytes?_of_le hcount
    have htakes := (takes_table (Code.ofLittleEndian ((r.passed taken).rest.take 4))).map Instruction.switch
    rw [Step.bind_of_ok ((takes_number 4).enough _ hcount)]
    by_cases hbody : 4 * Code.ofLittleEndian ((r.passed taken).rest.take 4)
        ≤ ((r.passed taken).passed 4).rest.length
    · rw [htakes.enough _ hbody, Code.decodeOperand_of_table hsize hfront (splitBytes?_of_le hbody)]
      simp [outcome, passed, Nat.add_assoc]
    · have hshort := Nat.lt_of_not_le hbody
      have hcut : Code.decodeOperand op taken (r.passed taken).rest = .error .truncated := by
        have hnone : Code.splitBytes? (4 * Code.ofLittleEndian ((r.passed taken).rest.take 4))
            ((r.passed taken).rest.drop 4) = none := Code.splitBytes?_eq_none_iff.mpr hshort
        simp [Code.decodeOperand, hsize, hfront, hnone]
      have hle : taken + 4 ≤ r.rest.length := by
        simp [passed] at hcount
        omega
      rw [htakes.short _ hshort, hcut, passed_passed, outcome_truncated hle]
  · have hshort := Nat.lt_of_not_le hcount
    have hcut : Code.decodeOperand op taken (r.passed taken).rest = .error .truncated := by
      simp [Code.decodeOperand, hsize, Code.splitBytes?_eq_none_iff.mpr hshort]
    rw [Step.bind_of_error ((takes_number 4).short _ hshort), hcut, outcome_truncated h]

theorem instructionOf_eq {code : UInt16} {taken : Nat} (h : taken ≤ r.rest.length)
    (htaken : taken = if code > 0xFF then 2 else 1) :
    instructionOf r.offset code (r.passed taken)
      = r.outcome (Code.decodeAfterCode code taken (r.passed taken).rest) := by
  unfold instructionOf Code.decodeAfterCode
  cases Opcode.ofCode? code with
  | some op =>
    cases hsize : op.operandKind.size? with
    | some n => exact operand_of_number hsize h
    | none => exact operand_of_table hsize h
  | none =>
    subst htaken
    rfl

/-- What follows the first byte is decoded with it. -/
theorem instruction_eq {first : UInt8} {bytes : List UInt8} (h : r.rest = first :: bytes) :
    (code first >>= instructionOf r.offset) (r.passed 1) = r.outcome (Code.decode r.rest) := by
  rw [h]
  by_cases hfirst : first = Opcode.escape
  · subst hfirst
    cases bytes with
    | nil =>
      have hbyte := takes_byte.short (r.passed 1) (by simp [passed, h])
      rw [code, if_pos rfl, bind_assoc, Step.bind_of_error hbyte]
      simp [Code.decode, outcome_truncated (r := r) (n := 1) (by simp [h])]
    | cons second bytes =>
      have hbyte := takes_byte.enough (r.passed 1) (by simp [passed, h])
      have hsecond : (((r.passed 1).rest.take 1).headD 0) = second := by simp [passed, h]
      have htwo : 2 = if Opcode.escapedCode second > 0xFF then 2 else 1 := by
        rw [if_pos (Opcode.lt_escapedCode second)]
      have hrest := instructionOf_eq (r := r) (by simp [h]) htwo
      rw [code, if_pos rfl, bind_assoc, Step.bind_of_ok hbyte, passed_passed, hsecond]
      simpa [Code.decode, passed, h] using hrest
  · have hone : 1 = if first.toUInt16 > 0xFF then 2 else 1 := by
      rw [if_neg (UInt16.not_lt.mpr (Opcode.toUInt16_le first))]
    have hrest := instructionOf_eq (r := r) (by simp [h]) hone
    rw [code, if_neg hfirst]
    simpa [Code.decode, hfirst, passed, h] using hrest

/-- The answer of a reading and the reader after it. -/
def answered : EStateM.Result DecodeError Reader α → Except DecodeError α × Reader
  | .ok a s => (.ok a, s)
  | .error e s => (.error e, s)

/-- Behind the first byte, an instruction is read or there is an error. -/
theorem readInstruction_of_cons {first : UInt8} {bytes : List UInt8} (h : r.rest = first :: bytes) :
    readInstruction r
      = (code first >>= instructionOf r.offset >>= fun i => pure (some i)) (r.passed 1) := by
  obtain ⟨rest, offset, sourceEnd⟩ := r
  obtain rfl : rest = first :: bytes := h
  rw [bind_assoc]
  rfl

/-- **Reading byte by byte finds what is decoded from all the bytes**, and stops at the same place. -/
theorem next_eq_readInstruction (r : Reader) : r.next = answered (readInstruction r) := by
  obtain ⟨rest, offset, sourceEnd⟩ := r
  cases rest with
  | nil => cases sourceEnd <;> rfl
  | cons first bytes =>
    have hbehind := instruction_eq (r := ⟨first :: bytes, offset, sourceEnd⟩) rfl
    rw [readInstruction_of_cons rfl]
    cases hdecode : Code.decode (first :: bytes) with
    | ok d =>
      rw [hdecode] at hbehind
      rw [next_of_decode hdecode, Step.bind_of_ok hbehind]
      rfl
    | error fault =>
      rw [hdecode] at hbehind
      cases fault with
      | truncated =>
        rw [Step.bind_of_error hbehind]
        simp [next, hdecode, answered, faultError, usedUp, passed]
      | unknown code =>
        rw [Step.bind_of_error hbehind]
        simp [next, hdecode, answered, faultError, passed]

theorem next_of_answer {first : UInt8} {bytes : List UInt8} {i : Instruction} {s : Reader}
    (h : r.rest = first :: bytes)
    (hbehind : (code first >>= instructionOf r.offset) (r.passed 1) = .ok i s) :
    r.next = (.ok (some i), s) := by
  rw [next_eq_readInstruction, readInstruction_of_cons h, Step.bind_of_ok hbehind]
  rfl

theorem next_of_error {first : UInt8} {bytes : List UInt8} {e : DecodeError} {s : Reader}
    (h : r.rest = first :: bytes)
    (hbehind : (code first >>= instructionOf r.offset) (r.passed 1) = .error e s) :
    r.next = (.error e, s) := by
  rw [next_eq_readInstruction, readInstruction_of_cons h, Step.bind_of_error hbehind]
  rfl

/-! ### A source that ends and one that fails -/

/-- The reader whose source fails where the given one ends. -/
def failing (r : Reader) : Reader := { r with sourceEnd := .fails }

/-- The source ends after `limit` bytes. -/
structure EndsAt (limit : Nat) (r : Reader) : Prop where
  ends : r.sourceEnd = .ends
  limit_eq : r.offset + r.rest.length = limit

/-- What comes of a reading if the source ends after `limit` bytes, and what if it fails there. -/
inductive Mirrors (limit : Nat) :
    EStateM.Result DecodeError Reader α → EStateM.Result DecodeError Reader α → Prop
  | answer {a : α} {s : Reader} (h : EndsAt limit s) : Mirrors limit (.ok a s) (.ok a s.failing)
  | cut {s : Reader} :
    Mirrors limit (.error (.endOfStream limit) s) (.error (.readFailed limit) s.failing)
  | unknown {code : UInt16} {offset : Nat} {s : Reader} :
    Mirrors limit (.error (.unknownOpcode code offset) s)
      (.error (.unknownOpcode code offset) s.failing)

/-- Wherever the source stops, it makes no other difference whether it ends or fails. -/
def Mirrored (m : Reading α) : Prop :=
  ∀ limit r, EndsAt limit r → Mirrors limit (m r) (m r.failing)

theorem mirrored_pure (a : α) : Mirrored (pure a) := by
  intro limit r hr
  exact .answer hr

theorem mirrored_unknown (code : UInt16) (offset : Nat) :
    Mirrored (throw (.unknownOpcode code offset) : Reading α) := by
  intro limit r hr
  exact .unknown

theorem Mirrored.bind {m : Reading α} {k : α → Reading β} (hm : Mirrored m)
    (hk : ∀ a, Mirrored (k a)) : Mirrored (m >>= k) := by
  intro limit r hr
  have hfirst := hm limit r hr
  generalize hends : m r = ends at hfirst
  generalize hfails : m r.failing = fails at hfirst
  cases hfirst with
  | answer hs =>
    rw [Step.bind_of_ok hends, Step.bind_of_ok hfails]
    exact hk _ limit _ hs
  | cut =>
    rw [Step.bind_of_error hends, Step.bind_of_error hfails]
    exact .cut
  | unknown =>
    rw [Step.bind_of_error hends, Step.bind_of_error hfails]
    exact .unknown

theorem EndsAt.passed {limit n : Nat} (h : EndsAt limit r) (hn : n ≤ r.rest.length) :
    EndsAt limit (r.passed n) where
  ends := h.ends
  limit_eq := by
    have := h.limit_eq
    simp [Reader.passed]
    omega

/-- Each read is where the two sources can differ. -/
theorem mirrored_byte : Mirrored byte := by
  intro limit r hr
  by_cases hrest : 1 ≤ r.rest.length
  · rw [takes_byte.enough r hrest, takes_byte.enough r.failing hrest]
    exact .answer (hr.passed hrest)
  · have hshort := Nat.lt_of_not_le hrest
    have hcut : r.faultError .truncated = .endOfStream limit := by
      simp [faultError, stopError, hr.ends, hr.limit_eq]
    have hfailed : r.failing.faultError .truncated = .readFailed limit := by
      simp [faultError, stopError, failing, hr.limit_eq]
    rw [takes_byte.short r hshort, takes_byte.short r.failing hshort, hcut, hfailed]
    exact .cut

theorem mirrored_number (n : Nat) : Mirrored (number n) := by
  induction n with
  | zero => exact mirrored_pure 0
  | succ n ih => exact mirrored_byte.bind fun _ => ih.bind fun _ => mirrored_pure _

theorem mirrored_table (n : Nat) : Mirrored (table n) := by
  induction n with
  | zero => exact mirrored_pure []
  | succ n ih => exact (mirrored_number 4).bind fun _ => ih.bind fun _ => mirrored_pure _

theorem mirrored_operand (op : Opcode) : Mirrored (operand op) := by
  unfold operand
  cases op.operandKind.size? with
  | some n => exact (mirrored_number n).bind fun _ => mirrored_pure _
  | none =>
    exact (mirrored_number 4).bind fun count => (mirrored_table count).bind fun _ => mirrored_pure _

theorem mirrored_code (first : UInt8) : Mirrored (code first) := by
  unfold code
  by_cases hfirst : first = Opcode.escape
  · rw [if_pos hfirst]
    exact mirrored_byte.bind fun _ => mirrored_pure _
  · rw [if_neg hfirst]
    exact mirrored_pure _

theorem mirrored_instructionOf (start : Nat) (code : UInt16) : Mirrored (instructionOf start code) := by
  unfold instructionOf
  cases Opcode.ofCode? code with
  | some op => exact mirrored_operand op
  | none => exact mirrored_unknown code start

/-- What a reader finds next if its source ends after `limit` bytes, and what if it fails there. -/
inductive NextMirrors (limit : Nat) (r : Reader) : Prop
  | atEnd {s t : Reader} (hends : r.next = (.ok none, s))
      (hfails : r.failing.next = (.error (.readFailed limit), t))
  | instruction {i : Instruction} {s : Reader} (hends : r.next = (.ok (some i), s))
      (hfails : r.failing.next = (.ok (some i), s.failing)) (hs : EndsAt limit s)
  | cut {s t : Reader} (hends : r.next = (.error (.endOfStream limit), s))
      (hfails : r.failing.next = (.error (.readFailed limit), t))
  | unknown {code : UInt16} {offset : Nat} {s t : Reader}
      (hends : r.next = (.error (.unknownOpcode code offset), s))
      (hfails : r.failing.next = (.error (.unknownOpcode code offset), t))

theorem next_mirrors {limit : Nat} (h : EndsAt limit r) : NextMirrors limit r := by
  cases hrest : r.rest with
  | nil =>
    have hlimit : r.offset = limit := by simpa [hrest] using h.limit_eq
    refine .atEnd (s := r) (t := r.failing) ?_ ?_
    · simp [next, hrest, h.ends]
    · simp [next, failing, hrest, hlimit]
  | cons first bytes =>
    have hmirrored : Mirrored (code first >>= instructionOf r.offset) :=
      (mirrored_code first).bind fun code => mirrored_instructionOf r.offset code
    have hbehind := hmirrored limit (r.passed 1) (h.passed (by simp [hrest]))
    generalize hends : (code first >>= instructionOf r.offset) (r.passed 1) = ends at hbehind
    generalize hfails : (code first >>= instructionOf r.offset) (r.passed 1).failing = fails at hbehind
    cases hbehind with
    | answer hs =>
      exact .instruction (next_of_answer hrest hends) (next_of_answer (r := r.failing) hrest hfails) hs
    | cut => exact .cut (next_of_error hrest hends) (next_of_error (r := r.failing) hrest hfails)
    | unknown =>
      exact .unknown (next_of_error hrest hends) (next_of_error (r := r.failing) hrest hfails)

end Reader

namespace InstructionStream

/-- The stream of a source that hands out some bytes and then fails. -/
def ofFailing (bytes : List UInt8) : InstructionStream :=
  { reader := { rest := bytes, sourceEnd := .fails } }

/-- How a stream ends that ends after `limit` bytes, and how if it fails there. -/
inductive EndMirrors (limit : Nat) : Option DecodeError → DecodeError → Prop
  | clean : EndMirrors limit none (.readFailed limit)
  | cut : EndMirrors limit (some (.endOfStream limit)) (.readFailed limit)
  | unknown (code : UInt16) (offset : Nat) :
    EndMirrors limit (some (.unknownOpcode code offset)) (.unknownOpcode code offset)

/-- **A source that fails gives the same instructions as one that ends.** -/
theorem exists_endMirrors {limit : Nat} (r : Reader) (h : r.EndsAt limit) :
    ∃ (is : List Instruction) (ending : Option DecodeError) (failure : DecodeError),
      EndMirrors limit ending failure ∧
      (⟨r, false⟩ : InstructionStream).Yields (is.map .ok ++ ending.toList.map .error) ∧
      (⟨r.failing, false⟩ : InstructionStream).Yields (is.map .ok ++ [.error failure]) := by
  cases Reader.next_mirrors h with
  | atEnd hends hfails =>
    exact ⟨[], none, _, .clean, yields_of_none hends, yields_of_error hfails⟩
  | cut hends hfails =>
    exact ⟨[], some _, _, .cut, yields_of_error hends, yields_of_error hfails⟩
  | unknown hends hfails =>
    exact ⟨[], some _, _, .unknown _ _, yields_of_error hends, yields_of_error hfails⟩
  | @instruction i s hends hfails hs =>
    obtain ⟨is, ending, failure, hmirrors, hyields, hyields'⟩ := exists_endMirrors s hs
    exact ⟨i :: is, ending, failure, hmirrors, yields_cons (next_of_instruction hends) hyields,
      yields_cons (next_of_instruction hfails) hyields'⟩
termination_by r.rest.length
decreasing_by exact Reader.length_rest_of_next hends

/-- **A failing source differs from an ending one only at the end.**  Some bytes are read once from a
source that ends after them and once from one that fails there.  Both give the same instructions.  Then
comes the failure, behind the last byte, if the first source ends cleanly or inside an instruction;
and if it ends at an unknown code, then so does the second, with the same error.  After that there is
nothing, however often one asks. -/
theorem yields_of_failing_source (bytes : List UInt8) :
    ∃ (is : List Instruction) (ending : Option DecodeError),
      (ofBytes bytes).Yields (is.map .ok ++ ending.toList.map .error) ∧
      ((ending = none ∨ ending = some (.endOfStream bytes.length)) ∧
          (ofFailing bytes).Yields (is.map .ok ++ [.error (.readFailed bytes.length)]) ∨
        ∃ code offset, ending = some (.unknownOpcode code offset) ∧
          (ofFailing bytes).Yields (is.map .ok ++ [.error (.unknownOpcode code offset)])) := by
  have hends : Reader.EndsAt bytes.length { rest := bytes } := ⟨rfl, Nat.zero_add _⟩
  obtain ⟨is, ending, failure, hmirrors, hyields, hyields'⟩ := exists_endMirrors _ hends
  refine ⟨is, ending, hyields, ?_⟩
  cases hmirrors with
  | clean => exact Or.inl ⟨Or.inl rfl, hyields'⟩
  | cut => exact Or.inl ⟨Or.inr rfl, hyields'⟩
  | unknown code offset => exact Or.inr ⟨code, offset, rfl, hyields'⟩

end InstructionStream

end Cil
