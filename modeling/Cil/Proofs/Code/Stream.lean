/-
What a stream of instructions hands out.

A stream can be asked for ever: `answer n` is what it says when it is asked for the time after `n`
times.  `Yields` says that its answers are those of a list, and nothing from then on.

Bytes that start with instructions are read up to the last of these, and then the stream goes on as
one that starts afresh behind them, except that every offset it reports is higher by what lies before
(`after_instructions` and `next_shift`).  Conversely all bytes fall into instructions and a rest that
starts with none (`exists_split`), so a stream that ends without an error has read instructions only
(`exists_yields_iff`).  The encodings of any instructions will not do: a jump table that is too long for its
count is written and not read back (`uncounted_table_unread`).
-/
import Cil.Proofs.Code.Encoding

namespace Cil

/-- The bytes that instructions take together. -/
def Code.extent : List Instruction → Nat
  | [] => 0
  | i :: rest => i.size + extent rest

theorem Code.length_flatMap_bytes (is : List Instruction) :
    (is.flatMap Instruction.bytes).length = extent is := by
  induction is with
  | nil => rfl
  | cons i rest ih => simp [extent, ih]

theorem Code.size_le_extent {is : List Instruction} {i : Instruction} (h : i ∈ is) :
    i.size ≤ extent is := by
  induction is with
  | nil => exact absurd h List.not_mem_nil
  | cons j rest ih =>
    rw [extent]
    rcases List.mem_cons.mp h with rfl | h
    · omega
    · have := ih h
      omega

/-- A table that four bytes cannot count does not fit into a few bytes either. -/
theorem Instruction.tableFits_of_size {i : Instruction} (h : i.size < 5 + 4 * 2 ^ 32) :
    i.TableFits := by
  cases i with
  | plain op x => trivial
  | switch os =>
    have hsize : 5 + 4 * os.length < 5 + 4 * 2 ^ 32 := h
    show os.length < 2 ^ 32
    omega

/-! ### Offsets -/

/-- The same error `n` bytes further on. -/
def DecodeError.shift (n : Nat) : DecodeError → DecodeError
  | endOfStream offset => endOfStream (n + offset)
  | unknownOpcode code offset => unknownOpcode code (n + offset)
  | readFailed offset => readFailed (n + offset)

/-- The same reader with `n` more bytes behind it. -/
def Reader.shift (n : Nat) (r : Reader) : Reader :=
  { r with offset := n + r.offset }

/-- A reader that started later finds the same. -/
theorem Reader.next_shift (n : Nat) (r : Reader) :
    (r.shift n).next = (r.next.1.mapError (DecodeError.shift n), r.next.2.shift n) := by
  obtain ⟨rest, offset, sourceEnd⟩ := r
  cases rest with
  | nil => cases sourceEnd <;> rfl
  | cons first bytes =>
    unfold next shift
    dsimp only
    cases Code.decode (first :: bytes) with
    | ok d => simp [Except.mapError, Nat.add_assoc]
    | error fault =>
      cases fault with
      | unknown code => simp [Except.mapError, DecodeError.shift, Nat.add_assoc]
      | truncated =>
        cases sourceEnd <;> simp [Except.mapError, stopError, DecodeError.shift, Nat.add_assoc]

namespace InstructionStream

/-- The same stream with `n` more bytes behind it. -/
def shift (n : Nat) (s : InstructionStream) : InstructionStream :=
  { s with reader := s.reader.shift n }

/-- The same answer from a stream that started `n` bytes later. -/
def shiftAnswer (n : Nat) (answer : Option (Except DecodeError Instruction)) :
    Option (Except DecodeError Instruction) :=
  answer.map (Except.mapError (DecodeError.shift n))

/-- **A stream that started later gives the same answers, with higher offsets.** -/
theorem next_shift (n : Nat) (s : InstructionStream) :
    (s.shift n).next = (shiftAnswer n s.next.1, s.next.2.shift n) := by
  obtain ⟨r, done⟩ := s
  cases done with
  | true => rfl
  | false =>
    unfold next shift
    simp only [Bool.false_eq_true, if_false, Reader.next_shift]
    rcases r.next with ⟨e | _ | i, r'⟩ <;> rfl

/-! ### Asking again and again -/

/-- The stream once it has been asked `n` times. -/
def after (s : InstructionStream) : Nat → InstructionStream
  | 0 => s
  | n + 1 => s.next.2.after n

/-- What the stream says when it has been asked `n` times before. -/
def answer (s : InstructionStream) (n : Nat) : Option (Except DecodeError Instruction) :=
  (s.after n).next.1

theorem after_add (s : InstructionStream) (m n : Nat) : s.after (m + n) = (s.after m).after n := by
  induction m generalizing s with
  | zero => simp [after]
  | succ m ih => rw [Nat.succ_add, after, after, ih]

theorem after_shift (k : Nat) (s : InstructionStream) (n : Nat) :
    (s.shift k).after n = (s.after n).shift k := by
  induction n generalizing s with
  | zero => rfl
  | succ n ih => rw [after, after, next_shift, ih]

/-- A stream that has ended has nothing more to say. -/
theorem answer_of_done {s : InstructionStream} (h : s.done = true) (n : Nat) :
    s.answer n = none := by
  have hnext : s.next = (none, s) := by simp [next, h]
  induction n with
  | zero => rw [answer, after, hnext]
  | succ n ih =>
    rw [answer, after, hnext]
    exact ih

/-- The answers are those of the list, and then there are none, however often one asks. -/
def Yields (s : InstructionStream) (results : List (Except DecodeError Instruction)) : Prop :=
  ∀ n, s.answer n = results[n]?

theorem Yields.unique {s : InstructionStream} {xs ys : List (Except DecodeError Instruction)}
    (hx : s.Yields xs) (hy : s.Yields ys) : xs = ys := by
  apply List.ext_getElem?
  intro n
  rw [← hx n, ← hy n]

theorem yields_nil {s s' : InstructionStream} (hnext : s.next = (none, s'))
    (hdone : s'.done = true) : s.Yields [] := by
  intro n
  rw [List.getElem?_nil]
  cases n with
  | zero => rw [answer, after, hnext]
  | succ n =>
    rw [answer, after, hnext]
    exact answer_of_done hdone n

theorem yields_cons {s s' : InstructionStream} {x : Except DecodeError Instruction}
    {xs : List (Except DecodeError Instruction)} (hnext : s.next = (some x, s'))
    (h : s'.Yields xs) : s.Yields (x :: xs) := by
  intro n
  cases n with
  | zero => rw [answer, after, hnext, List.getElem?_cons_zero]
  | succ n =>
    rw [answer, after, hnext, List.getElem?_cons_succ]
    exact h n

/-! ### One instruction -/

theorem next_of_instruction {r s : Reader} {i : Instruction} (h : r.next = (.ok (some i), s)) :
    (⟨r, false⟩ : InstructionStream).next = (some (.ok i), ⟨s, false⟩) := by
  simp [next, h]

theorem next_of_decode {r : Reader} {d : Code.Decoded} (h : Code.decode r.rest = .ok d) :
    (⟨r, false⟩ : InstructionStream).next = (some (.ok d.instruction),
      ⟨{ r with rest := d.rest, offset := r.offset + d.length }, false⟩) :=
  next_of_instruction (Reader.next_of_decode h)

theorem yields_of_none {r s : Reader} (h : r.next = (.ok none, s)) :
    (⟨r, false⟩ : InstructionStream).Yields [] := by
  have hlast : (⟨r, false⟩ : InstructionStream).next = (none, ⟨s, true⟩) := by
    simp [next, h]
  exact yields_nil hlast rfl

/-- Nothing comes after an error. -/
theorem yields_of_error {r s : Reader} {e : DecodeError} (h : r.next = (.error e, s)) :
    (⟨r, false⟩ : InstructionStream).Yields [.error e] := by
  have hlast : (⟨r, false⟩ : InstructionStream).next = (some (.error e), ⟨s, true⟩) := by
    simp [next, h]
  exact yields_cons hlast (answer_of_done rfl)

theorem yields_of_fault {r : Reader} {fault : Code.Fault} (hne : r.rest ≠ [])
    (h : Code.decode r.rest = .error fault) :
    (⟨r, false⟩ : InstructionStream).Yields [.error (r.faultError fault)] := by
  obtain ⟨s, hnext⟩ := Reader.next_of_fault hne h
  exact yields_of_error hnext

theorem yields_of_end (offset : Nat) :
    (⟨{ rest := [], offset }, false⟩ : InstructionStream).Yields [] :=
  yields_nil rfl rfl

/-- A stream yields what its reader lists. -/
theorem yields_items (r : Reader) :
    (⟨r, false⟩ : InstructionStream).Yields (r.items.map Reader.Item.result) := by
  rw [Reader.items]
  split
  · next s hnext => exact yields_of_none hnext
  · next i s hnext => exact yields_cons (next_of_instruction hnext) (yields_items s)
  · next e s hnext => exact yields_of_error hnext
termination_by r.rest.length
decreasing_by exact Reader.length_rest_of_next (by assumption)

/-! ### Instructions one after another -/

/-- The stream of a reader that has some instructions before what it is to read. -/
def before (is : List Instruction) (r : Reader) : InstructionStream :=
  ⟨{ r with rest := is.flatMap Instruction.bytes ++ r.rest }, false⟩

theorem next_before_cons {i : Instruction} (hformed : i.isWellFormed = true) (htable : i.TableFits)
    (is : List Instruction) (r : Reader) :
    (before (i :: is) r).next
      = (some (.ok i.asRead), before is { r with offset := r.offset + i.size }) := by
  have hdecode := Code.decode_bytes_append hformed htable (is.flatMap Instruction.bytes ++ r.rest)
  rw [← List.append_assoc, ← List.flatMap_cons] at hdecode
  exact next_of_decode (r := { r with rest := (i :: is).flatMap Instruction.bytes ++ r.rest }) hdecode

/-- **Instructions are read up to the last byte of the last one.** -/
theorem after_instructions {is : List Instruction}
    (h : ∀ i ∈ is, i.isWellFormed = true ∧ i.TableFits) (r : Reader) :
    (before is r).after is.length
      = ⟨{ r with offset := r.offset + Code.extent is }, false⟩ := by
  induction is generalizing r with
  | nil => rfl
  | cons i rest ih =>
    obtain ⟨hformed, htable⟩ := h i (by simp)
    have hrest : ∀ j ∈ rest, j.isWellFormed = true ∧ j.TableFits := by
      intro j hj
      exact h j (by simp [hj])
    rw [List.length_cons, after, next_before_cons hformed htable, ih hrest]
    simp [Code.extent, Nat.add_assoc]

theorem yields_instructions {is : List Instruction}
    (h : ∀ i ∈ is, i.isWellFormed = true ∧ i.TableFits) (r : Reader)
    {results : List (Except DecodeError Instruction)}
    (hresults : (⟨{ r with offset := r.offset + Code.extent is }, false⟩ :
      InstructionStream).Yields results) :
    (before is r).Yields (is.map (fun i => .ok i.asRead) ++ results) := by
  induction is generalizing r with
  | nil => exact hresults
  | cons i rest ih =>
    obtain ⟨hformed, htable⟩ := h i (by simp)
    have hrest : ∀ j ∈ rest, j.isWellFormed = true ∧ j.TableFits := by
      intro j hj
      exact h j (by simp [hj])
    refine yields_cons (next_before_cons hformed htable rest r) (ih hrest _ ?_)
    rw [Code.extent, ← Nat.add_assoc] at hresults
    exact hresults

/-- The answers along instructions, one by one. -/
theorem answer_before {is : List Instruction} (h : ∀ i ∈ is, i.isWellFormed = true ∧ i.TableFits)
    (r : Reader) {n : Nat} {i : Instruction} (hn : is[n]? = some i) :
    (before is r).answer n = some (.ok i.asRead) := by
  have hyields := yields_instructions h r (yields_items { r with offset := r.offset + Code.extent is })
  have hlt : n < is.length := (List.getElem?_eq_some_iff.mp hn).1
  rw [hyields n, List.getElem?_append_left (by simpa using hlt), List.getElem?_map, hn]
  rfl

/-- The offsets along instructions, one by one. -/
theorem offset_after_before {is : List Instruction}
    (h : ∀ i ∈ is, i.isWellFormed = true ∧ i.TableFits) (r : Reader) {n : Nat} (hn : n ≤ is.length) :
    ((before is r).after n).offset = r.offset + Code.extent (is.take n) := by
  have hsplit : before is r
      = before (is.take n) { r with rest := (is.drop n).flatMap Instruction.bytes ++ r.rest } := by
    unfold before
    rw [← List.append_assoc, ← List.flatMap_append, List.take_append_drop]
  have htake : ∀ i ∈ is.take n, i.isWellFormed = true ∧ i.TableFits := by
    intro i hi
    exact h i (List.mem_of_mem_take hi)
  have hafter := after_instructions htake
    { r with rest := (is.drop n).flatMap Instruction.bytes ++ r.rest }
  rw [List.length_take, Nat.min_eq_left hn] at hafter
  rw [hsplit, hafter]
  rfl

end InstructionStream

/-- **What was written is read back, and then comes what follows it.**  Every instruction takes the
bytes it is said to take.  Bytes that start with instructions give these, as they are read back, and
from then on what a stream of the bytes behind them gives, each offset higher by the length of the
encodings. -/
theorem InstructionStream.answers_of_encodings {is : List Instruction}
    (h : ∀ i ∈ is, i.isWellFormed = true ∧ i.TableFits) (rest : List UInt8) :
    (∀ i ∈ is, i.encode = .ok i.bytes ∧ i.bytes.length = i.size) ∧
      (∀ n i, is[n]? = some i →
        (ofBytes (is.flatMap Instruction.bytes ++ rest)).answer n = some (.ok i.asRead) ∧
        ((ofBytes (is.flatMap Instruction.bytes ++ rest)).after n).offset
          = Code.extent (is.take n)) ∧
      ∀ n, (ofBytes (is.flatMap Instruction.bytes ++ rest)).answer (is.length + n)
          = shiftAnswer (is.flatMap Instruction.bytes).length ((ofBytes rest).answer n) ∧
        ((ofBytes (is.flatMap Instruction.bytes ++ rest)).after (is.length + n)).offset
          = (is.flatMap Instruction.bytes).length + ((ofBytes rest).after n).offset := by
  have hstream : ofBytes (is.flatMap Instruction.bytes ++ rest) = before is { rest := rest } := rfl
  refine ⟨?encode, ?along, ?behind⟩
  case encode =>
    intro i hi
    exact ⟨Instruction.encode_eq (h i hi).1, by simp⟩
  case along =>
    intro n i hn
    have hle : n ≤ is.length := Nat.le_of_lt (List.getElem?_eq_some_iff.mp hn).1
    rw [hstream, answer_before h _ hn, offset_after_before h _ hle]
    simp
  case behind =>
    intro n
    -- Behind the instructions stands a fresh stream with all of them in its past.
    have hbehind : (before is { rest := rest }).after is.length
        = (ofBytes rest).shift (is.flatMap Instruction.bytes).length := by
      rw [after_instructions h, Code.length_flatMap_bytes]
      simp [shift, Reader.shift, ofBytes]
    rw [hstream, answer, after_add, hbehind, after_shift, next_shift]
    exact ⟨rfl, rfl⟩

/-- Operands of several kinds: an integer where a token is wanted, a signed byte, a jump table and a
float that is not a number. -/
def mixedCode : List Instruction :=
  [.plain .call (.int32 0x06000002), .plain .ldcI4S (.int32 (-5)), .switch [4, -8],
    .plain .ldcR8 (.float64 0x7FF8000000000001), .plain .ceq .none]

/-- Followed by two bytes of an instruction of five. -/
theorem InstructionStream.answers_mixedCode :
    (∀ i ∈ mixedCode, i.isWellFormed = true ∧ i.TableFits) ∧
      (ofBytes (mixedCode.flatMap Instruction.bytes ++ [0x20, 0x01])).answer 0
        = some (.ok (.plain .call (.token ⟨0x06000002⟩))) ∧
      (ofBytes (mixedCode.flatMap Instruction.bytes ++ [0x20, 0x01])).answer 5
        = some (.error (.endOfStream 33)) := by
  have hformed : ∀ i ∈ mixedCode, i.isWellFormed = true ∧ i.TableFits := by
    have htables : ∀ i ∈ mixedCode, i.TableFits := by
      simp [mixedCode, Instruction.TableFits]
    have hoperands : ∀ i ∈ mixedCode, i.isWellFormed = true := by decide
    intro i hi
    exact ⟨hoperands i hi, htables i hi⟩
  obtain ⟨-, halong, hbehind⟩ := answers_of_encodings hformed [0x20, 0x01]
  have hlast : (ofBytes [0x20, 0x01]).answer 0 = some (.error (.endOfStream 2)) := rfl
  have hfifth := (hbehind 0).1
  rw [hlast] at hfifth
  exact ⟨hformed, (halong 0 _ rfl).1, hfifth⟩

/-! ### Where instructions stop -/

namespace Code

/-- The bytes are those of the instructions, and then comes a rest that starts with none. -/
structure Splits (bytes : List UInt8) (is : List Instruction) (rest : List UInt8) : Prop where
  bytes_eq : bytes = is.flatMap Instruction.bytes ++ rest
  formed : ∀ i ∈ is, i.isWellFormed = true ∧ i.TableFits
  asRead : ∀ i ∈ is, i.asRead = i
  stops : ∃ fault, decode rest = .error fault

/-- **All bytes are instructions up to some point.** -/
theorem exists_split (bytes : List UInt8) : ∃ is rest, Splits bytes is rest := by
  cases hdecode : decode bytes with
  | error fault => exact ⟨[], bytes, rfl, by simp, by simp, fault, hdecode⟩
  | ok d =>
    have hreads := reads_of_decode hdecode
    obtain ⟨is, rest, hsplits⟩ := exists_split d.rest
    refine ⟨d.instruction :: is, rest, ?_, ?_, ?_, hsplits.stops⟩
    · rw [List.flatMap_cons, List.append_assoc, ← hsplits.bytes_eq]
      exact hreads.bytes_eq
    · intro i hi
      rcases List.mem_cons.mp hi with rfl | hi
      · exact ⟨hreads.isWellFormed, hreads.tableFits⟩
      · exact hsplits.formed i hi
    · intro i hi
      rcases List.mem_cons.mp hi with rfl | hi
      · exact hreads.asRead
      · exact hsplits.asRead i hi
termination_by bytes.length
decreasing_by exact length_rest_of_decode hdecode

/-- A stream yields the instructions, and then what one of the rest would. -/
theorem Splits.yields {bytes rest : List UInt8} {is : List Instruction}
    {results : List (Except DecodeError Instruction)} (h : Splits bytes is rest)
    (hresults : (⟨{ rest, offset := extent is }, false⟩ : InstructionStream).Yields results) :
    (InstructionStream.ofBytes bytes).Yields (is.map .ok ++ results) := by
  have hread : is.map (fun i => (.ok i.asRead : Except DecodeError Instruction)) = is.map .ok := by
    apply List.map_congr_left
    intro i hi
    rw [h.asRead i hi]
  rw [← Nat.zero_add (extent is)] at hresults
  have hyields := InstructionStream.yields_instructions h.formed { rest := rest } hresults
  rw [hread] at hyields
  rw [h.bytes_eq]
  exact hyields

/-- If a stream yields instructions and nothing else, its bytes have no rest. -/
theorem Splits.of_yields_ok {bytes rest : List UInt8} {is js : List Instruction}
    (h : Splits bytes is rest) (hjs : (InstructionStream.ofBytes bytes).Yields (js.map .ok)) :
    js = is ∧ rest = [] := by
  have hok : ∀ {xs ys : List Instruction},
      (xs.map .ok : List (Except DecodeError Instruction)) = ys.map .ok → xs = ys := by
    intro xs ys heq
    exact List.map_injective_iff.mpr (fun _ _ => Except.ok.inj) heq
  by_cases hrest : rest = []
  · subst hrest
    have hyields := h.yields (InstructionStream.yields_of_end _)
    rw [List.append_nil] at hyields
    exact ⟨hok (hjs.unique hyields), rfl⟩
  · exfalso
    obtain ⟨fault, hfault⟩ := h.stops
    have hyields := h.yields (InstructionStream.yields_of_fault hrest hfault)
    obtain ⟨xs, ys, -, -, hys⟩ := List.append_eq_map_iff.mp (hyields.unique hjs)
    cases ys <;> simp at hys

end Code

namespace InstructionStream

section

variable {bytes : List UInt8} {is : List Instruction} (h : (ofBytes bytes).Yields (is.map .ok))
include h

/-- Bytes that are read to the end have no rest. -/
theorem splits_of_yields : Code.Splits bytes is [] := by
  obtain ⟨js, rest, hsplits⟩ := Code.exists_split bytes
  obtain ⟨rfl, rfl⟩ := hsplits.of_yields_ok h
  exact hsplits

theorem flatMap_bytes_of_yields : is.flatMap Instruction.bytes = bytes := by
  rw [(splits_of_yields h).bytes_eq, List.append_nil]

end

/-- Bytes can be read to the end just if they are the encodings of instructions whose jump tables four
bytes can count. -/
theorem exists_yields_iff (bytes : List UInt8) :
    (∃ is : List Instruction, (ofBytes bytes).Yields (is.map .ok)) ↔
      ∃ is : List Instruction, (∀ i ∈ is, i.isWellFormed = true ∧ i.TableFits) ∧
        is.flatMap Instruction.bytes = bytes := by
  constructor
  · rintro ⟨is, hyields⟩
    exact ⟨is, (splits_of_yields hyields).formed, flatMap_bytes_of_yields hyields⟩
  · rintro ⟨is, hformed, rfl⟩
    refine ⟨is.map Instruction.asRead, ?_⟩
    have hyields := yields_instructions hformed { rest := [] } (yields_of_end _)
    simpa [before, ofBytes, Function.comp_def] using hyields

end InstructionStream

/-- **What is read is written back.**  Bytes that a stream reads to the end are the encodings of the
instructions it yields, all of which can be encoded, and its offset is always the size of those
before.  So bytes can be read to the end just if they are the encodings of some instructions whose jump
tables four bytes can count, and no other bytes give the same ones.  Bytes that are too few for a longer
table need no such condition. -/
theorem InstructionStream.encodings_of_yields (bytes : List UInt8) :
    (∀ is : List Instruction, (ofBytes bytes).Yields (is.map .ok) →
      (∀ i ∈ is, i.isWellFormed = true ∧ i.encode = .ok i.bytes) ∧
      (∀ k ≤ is.length, ((ofBytes bytes).after k).offset = Code.extent (is.take k)) ∧
      is.flatMap Instruction.bytes = bytes) ∧
    ((∃ is : List Instruction, (ofBytes bytes).Yields (is.map .ok)) ↔
      ∃ is : List Instruction, (∀ i ∈ is, i.isWellFormed = true ∧ i.TableFits) ∧
        is.flatMap Instruction.bytes = bytes) ∧
    (bytes.length < 5 + 4 * 2 ^ 32 →
      ((∃ is : List Instruction, (ofBytes bytes).Yields (is.map .ok)) ↔
        ∃ is : List Instruction, (∀ i ∈ is, i.isWellFormed = true) ∧
          is.flatMap Instruction.bytes = bytes)) ∧
    ∀ (is : List Instruction) (bytes' : List UInt8), (ofBytes bytes).Yields (is.map .ok) →
      (ofBytes bytes').Yields (is.map .ok) → bytes = bytes' := by
  refine ⟨?written, exists_yields_iff bytes, ?short, ?injective⟩
  case written =>
    intro is hyields
    have hformed := (splits_of_yields hyields).formed
    refine ⟨?_, ?_, flatMap_bytes_of_yields hyields⟩
    · intro i hi
      exact ⟨(hformed i hi).1, Instruction.encode_eq (hformed i hi).1⟩
    · intro k hk
      have hoffset := offset_after_before hformed { rest := [] } hk
      simpa [before, ofBytes, flatMap_bytes_of_yields hyields] using hoffset
  case short =>
    intro hlength
    rw [exists_yields_iff]
    constructor
    · rintro ⟨is, hformed, hflat⟩
      exact ⟨is, fun i hi => (hformed i hi).1, hflat⟩
    · rintro ⟨is, hformed, rfl⟩
      rw [Code.length_flatMap_bytes] at hlength
      refine ⟨is, fun i hi => ⟨hformed i hi, ?_⟩, rfl⟩
      exact Instruction.tableFits_of_size (Nat.lt_of_le_of_lt (Code.size_le_extent hi) hlength)
  case injective =>
    intro is bytes' hyields hyields'
    rw [← flatMap_bytes_of_yields hyields, ← flatMap_bytes_of_yields hyields']

/-- A table of `2 ^ 32` offsets is counted as none, and its first offset is read as a code. -/
theorem InstructionStream.yields_uncounted (os : List Int32) (hlength : os.length = 2 ^ 32)
    (hfirst : os.head? = some 0x24) :
    (ofBytes (Instruction.switch os).bytes).Yields
      [.ok (.switch []), .error (.unknownOpcode 0x24 5)] := by
  obtain ⟨rest, rfl⟩ : ∃ rest, os = 0x24 :: rest := List.head?_eq_some_iff.mp hfirst
  have hdecode := Code.decode_switch_append (0x24 :: rest) []
  rw [List.append_nil, hlength, Nat.mod_self, List.take_zero, List.drop_zero, List.append_nil] at hdecode
  -- No opcode has the code `0x24`, the lowest byte of the offset.
  have hunknown : Code.decode ((0x24 :: rest).flatMap offsetBytes) = .error (.unknown 0x24) := rfl
  have hne : (0x24 :: rest).flatMap offsetBytes ≠ [] := List.cons_ne_nil _ _
  have hbehind := yields_of_fault (r := { rest := (0x24 :: rest).flatMap offsetBytes, offset := 5 })
    hne hunknown
  exact yields_cons (next_of_decode (r := { rest := (Instruction.switch (0x24 :: rest)).bytes }) hdecode)
    hbehind

/-- **Not all that can be written can be read.**  A jump table of `2 ^ 32` offsets is well formed and has
an encoding, but these bytes cannot be read to the end. -/
theorem InstructionStream.uncounted_table_unread :
    let i : Instruction := .switch (List.replicate (2 ^ 32) 0x24)
    i.isWellFormed = true ∧ i.encode = .ok i.bytes ∧
      (ofBytes i.bytes).Yields [.ok (.switch []), .error (.unknownOpcode 0x24 5)] ∧
      ¬ ∃ is : List Instruction, (ofBytes i.bytes).Yields (is.map .ok) := by
  intro i
  have hyields := yields_uncounted (List.replicate (2 ^ 32) 0x24) List.length_replicate
    (by rw [List.head?_replicate, if_neg (by decide)])
  refine ⟨rfl, Instruction.encode_eq rfl, hyields, ?_⟩
  rintro ⟨is, his⟩
  have hsame := hyields.unique his
  cases is with
  | nil => exact nomatch hsame
  | cons j is => cases is <;> simp at hsame

end Cil
