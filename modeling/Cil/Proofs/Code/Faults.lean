/-
How decoding fails.

Of bytes that are not instructions to the end, the rest starts in one of two ways.  Either it starts
with a code that no opcode has, or it is the start of an instruction and ends before the instruction
does.  `decode_unknown_iff` and `truncated_iff_cutShort` say so of one instruction.

For the second one, an instruction has to be found that goes on where the bytes end.  It is had by
adding zeros until the decoder is satisfied (`exists_completion`): a jump table whose count was cut
gets as many zeros as make up the count, and then the table that the count asks for.
-/
import Cil.Code.Listing
import Cil.Proofs.Code.Stream

namespace Cil

namespace Code

/-- The bytes start with a code, and the tail comes after it. -/
inductive StartsWithCode (tail : List UInt8) : UInt16 → List UInt8 → Prop where
  | short {first : UInt8} (h : first ≠ Opcode.escape) :
    StartsWithCode tail first.toUInt16 (first :: tail)
  | long {second : UInt8} :
    StartsWithCode tail (Opcode.escapedCode second) (Opcode.escape :: second :: tail)

/-- The bytes start with a code that no opcode has. -/
def Unassigned (code : UInt16) (bytes : List UInt8) : Prop :=
  Opcode.ofCode? code = none ∧ ∃ tail, StartsWithCode tail code bytes

/-- The bytes are the start of a well-formed instruction, but not all of it. -/
def CutShort (bytes : List UInt8) : Prop :=
  bytes ≠ [] ∧ ∃ i : Instruction, i.isWellFormed = true ∧ bytes <+: i.bytes ∧ bytes ≠ i.bytes

theorem StartsWithCode.append {tail bytes : List UInt8} {code : UInt16}
    (h : StartsWithCode tail code bytes) (more : List UInt8) :
    StartsWithCode (tail ++ more) code (bytes ++ more) := by
  cases h with
  | short hfirst => exact .short hfirst
  | long => exact .long

theorem StartsWithCode.decode_eq {tail bytes : List UInt8} {code : UInt16}
    (h : StartsWithCode tail code bytes) :
    decode bytes = decodeAfterCode code (bytes.length - tail.length) tail := by
  cases h with
  | short hfirst => simp [decode, hfirst]
  | long =>
    have htaken : ∀ second : UInt8,
        (Opcode.escape :: second :: tail).length - tail.length = 2 := by
      intro second
      simp only [List.length_cons]
      omega
    rw [htaken, decode, if_pos rfl]

/-- Bytes that end before their first code does. -/
theorem startsWithCode_or (bytes : List UInt8) :
    (bytes = [] ∨ bytes = [Opcode.escape]) ∨ ∃ code tail, StartsWithCode tail code bytes := by
  cases bytes with
  | nil => exact Or.inl (Or.inl rfl)
  | cons first bytes =>
    by_cases hfirst : first = Opcode.escape
    · subst hfirst
      cases bytes with
      | nil => exact Or.inl (Or.inr rfl)
      | cons second tail => exact Or.inr ⟨_, tail, .long⟩
    · exact Or.inr ⟨_, bytes, .short hfirst⟩

/-! ### Unknown codes -/

theorem decodeOperand_ne_unknown (op : Opcode) (taken : Nat) (bytes : List UInt8) (code : UInt16) :
    decodeOperand op taken bytes ≠ .error (.unknown code) := by
  unfold decodeOperand
  intro h
  split at h
  · split at h <;> simp at h
  · split at h
    · dsimp only at h
      split at h <;> simp at h
    · simp at h

theorem decodeAfterCode_unknown_iff {code found : UInt16} {taken : Nat} {bytes : List UInt8} :
    decodeAfterCode code taken bytes = .error (.unknown found) ↔
      Opcode.ofCode? code = none ∧ code = found := by
  unfold decodeAfterCode
  cases Opcode.ofCode? code with
  | none => simp
  | some op => simp [decodeOperand_ne_unknown]

/-- **Decoding meets an unknown code just if the bytes start with one.** -/
theorem decode_unknown_iff {code : UInt16} {bytes : List UInt8} :
    decode bytes = .error (.unknown code) ↔ Unassigned code bytes := by
  constructor
  · intro h
    rcases startsWithCode_or bytes with (rfl | rfl) | ⟨found, tail, hstarts⟩
    · simp [decode] at h
    · simp [decode] at h
    · rw [hstarts.decode_eq, decodeAfterCode_unknown_iff] at h
      obtain ⟨hnone, rfl⟩ := h
      exact ⟨hnone, tail, hstarts⟩
  · rintro ⟨hnone, tail, hstarts⟩
    rw [hstarts.decode_eq, decodeAfterCode_unknown_iff]
    exact ⟨hnone, rfl⟩

/-! ### Bytes that end too early -/

theorem splitBytes?_eq_none_iff {n : Nat} {bytes : List UInt8} :
    splitBytes? n bytes = none ↔ bytes.length < n := by
  induction n generalizing bytes with
  | zero => simp [splitBytes?]
  | succ n ih =>
    cases bytes with
    | nil => simp [splitBytes?]
    | cons b bytes => simp [splitBytes?, ih]

/-- Zeros to bring some bytes to a length. -/
def zerosUpTo (n : Nat) (bytes : List UInt8) : List UInt8 :=
  List.replicate (n - bytes.length) 0

theorem zerosUpTo_ne_nil {n : Nat} {bytes : List UInt8} (h : bytes.length < n) :
    zerosUpTo n bytes ≠ [] := by
  simp [zerosUpTo]
  omega

theorem splitBytes?_zerosUpTo {n : Nat} {bytes : List UInt8} (h : bytes.length ≤ n)
    (more : List UInt8) :
    splitBytes? n (bytes ++ (zerosUpTo n bytes ++ more)) = some (bytes ++ zerosUpTo n bytes, more) := by
  rw [← List.append_assoc]
  apply splitBytes?_append
  simp [zerosUpTo]
  omega

/-- Bytes that end inside an operand: a number lacks bytes, or the count of a jump table does, or the
table itself. -/
inductive OperandCut (op : Opcode) (bytes : List UInt8) : Prop where
  | number {n : Nat} (hsize : op.operandKind.size? = some n) (hlt : bytes.length < n)
  | count (hsize : op.operandKind.size? = none) (hlt : bytes.length < 4)
  | table (hsize : op.operandKind.size? = none) {front body : List UInt8} (heq : bytes = front ++ body)
    (hfront : front.length = 4) (hlt : body.length < 4 * ofLittleEndian front)

theorem operandCut_of_truncated {op : Opcode} {taken : Nat} {bytes : List UInt8}
    (h : decodeOperand op taken bytes = .error .truncated) : OperandCut op bytes := by
  unfold decodeOperand at h
  split at h
  · next n hsize =>
    split at h
    · simp at h
    · next hsplit => exact .number hsize (splitBytes?_eq_none_iff.mp hsplit)
  · next hsize =>
    split at h
    · next front body hsplit =>
      dsimp only at h
      obtain ⟨heq, hfront⟩ := append_of_splitBytes? hsplit
      split at h
      · simp at h
      · next hbody => exact .table hsize heq.symm hfront (splitBytes?_eq_none_iff.mp hbody)
    · next hsplit => exact .count hsize (splitBytes?_eq_none_iff.mp hsplit)

theorem decodeOperand_of_number {op : Opcode} {n : Nat} {bytes front rest : List UInt8}
    (hsize : op.operandKind.size? = some n) (hsplit : splitBytes? n bytes = some (front, rest))
    (taken : Nat) : decodeOperand op taken bytes
      = .ok ⟨.plain op (op.operandKind.read (ofLittleEndian front)), taken + n, rest⟩ := by
  simp [decodeOperand, hsize, hsplit]

theorem decodeOperand_of_table {op : Opcode} {bytes front body table rest : List UInt8}
    (hsize : op.operandKind.size? = none) (hcount : splitBytes? 4 bytes = some (front, body))
    (htable : splitBytes? (4 * ofLittleEndian front) body = some (table, rest)) (taken : Nat) :
    decodeOperand op taken bytes
      = .ok ⟨.switch (offsets table), taken + 4 + 4 * ofLittleEndian front, rest⟩ := by
  simp [decodeOperand, hsize, hcount, htable]

/-- An operand that is cut can be completed. -/
theorem OperandCut.exists_completion {op : Opcode} {bytes : List UInt8} (h : OperandCut op bytes)
    (taken : Nat) :
    ∃ more d, more ≠ [] ∧ decodeOperand op taken (bytes ++ more) = .ok d ∧ d.rest = [] := by
  cases h with
  | @number n hsize hlt =>
    have hfull := splitBytes?_zerosUpTo (Nat.le_of_lt hlt) []
    rw [List.append_nil] at hfull
    exact ⟨_, _, zerosUpTo_ne_nil hlt, decodeOperand_of_number hsize hfull taken, rfl⟩
  | count hsize hlt =>
    -- Whatever the count comes to, the table that it asks for is added too.
    have hnone : ([] : List UInt8).length ≤ 4 * ofLittleEndian (bytes ++ zerosUpTo 4 bytes) :=
      Nat.zero_le _
    have htable := splitBytes?_zerosUpTo hnone []
    rw [List.append_nil, List.nil_append] at htable
    have hcount := splitBytes?_zerosUpTo (Nat.le_of_lt hlt)
      (zerosUpTo (4 * ofLittleEndian (bytes ++ zerosUpTo 4 bytes)) [])
    refine ⟨_, _, ?_, decodeOperand_of_table hsize hcount htable taken, rfl⟩
    simp [zerosUpTo_ne_nil hlt]
  | @table hsize front body heq hfront hlt =>
    have htable := splitBytes?_zerosUpTo (Nat.le_of_lt hlt) []
    rw [List.append_nil] at htable
    have hcount := splitBytes?_append hfront (body ++ zerosUpTo (4 * ofLittleEndian front) body)
    rw [← List.append_assoc, ← heq] at hcount
    exact ⟨_, _, zerosUpTo_ne_nil hlt, decodeOperand_of_table hsize hcount htable taken, rfl⟩

/-- Bytes that end inside an instruction can be completed. -/
theorem exists_completion {bytes : List UInt8} (h : decode bytes = .error .truncated) :
    ∃ more d, more ≠ [] ∧ decode (bytes ++ more) = .ok d ∧ d.rest = [] := by
  rcases startsWithCode_or bytes with (rfl | rfl) | ⟨code, tail, hstarts⟩
  · exact ⟨Opcode.nop.bytes, ⟨.plain .nop .none, 1, []⟩, by decide, rfl, rfl⟩
  · exact ⟨[0x01], ⟨.plain .ceq .none, 2, []⟩, by decide, rfl, rfl⟩
  · rw [hstarts.decode_eq] at h
    unfold decodeAfterCode at h
    cases hop : Opcode.ofCode? code with
    | none => simp [hop] at h
    | some op =>
      simp only [hop] at h
      obtain ⟨more, d, hne, hdecode, hrest⟩ := (operandCut_of_truncated h).exists_completion _
      refine ⟨more, d, hne, ?_, hrest⟩
      have hlength : (bytes ++ more).length - (tail ++ more).length
          = bytes.length - tail.length := by
        simp only [List.length_append]
        omega
      rw [(hstarts.append more).decode_eq, hlength, decodeAfterCode, hop]
      exact hdecode

/-- **Bytes that start with no instruction run out just if they are cut short**, unless there are none.
Those that start with one may be cut short too, if the whole is a jump table too long to be counted. -/
theorem truncated_iff_cutShort {bytes : List UInt8} {fault : Fault} (h : decode bytes = .error fault) :
    bytes ≠ [] ∧ fault = .truncated ↔ CutShort bytes := by
  constructor
  · rintro ⟨hne, rfl⟩
    obtain ⟨more, d, hmore, hdecode, hrest⟩ := exists_completion h
    have hreads := reads_of_decode hdecode
    have hbytes : bytes ++ more = d.instruction.bytes := by
      rw [hreads.bytes_eq, hrest, List.append_nil]
    refine ⟨hne, d.instruction, hreads.isWellFormed, ⟨more, hbytes⟩, ?_⟩
    intro heq
    exact hmore (by simpa [← heq] using hbytes)
  · rintro ⟨hne, i, hformed, ⟨more, hbytes⟩, -⟩
    refine ⟨hne, ?_⟩
    cases fault with
    | truncated => rfl
    | unknown code =>
      -- A bad code would stay one with more bytes behind it, but those of an instruction start with none.
      obtain ⟨hnone, tail, hstarts⟩ := decode_unknown_iff.mp h
      have hbad := decode_unknown_iff.mpr ⟨hnone, _, hstarts.append more⟩
      obtain ⟨d, hd⟩ := exists_decode_bytes hformed
      rw [hbytes, hd] at hbad
      exact nomatch hbad

/-! ### Listings -/

/-- A listing fails just if what is read ends with an error, and with that error. -/
theorem listItems_error_iff {items : List Reader.Item} {is : List Instruction}
    {ending : Option DecodeError}
    (h : items.map Reader.Item.result = is.map .ok ++ ending.toList.map .error) (e : DecodeError) :
    listItems items = .error e ↔ ending = some e := by
  induction is generalizing items with
  | nil =>
    cases ending with
    | none =>
      have hnil : items = [] := by simpa using h
      simp [hnil, listItems]
    | some e' =>
      obtain ⟨item, rfl, hitem⟩ : ∃ item, items = [item] ∧ item.result = .error e' := by
        simpa [List.map_eq_singleton_iff] using h
      simp [listItems, hitem]
  | cons i rest ih =>
    obtain ⟨item, items, rfl, hitem, hitems⟩ := List.map_eq_cons_iff.mp h
    rw [listItems, hitem, ← ih hitems]
    cases listItems items <;> simp [Except.map]

end Code

/-- **How a stream of bytes ends.**  After some instructions it ends cleanly, and then they take all
the bytes; or with an unknown code at the offset after them, which is the code that stands there; or
with the end of the bytes, and that just if what is left is the start of a well-formed instruction but
not all of it.  After that it yields nothing for ever.  A listing fails in the last two cases only,
with the same error. -/
theorem InstructionStream.exists_ending (bytes : List UInt8) :
    ∃ (is : List Instruction) (ending : Option DecodeError),
      (ofBytes bytes).Yields (is.map .ok ++ ending.toList.map .error) ∧
      (ending = none ↔ Code.extent is = bytes.length) ∧
      (∀ code offset, ending = some (.unknownOpcode code offset) ↔
        offset = Code.extent is ∧ Code.Unassigned code (bytes.drop (Code.extent is))) ∧
      (∀ offset, ending = some (.endOfStream offset) ↔
        offset = bytes.length ∧ Code.CutShort (bytes.drop (Code.extent is))) ∧
      (∀ offset, ending ≠ some (.readFailed offset)) ∧
      ∀ e, Code.listing bytes = .error e ↔ ending = some e := by
  obtain ⟨is, rest, hsplit⟩ := Code.exists_split bytes
  have hrest : bytes.drop (Code.extent is) = rest := by
    rw [hsplit.bytes_eq, ← Code.length_flatMap_bytes, List.drop_left]
  have hlength : bytes.length = Code.extent is + rest.length := by
    rw [hsplit.bytes_eq, List.length_append, Code.length_flatMap_bytes]
  have hlisting : ∀ {ending : Option DecodeError},
      (ofBytes bytes).Yields (is.map .ok ++ ending.toList.map .error) →
      ∀ e, Code.listing bytes = .error e ↔ ending = some e := by
    intro ending hyields e
    rw [← Code.listItems_error_iff ((yields_items { rest := bytes }).unique hyields) e]
    unfold Code.listing Code.items
    cases Code.listItems (Reader.items { rest := bytes }) <;> simp [Except.map]
  obtain ⟨fault, hfault⟩ := hsplit.stops
  by_cases hnil : rest = []
  · have hyields : (ofBytes bytes).Yields
        (is.map .ok ++ (none : Option DecodeError).toList.map .error) :=
      hsplit.yields (hnil ▸ yields_of_end _)
    refine ⟨is, none, hyields, ?_, ?_, ?_, by simp, hlisting hyields⟩
    · simp [hlength, hnil]
    · simp [hrest, ← Code.decode_unknown_iff, hnil, Code.decode]
    · intro offset
      rw [hrest, ← Code.truncated_iff_cutShort hfault]
      simp [hnil]
  · have hyields : (ofBytes bytes).Yields
        (is.map .ok ++ (some (Reader.faultError ⟨rest, Code.extent is, .ends⟩ fault)).toList.map .error) :=
      hsplit.yields (yields_of_fault hnil hfault)
    refine ⟨is, _, hyields, ?_, ?_, ?_, ?_, hlisting hyields⟩
    · have := List.length_pos_iff.mpr hnil
      simp
      omega
    · intro code offset
      rw [hrest, ← Code.decode_unknown_iff, hfault]
      cases fault <;> simp [Reader.faultError, Reader.stopError, eq_comm, and_comm]
    · intro offset
      rw [hrest, ← Code.truncated_iff_cutShort hfault, hlength]
      cases fault <;> simp [Reader.faultError, Reader.stopError, hnil, eq_comm]
    · cases fault <;> simp [Reader.faultError, Reader.stopError]

end Cil
