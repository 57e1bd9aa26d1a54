/-
An instruction is appended whole or not at all.

Two tables speak of the operands that an opcode can hold.  `Operand.fits` is asked first, and
`Operand.bytes?` gives the bytes when the opcode already stands in the buffer.  A value that passed the
first and had no bytes in the second would leave an opcode behind whose operand is missing.  By
`bytes?_of_fits` there is no such value, so the buffer either gets all bytes of the instruction or
stays as it was.
-/
import Cil.Proofs.Code.Codec

namespace Cil

/-- **A value that fits has bytes**, and they are its low ones, as many as the operand has. -/
theorem Operand.bytes?_of_fits {x : Operand} {k : OperandKind} (h : x.fits k = true) :
    x.bytes? k = some (Code.littleEndian (k.size?.getD 0) x.bits) := by
  cases x <;> cases k <;> first | rfl | exact nomatch h

namespace Instruction

/-- The opcode of a well-formed instruction is never left alone. -/
theorem operandBytes?_of_wellFormed {i : Instruction} (h : i.isWellFormed = true) :
    ∃ operand, i.operandBytes? = some operand ∧ i.bytes = i.opcode.bytes ++ operand := by
  cases i with
  | plain op x =>
    have hfits := (Bool.and_eq_true_iff.mp h).2
    exact ⟨_, Operand.bytes?_of_fits hfits, rfl⟩
  | switch offsets => exact ⟨_, rfl, List.append_assoc _ _ _⟩

theorem encodeInto_of_wellFormed {i : Instruction} (h : i.isWellFormed = true)
    (buffer : Array UInt8) : i.encodeInto buffer = .ok () (buffer.appendList i.bytes) := by
  obtain ⟨operand, hoperand, hbytes⟩ := operandBytes?_of_wellFormed h
  have hafter : (buffer.appendList i.opcode.bytes).appendList operand = buffer.appendList i.bytes := by
    apply Array.toList_inj.mp
    simp [hbytes]
  rw [← hafter]
  simp [encodeInto, h, hoperand]

theorem encodeInto_of_not_wellFormed {i : Instruction} (h : i.isWellFormed = false)
    (buffer : Array UInt8) : i.encodeInto buffer = .error i.misfit buffer := by
  simp [encodeInto, h]

theorem encode_eq {i : Instruction} (h : i.isWellFormed = true) : i.encode = .ok i.bytes := by
  simp [encode, encodeInto_of_wellFormed h]

/-- **An instruction is appended whole or not at all.**  It is appended just if its opcode can hold
the operand, and then the buffer grows by the size of the instruction.  Otherwise the error names the
opcode and the operand, and the buffer stays as it was.  An opcode that has been appended always gets
its operand. -/
theorem encodeInto_whole_or_unchanged (i : Instruction) (buffer : Array UInt8) :
    ((∃ after, i.encodeInto buffer = .ok () after) ↔ i.isWellFormed = true) ∧
      (∀ after, i.encodeInto buffer = .ok () after →
        ∃ new, after.toList = buffer.toList ++ new ∧ new.length = i.size) ∧
      (i.isWellFormed = false →
        i.encodeInto buffer
          = .error (.invalidOperand i.opcode (.value (i.operand?.getD .none))) buffer) ∧
      (i.isWellFormed = true → i.operandBytes? ≠ none) := by
  by_cases hformed : i.isWellFormed = true
  · have hok := encodeInto_of_wellFormed hformed buffer
    obtain ⟨operand, hoperand, -⟩ := operandBytes?_of_wellFormed hformed
    refine ⟨⟨fun _ => hformed, fun _ => ⟨_, hok⟩⟩, ?_, ?_, ?_⟩
    · intro after hafter
      rw [hok, EStateM.Result.ok.injEq] at hafter
      exact ⟨i.bytes, by simp [← hafter.2], Code.length_bytes_instruction i⟩
    · intro hnot
      simp [hformed] at hnot
    · simp [hoperand]
  · have hnot : i.isWellFormed = false := by simpa using hformed
    have herror := encodeInto_of_not_wellFormed hnot buffer
    simp [herror, hnot, misfit]

end Instruction

end Cil
