/-
Decoding and encoding undo each other.

The bytes of an instruction say where it ends, so an instruction is read back from the front of
anything that starts with its bytes (`decode_bytes_append`), and conversely whatever is read from the
front of some bytes has just these bytes (`reads_of_decode`).  One thing is not kept: an integer that
stands where a token is wanted is read back as the token with the same bits.

A jump table is counted by four bytes, whatever its length is.  So a table of `2 ^ 32` offsets or more
has bytes too, but these are not read back as that table (`decode_switch_append`).
-/
import Cil.Proofs.Opcode
import Mathlib.Algebra.Group.Nat.Defs

namespace Cil

namespace Code

/-! ### Little-endian numbers -/

theorem ofLittleEndian_littleEndian (n value : Nat) :
    ofLittleEndian (littleEndian n value) = value % 256 ^ n := by
  induction n generalizing value with
  | zero => simp [littleEndian, ofLittleEndian, Nat.mod_one]
  | succ n ih =>
    have hlow : (UInt8.ofNat value).toNat = value % 256 := UInt8.toNat_ofNat
    rw [littleEndian, ofLittleEndian, ih, hlow, Nat.pow_succ', Nat.mod_mul]

theorem littleEndian_ofLittleEndian (bytes : List UInt8) :
    littleEndian bytes.length (ofLittleEndian bytes) = bytes := by
  induction bytes with
  | nil => rfl
  | cons b rest ih =>
    have hlt := b.toNat_lt
    have hlow : UInt8.ofNat (b.toNat + 256 * ofLittleEndian rest) = b := by
      apply UInt8.toNat_inj.mp
      rw [UInt8.toNat_ofNat']
      omega
    have hhigh : (b.toNat + 256 * ofLittleEndian rest) / 256 = ofLittleEndian rest := by omega
    rw [List.length_cons, ofLittleEndian, littleEndian, hlow, hhigh, ih]

theorem ofLittleEndian_lt (bytes : List UInt8) : ofLittleEndian bytes < 256 ^ bytes.length := by
  induction bytes with
  | nil => simp [ofLittleEndian]
  | cons b rest ih =>
    have hlt := b.toNat_lt
    rw [ofLittleEndian, List.length_cons, Nat.pow_succ']
    omega

/-- The bytes depend on the low bits only. -/
theorem littleEndian_mod (n value : Nat) : littleEndian n (value % 256 ^ n) = littleEndian n value := by
  have h := littleEndian_ofLittleEndian (littleEndian n value)
  rwa [length_littleEndian, ofLittleEndian_littleEndian] at h

theorem splitBytes?_append {n : Nat} {front : List UInt8} (h : front.length = n)
    (rest : List UInt8) : splitBytes? n (front ++ rest) = some (front, rest) := by
  induction front generalizing n with
  | nil =>
    subst h
    rfl
  | cons b front ih =>
    subst h
    rw [List.length_cons, List.cons_append, splitBytes?, ih rfl]
    rfl

end Code

/-! ### Operands -/

theorem toInt_eq_bmod (v : Int32) : v.toInt = Int.bmod v.toUInt32.toNat (2 ^ 32) := by
  rw [← Int32.toInt_toBitVec, BitVec.toInt_eq_toNat_bmod]
  rfl

theorem toInt_toInt8_eq_bmod (b : UInt8) : b.toInt8.toInt = Int.bmod b.toNat (2 ^ 8) := by
  rw [← Int8.toInt_toBitVec, BitVec.toInt_eq_toNat_bmod]
  rfl

/-- What a value is read back as where an operand of the given kind stands. -/
def Operand.asRead (k : OperandKind) : Operand → Operand
  | .int32 v => if k.isToken then .token ⟨v.toUInt32⟩ else .int32 v
  | x => x

namespace OperandKind

/-- A signed byte is read back from the low byte. -/
private theorem read_signedByte {v : Int32} (h : Operand.within (-128) 127 v = true) :
    (UInt8.ofNat (v.toUInt32.toNat % 256)).toInt8.toInt32 = v := by
  rw [Operand.within_iff] at h
  have hv := toInt_eq_bmod v
  have hlt := v.toUInt32.toNat_lt
  apply Int32.toInt_inj.mp
  rw [Int8.toInt_toInt32, toInt_toInt8_eq_bmod, UInt8.toNat_ofNat']
  rw [Int.bmod_def] at hv ⊢
  omega

/-- An index is read back from its low bits. -/
private theorem read_index {v : Int32} (high n : Nat) (h : Operand.within 0 high v = true)
    (hn : high < n) : (UInt32.ofNat (v.toUInt32.toNat % n)).toInt32 = v := by
  rw [Operand.within_iff] at h
  have hv := toInt_eq_bmod v
  have hlt := v.toUInt32.toNat_lt
  have hmod : v.toUInt32.toNat % n = v.toUInt32.toNat := by
    apply Nat.mod_eq_of_lt
    rw [Int.bmod_def] at hv
    omega
  rw [hmod, UInt32.ofNat_toNat, UInt32.toInt32, Int32.toUInt32]

private theorem ofNat_toNat_mod (v : UInt32) : UInt32.ofNat (v.toNat % 256 ^ 4) = v := by
  have hlt := v.toNat_lt
  rw [Nat.mod_eq_of_lt (by omega), UInt32.ofNat_toNat]

private theorem ofNat_toNat_mod64 (v : UInt64) : UInt64.ofNat (v.toNat % 256 ^ 8) = v := by
  have hlt := v.toNat_lt
  rw [Nat.mod_eq_of_lt (by omega), UInt64.ofNat_toNat]

/-- A value that fits is read back from as many of its low bits as the operand has. -/
theorem read_bits {k : OperandKind} {x : Operand} (hfits : x.fits k = true) :
    k.read (x.bits % 256 ^ k.size?.getD 0) = x.asRead k := by
  cases x with
  | none => cases k <;> first | rfl | exact nomatch hfits
  | int32 v =>
    have hword : (UInt32.ofNat (v.toUInt32.toNat % 256 ^ 4)).toInt32 = v := by
      rw [ofNat_toNat_mod, UInt32.toInt32, Int32.toUInt32]
    cases k with
    | int8 => exact congrArg Operand.int32 (read_signedByte hfits)
    | shortTarget => exact congrArg Operand.int32 (read_signedByte hfits)
    | shortVar => exact congrArg Operand.int32 (read_index 255 256 hfits (by decide))
    | var => exact congrArg Operand.int32 (read_index 65535 65536 hfits (by decide))
    | int32 => exact congrArg Operand.int32 hword
    | target => exact congrArg Operand.int32 hword
    | none => exact nomatch hfits
    | int64 => exact nomatch hfits
    | float32 => exact nomatch hfits
    | float64 => exact nomatch hfits
    | table => exact nomatch hfits
    | _ => exact congrArg (Operand.token ∘ Token.mk) (ofNat_toNat_mod v.toUInt32)
  | uint32 v => cases k <;> exact nomatch hfits
  | int64 v =>
    cases k with
    | int64 =>
      refine congrArg Operand.int64 ?_
      show (UInt64.ofNat (v.toUInt64.toNat % 256 ^ 8)).toInt64 = v
      rw [ofNat_toNat_mod64, UInt64.toInt64, Int64.toUInt64]
    | _ => exact nomatch hfits
  | float32 bits =>
    cases k with
    | float32 => exact congrArg Operand.float32 (ofNat_toNat_mod bits)
    | _ => exact nomatch hfits
  | float64 bits =>
    cases k with
    | float64 => exact congrArg Operand.float64 (ofNat_toNat_mod64 bits)
    | _ => exact nomatch hfits
  | token t =>
    have hread : Operand.token ⟨UInt32.ofNat (t.bits.toNat % 256 ^ 4)⟩ = .token t :=
      congrArg (Operand.token ∘ Token.mk) (ofNat_toNat_mod t.bits)
    cases k <;> first | exact hread | exact nomatch hfits

/-- Reading a signed byte. -/
private theorem signedByte_read {bits : Nat} (h : bits < 256) :
    Operand.within (-128) 127 (UInt8.ofNat bits).toInt8.toInt32 = true ∧
      (UInt8.ofNat bits).toInt8.toInt32.toUInt32.toNat % 256 = bits := by
  have hv := toInt_eq_bmod (UInt8.ofNat bits).toInt8.toInt32
  have hlt := (UInt8.ofNat bits).toInt8.toInt32.toUInt32.toNat_lt
  rw [Int8.toInt_toInt32, toInt_toInt8_eq_bmod, UInt8.toNat_ofNat', Int.bmod_def, Int.bmod_def] at hv
  rw [Operand.within_iff, Int8.toInt_toInt32, toInt_toInt8_eq_bmod, UInt8.toNat_ofNat', Int.bmod_def]
  omega

/-- Reading an index. -/
private theorem index_read {bits : Nat} (high n : Nat) (h : bits < n) (hn : n = high + 1)
    (hhigh : high < 65536) : Operand.within 0 high (UInt32.ofNat bits).toInt32 = true ∧
      (UInt32.ofNat bits).toInt32.toUInt32.toNat % n = bits := by
  have hv := toInt_eq_bmod (UInt32.ofNat bits).toInt32
  have hmod := Nat.mod_eq_of_lt h
  rw [UInt32.toUInt32_toInt32, UInt32.toNat_ofNat', Int.bmod_def] at hv
  rw [Operand.within_iff, UInt32.toUInt32_toInt32, UInt32.toNat_ofNat',
    Nat.mod_eq_of_lt (by omega : bits < 2 ^ 32)]
  omega

/-- What is read fits, has the bits it was read from and is read back as itself. -/
theorem bits_read {k : OperandKind} {n bits : Nat} (hsize : k.size? = some n)
    (hbits : bits < 256 ^ n) : (k.read bits).fits k = true ∧ (k.read bits).bits % 256 ^ n = bits ∧
      (k.read bits).asRead k = k.read bits := by
  have hword : bits < 256 ^ 4 → (UInt32.ofNat bits).toNat % 256 ^ 4 = bits := by
    intro hlt
    rw [UInt32.toNat_ofNat']
    omega
  have hlong : bits < 256 ^ 8 → (UInt64.ofNat bits).toNat % 256 ^ 8 = bits := by
    intro hlt
    rw [UInt64.toNat_ofNat']
    omega
  cases k with
  | none =>
    cases hsize
    exact ⟨rfl, (Nat.lt_one_iff.mp hbits).symm, rfl⟩
  | int8 =>
    cases hsize
    obtain ⟨hfits, hlow⟩ := signedByte_read hbits
    exact ⟨hfits, hlow, rfl⟩
  | shortTarget =>
    cases hsize
    obtain ⟨hfits, hlow⟩ := signedByte_read hbits
    exact ⟨hfits, hlow, rfl⟩
  | shortVar =>
    cases hsize
    obtain ⟨hfits, hlow⟩ := index_read 255 256 hbits rfl (by decide)
    exact ⟨hfits, hlow, rfl⟩
  | var =>
    cases hsize
    obtain ⟨hfits, hlow⟩ := index_read 65535 65536 hbits rfl (by decide)
    exact ⟨hfits, hlow, rfl⟩
  | int64 =>
    cases hsize
    refine ⟨rfl, ?_, rfl⟩
    show (UInt64.ofNat bits).toInt64.toUInt64.toNat % 256 ^ 8 = bits
    rw [UInt64.toUInt64_toInt64]
    exact hlong hbits
  | float64 =>
    cases hsize
    exact ⟨rfl, hlong hbits, rfl⟩
  | table => exact nomatch hsize
  | _ =>
    cases hsize
    exact ⟨rfl, hword hbits, rfl⟩

end OperandKind

/-! ### Instructions -/

/-- What an instruction is read back as. -/
def Instruction.asRead : Instruction → Instruction
  | .plain op x => .plain op (x.asRead op.operandKind)
  | .switch offsets => .switch offsets

/-- A jump table has a length that four bytes can hold. -/
def Instruction.TableFits : Instruction → Prop
  | .plain _ _ => True
  | .switch offsets => offsets.length < 2 ^ 32

namespace Code

theorem decode_opcode_append (op : Opcode) (rest : List UInt8) :
    decode (op.bytes ++ rest) = decodeOperand op op.size rest := by
  unfold Opcode.bytes Opcode.size
  cases htwo : op.isTwoByte with
  | true =>
    show decodeAfterCode (Opcode.escapedCode op.code.toUInt8) 2 rest = decodeOperand op 2 rest
    rw [decodeAfterCode, Opcode.escapedCode_code htwo, Opcode.ofCode?_code]
  | false =>
    obtain ⟨hescape, hcode⟩ := Opcode.toUInt16_code htwo
    show (if op.code.toUInt8 = Opcode.escape then _ else
      decodeAfterCode op.code.toUInt8.toUInt16 1 rest) = decodeOperand op 1 rest
    rw [if_neg hescape, decodeAfterCode, hcode, Opcode.ofCode?_code]

@[simp] theorem length_offsetBytes (o : Int32) : (offsetBytes o).length = 4 :=
  length_littleEndian 4 _

@[simp] theorem length_flatMap_offsetBytes (os : List Int32) :
    (os.flatMap offsetBytes).length = 4 * os.length := by
  induction os with
  | nil => rfl
  | cons o rest ih =>
    rw [List.flatMap_cons, List.length_append, length_offsetBytes, ih, List.length_cons]
    omega

@[simp] theorem length_bytes_instruction (i : Instruction) : i.bytes.length = i.size := by
  cases i with
  | plain op x =>
    rw [Instruction.bytes, List.length_append, Opcode.length_bytes, length_littleEndian]
    rfl
  | switch os =>
    rw [Instruction.bytes, List.length_append, List.length_append, Opcode.length_bytes,
      length_littleEndian, length_flatMap_offsetBytes]
    rfl

theorem size_pos (i : Instruction) : 0 < i.size := by
  cases i with
  | plain op x =>
    show 0 < op.size + _
    unfold Opcode.size
    split <;> omega
  | switch os =>
    show 0 < 5 + _
    omega

theorem offsets_flatMap_offsetBytes (os : List Int32) : offsets (os.flatMap offsetBytes) = os := by
  induction os with
  | nil => rfl
  | cons o rest ih =>
    have hread : (UInt32.ofNat (ofLittleEndian (offsetBytes o))).toInt32 = o := by
      rw [offsetBytes, ofLittleEndian_littleEndian, OperandKind.ofNat_toNat_mod, UInt32.toInt32,
        Int32.toUInt32]
    rw [List.flatMap_cons]
    show (UInt32.ofNat (ofLittleEndian (offsetBytes o))).toInt32
      :: offsets (rest.flatMap offsetBytes) = o :: rest
    rw [hread, ih]

theorem decode_plain_append {op : Opcode} {x : Operand}
    (hformed : (Instruction.plain op x).isWellFormed = true) (rest : List UInt8) :
    decode ((Instruction.plain op x).bytes ++ rest)
      = .ok ⟨(Instruction.plain op x).asRead, (Instruction.plain op x).size, rest⟩ := by
  obtain ⟨hkind, hfits⟩ := Bool.and_eq_true_iff.mp hformed
  obtain ⟨n, hn⟩ : ∃ n, op.operandKind.size? = some n := by
    cases hkind' : op.operandKind <;> first | exact ⟨_, rfl⟩ | simp [hkind'] at hkind
  have hread := OperandKind.read_bits hfits
  rw [hn, Option.getD_some] at hread
  rw [Instruction.bytes, List.append_assoc, decode_opcode_append, decodeOperand, hn,
    Option.getD_some]
  dsimp only
  rw [splitBytes?_append (length_littleEndian n x.bits)]
  dsimp only
  rw [ofLittleEndian_littleEndian, hread, Instruction.asRead, Instruction.size, hn,
    Option.getD_some]

/-- Four bytes hold the length of a jump table up to multiples of `2 ^ 32`.  A table that is longer is
read as so many of its offsets, and the others are left as if they were code. -/
theorem decode_switch_append (os : List Int32) (rest : List UInt8) :
    decode ((Instruction.switch os).bytes ++ rest)
      = .ok ⟨.switch (os.take (os.length % 2 ^ 32)), 5 + 4 * (os.length % 2 ^ 32),
          (os.drop (os.length % 2 ^ 32)).flatMap offsetBytes ++ rest⟩ := by
  have hcount : ofLittleEndian (littleEndian 4 os.length) = os.length % 2 ^ 32 :=
    ofLittleEndian_littleEndian 4 os.length
  have hle : os.length % 2 ^ 32 ≤ os.length := Nat.mod_le _ _
  generalize os.length % 2 ^ 32 = n at hcount hle ⊢
  have htable : os.flatMap offsetBytes
      = (os.take n).flatMap offsetBytes ++ (os.drop n).flatMap offsetBytes := by
    rw [← List.flatMap_append, List.take_append_drop]
  have hlength : ((os.take n).flatMap offsetBytes).length = 4 * n := by
    rw [length_flatMap_offsetBytes, List.length_take, Nat.min_eq_left hle]
  have hkind : Opcode.switch.operandKind.size? = none := rfl
  rw [Instruction.bytes, List.append_assoc, List.append_assoc, decode_opcode_append,
    decodeOperand, hkind]
  dsimp only
  rw [splitBytes?_append (length_littleEndian 4 os.length)]
  dsimp only
  rw [hcount, htable, List.append_assoc, splitBytes?_append hlength]
  dsimp only
  rw [offsets_flatMap_offsetBytes]
  rfl

/-- **An instruction is read back from anything that starts with its bytes**, if four bytes can count
its jump table. -/
theorem decode_bytes_append {i : Instruction} (hformed : i.isWellFormed = true) (htable : i.TableFits)
    (rest : List UInt8) : decode (i.bytes ++ rest) = .ok ⟨i.asRead, i.size, rest⟩ := by
  cases i with
  | plain op x => exact decode_plain_append hformed rest
  | switch os =>
    rw [decode_switch_append, Nat.mod_eq_of_lt htable, List.take_length, List.drop_length]
    rfl

/-- However long its jump table is, the bytes of an instruction start with an instruction. -/
theorem exists_decode_bytes {i : Instruction} (hformed : i.isWellFormed = true) :
    ∃ d, decode i.bytes = .ok d := by
  rw [← List.append_nil i.bytes]
  cases i with
  | plain op x => exact ⟨_, decode_plain_append hformed []⟩
  | switch os => exact ⟨_, decode_switch_append os []⟩

theorem flatMap_offsetBytes_offsets {n : Nat} {table : List UInt8} (h : table.length = 4 * n) :
    (offsets table).flatMap offsetBytes = table ∧ (offsets table).length = n := by
  induction n generalizing table with
  | zero =>
    obtain rfl := List.length_eq_zero_iff.mp h
    exact ⟨rfl, rfl⟩
  | succ n ih =>
    match table, h with
    | a :: b :: c :: d :: rest, h =>
      have hrest : rest.length = 4 * n := by
        simp only [List.length_cons] at h
        omega
      obtain ⟨hbytes, hlength⟩ := ih hrest
      have hback : offsetBytes (UInt32.ofNat (ofLittleEndian [a, b, c, d])).toInt32
          = [a, b, c, d] := by
        have hlt : ofLittleEndian [a, b, c, d] < 2 ^ 32 := by
          simpa using ofLittleEndian_lt [a, b, c, d]
        rw [offsetBytes, UInt32.toUInt32_toInt32, UInt32.toNat_ofNat', Nat.mod_eq_of_lt hlt]
        exact littleEndian_ofLittleEndian [a, b, c, d]
      rw [offsets, List.flatMap_cons, hback, hbytes, List.length_cons, hlength]
      exact ⟨rfl, rfl⟩

/-- An instruction that was read: it can be written, has the given bytes before what is left, and is
read back as itself. -/
structure Reads (bytes : List UInt8) (d : Decoded) : Prop where
  bytes_eq : bytes = d.instruction.bytes ++ d.rest
  isWellFormed : d.instruction.isWellFormed = true
  tableFits : d.instruction.TableFits
  asRead : d.instruction.asRead = d.instruction
  length_eq : d.length = d.instruction.size

/-- Reading an operand of a fixed size. -/
theorem reads_of_size {op : Opcode} {n : Nat} {bytes : List UInt8} {d : Decoded}
    (hsize : op.operandKind.size? = some n) (h : decodeOperand op op.size bytes = .ok d) :
    Reads (op.bytes ++ bytes) d := by
  unfold decodeOperand at h
  rw [hsize] at h
  dsimp only at h
  cases hsplit : splitBytes? n bytes with
  | none =>
    rw [hsplit] at h
    cases h
  | some parts =>
    obtain ⟨front, rest⟩ := parts
    rw [hsplit] at h
    obtain rfl := Except.ok.inj h
    obtain ⟨rfl, rfl⟩ := append_of_splitBytes? hsplit
    obtain ⟨hfits, hbits, hread⟩ := OperandKind.bits_read hsize (ofLittleEndian_lt front)
    have hback : littleEndian front.length (op.operandKind.read (ofLittleEndian front)).bits
        = front := by
      rw [← littleEndian_mod, hbits, littleEndian_ofLittleEndian]
    have htable : (op.operandKind != .table) = true := by
      cases hkind : op.operandKind <;> first | rfl | simp [hkind, OperandKind.size?] at hsize
    refine ⟨?_, Bool.and_eq_true_iff.mpr ⟨htable, hfits⟩, trivial, ?_, ?_⟩
    · rw [Instruction.bytes, hsize, Option.getD_some, hback, List.append_assoc]
    · rw [Instruction.asRead, hread]
    · rw [Instruction.size, hsize, Option.getD_some]

/-- Reading a jump table. -/
theorem reads_of_table {op : Opcode} {bytes : List UInt8} {d : Decoded}
    (hsize : op.operandKind.size? = none) (h : decodeOperand op op.size bytes = .ok d) :
    Reads (op.bytes ++ bytes) d := by
  have hop : op = .switch := by
    apply Opcode.eq_switch_of_table
    cases hkind : op.operandKind <;> first | rfl | simp [hkind, OperandKind.size?] at hsize
  subst hop
  unfold decodeOperand at h
  rw [hsize] at h
  dsimp only at h
  cases hsplit : splitBytes? 4 bytes with
  | none =>
    rw [hsplit] at h
    cases h
  | some parts =>
    obtain ⟨front, body⟩ := parts
    rw [hsplit] at h
    dsimp only at h
    cases hbody : splitBytes? (4 * ofLittleEndian front) body with
    | none =>
      rw [hbody] at h
      cases h
    | some parts =>
      obtain ⟨table, rest⟩ := parts
      rw [hbody] at h
      obtain rfl := Except.ok.inj h
      obtain ⟨rfl, hfront⟩ := append_of_splitBytes? hsplit
      obtain ⟨rfl, htable⟩ := append_of_splitBytes? hbody
      obtain ⟨hoffsets, hcount⟩ := flatMap_offsetBytes_offsets htable
      have hlt := ofLittleEndian_lt front
      have hback := littleEndian_ofLittleEndian front
      rw [hfront] at hlt hback
      refine ⟨?_, rfl, ?_, rfl, ?_⟩
      · rw [Instruction.bytes, hcount, hback, hoffsets]
        simp only [List.append_assoc]
      · show (offsets table).length < 2 ^ 32
        rw [hcount]
        exact hlt
      · show 1 + 4 + 4 * ofLittleEndian front = 5 + 4 * (offsets table).length
        rw [hcount]

theorem reads_of_decodeAfterCode {code : UInt16} {taken : Nat} (front : List UInt8)
    {rest : List UInt8} {d : Decoded} (h : decodeAfterCode code taken rest = .ok d)
    (hcode : ∀ op : Opcode, op.code = code → op.bytes = front ∧ op.size = taken) :
    Reads (front ++ rest) d := by
  unfold decodeAfterCode at h
  cases hop : Opcode.ofCode? code with
  | none =>
    rw [hop] at h
    cases h
  | some op =>
    rw [hop] at h
    obtain ⟨rfl, rfl⟩ := hcode op (Opcode.code_of_ofCode? hop)
    cases hsize : op.operandKind.size? with
    | some n => exact reads_of_size hsize h
    | none => exact reads_of_table hsize h

/-- **What is read from the front of some bytes has just these bytes.** -/
theorem reads_of_decode {bytes : List UInt8} {d : Decoded} (h : decode bytes = .ok d) :
    Reads bytes d := by
  unfold decode at h
  cases bytes with
  | nil => exact nomatch h
  | cons first bytes =>
    dsimp only at h
    by_cases hescape : first = Opcode.escape
    · rw [if_pos hescape] at h
      cases bytes with
      | nil => exact nomatch h
      | cons second bytes =>
        subst hescape
        exact reads_of_decodeAfterCode [Opcode.escape, second] h fun op => Opcode.bytes_of_escapedCode
    · rw [if_neg hescape] at h
      exact reads_of_decodeAfterCode [first] h fun op => Opcode.bytes_of_toUInt16

end Code

/-! ### Readers -/

namespace Reader

/-- The error that a fault in the next instruction is reported as. -/
def faultError (r : Reader) : Code.Fault → DecodeError
  | .truncated => r.stopError (r.offset + r.rest.length)
  | .unknown code => .unknownOpcode code r.offset

theorem next_of_decode {r : Reader} {d : Code.Decoded} (h : Code.decode r.rest = .ok d) :
    r.next = (.ok (some d.instruction),
      { r with rest := d.rest, offset := r.offset + d.length }) := by
  unfold next
  cases hrest : r.rest with
  | nil =>
    rw [hrest] at h
    exact nomatch h
  | cons first bytes => simp [← hrest, h]

theorem next_of_fault {r : Reader} {fault : Code.Fault} (hne : r.rest ≠ [])
    (h : Code.decode r.rest = .error fault) : ∃ s, r.next = (.error (r.faultError fault), s) := by
  unfold next
  cases hrest : r.rest with
  | nil => exact absurd hrest hne
  | cons first bytes =>
    cases fault with
    | truncated => simp [← hrest, h, faultError]
    | unknown code => simp [← hrest, h, faultError]

end Reader

namespace Code

/-! ### Streams -/

/-- Instructions one after another, from the given offset on. -/
def placed (start : Nat) : List Instruction → List Reader.Item
  | [] => []
  | i :: rest => ⟨start, .ok i⟩ :: placed (start + i.size) rest

theorem exists_mem_placed (start : Nat) {is : List Instruction} {i : Instruction} (h : i ∈ is) :
    ∃ item ∈ placed start is, item.result = .ok i := by
  induction is generalizing start with
  | nil => exact absurd h List.not_mem_nil
  | cons j rest ih =>
    rcases List.mem_cons.mp h with rfl | h
    · exact ⟨_, List.mem_cons_self, rfl⟩
    · obtain ⟨item, hitem, hresult⟩ := ih (start + j.size) h
      exact ⟨item, List.mem_cons_of_mem _ hitem, hresult⟩

theorem items_nil (start : Nat) : Reader.items { rest := [], offset := start } = [] := by
  rw [Reader.items]
  rfl

/-- The items of a source that starts with an instruction. -/
theorem items_of_decode {bytes : List UInt8} {d : Decoded} (h : decode bytes = .ok d) (start : Nat) :
    Reader.items { rest := bytes, offset := start }
      = ⟨start, .ok d.instruction⟩ :: Reader.items { rest := d.rest, offset := start + d.length } := by
  have hnext := Reader.next_of_decode (r := { rest := bytes, offset := start }) h
  rw [Reader.items]
  split
  · next heq => simp [hnext] at heq
  · next i s heq =>
    rw [hnext, Prod.mk.injEq, Except.ok.injEq, Option.some.injEq] at heq
    rw [← heq.1, ← heq.2]
  · next heq => simp [hnext] at heq

/-- The items of a source that starts with no instruction. -/
theorem items_of_fault {r : Reader} {fault : Fault} (hne : r.rest ≠ [])
    (h : decode r.rest = .error fault) : r.items = [⟨r.offset, .error (r.faultError fault)⟩] := by
  obtain ⟨s, hnext⟩ := Reader.next_of_fault hne h
  rw [Reader.items]
  split
  · next heq => simp [hnext] at heq
  · next heq => simp [hnext] at heq
  · next e' s heq =>
    rw [hnext, Prod.mk.injEq, Except.error.injEq] at heq
    rw [heq.1]

@[simp] theorem size_asRead (i : Instruction) : i.asRead.size = i.size := by
  cases i <;> rfl

/-- **Instructions that were written one after another are read back one after another.** -/
theorem items_flatMap_bytes {is : List Instruction}
    (h : ∀ i ∈ is, i.isWellFormed = true ∧ i.TableFits) (start : Nat) :
    Reader.items { rest := is.flatMap Instruction.bytes, offset := start }
      = placed start (is.map Instruction.asRead) := by
  induction is generalizing start with
  | nil => exact items_nil start
  | cons i rest ih =>
    obtain ⟨hformed, htable⟩ := h i List.mem_cons_self
    have hrest := ih fun j hj => h j (List.mem_cons_of_mem i hj)
    rw [List.flatMap_cons, items_of_decode (decode_bytes_append hformed htable _), hrest,
      List.map_cons, placed, size_asRead]

/-- **Bytes that are read without an error are the bytes of what is read.** -/
theorem exists_of_items_ok (bytes : List UInt8) (start : Nat)
    (h : ∀ item ∈ Reader.items { rest := bytes, offset := start }, item.result.isOk = true) :
    ∃ is : List Instruction, Reader.items { rest := bytes, offset := start } = placed start is ∧
      bytes = is.flatMap Instruction.bytes ∧
      ∀ i ∈ is, i.isWellFormed = true ∧ i.TableFits ∧ i.asRead = i := by
  cases hbytes : bytes with
  | nil => exact ⟨[], items_nil start, rfl, fun i hi => absurd hi List.not_mem_nil⟩
  | cons first tail =>
    cases hdecode : decode bytes with
    | error fault =>
      have hne : bytes ≠ [] := hbytes ▸ List.cons_ne_nil first tail
      have hitems := items_of_fault (r := { rest := bytes, offset := start }) hne hdecode
      have hok := h _ (by rw [hitems]; exact List.mem_singleton_self _)
      exact nomatch hok
    | ok d =>
      have hreads := reads_of_decode hdecode
      have hitems := items_of_decode hdecode start
      rw [hitems] at h
      obtain ⟨is, hplaced, hflat, hall⟩ := exists_of_items_ok d.rest (start + d.length)
        fun item hitem => h item (List.mem_cons_of_mem _ hitem)
      refine ⟨d.instruction :: is, ?_, ?_, ?_⟩
      · rw [← hbytes, hitems, hplaced, placed, hreads.length_eq]
      · rw [← hbytes, List.flatMap_cons, ← hflat]
        exact hreads.bytes_eq
      · intro i hi
        rcases List.mem_cons.mp hi with rfl | hi
        · exact ⟨hreads.isWellFormed, hreads.tableFits, hreads.asRead⟩
        · exact hall i hi
termination_by bytes.length
decreasing_by exact length_rest_of_decode hdecode

end Code

end Cil
