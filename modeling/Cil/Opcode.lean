/-
The opcodes.

Each opcode stands once in the table below, in numeric order, with its mnemonic, its code, the
number of values it pops and pushes, the kind of its operand, the prefixes that may precede it and
its category.  The table is the only place these facts are written down.

A one-byte opcode has its byte as its code.  A two-byte opcode is the escape byte `0xFE` and a
second byte, and its code is `0xFE00` plus that byte, so the two spaces do not meet.
-/
import Cil.Opcode.Category
import Cil.Operand.Kind
import Cil.Text.Hex

namespace Cil

/-- An instruction of the instruction set. -/
inductive Opcode where
  | nop | breakpoint | ldarg0 | ldarg1 | ldarg2 | ldarg3 | ldloc0 | ldloc1 | ldloc2 | ldloc3
  | stloc0 | stloc1 | stloc2 | stloc3 | ldargS | ldargaS | stargS | ldlocS | ldlocaS | stlocS
  | ldnull | ldcI4M1 | ldcI40 | ldcI41 | ldcI42 | ldcI43 | ldcI44 | ldcI45 | ldcI46 | ldcI47
  | ldcI48 | ldcI4S | ldcI4 | ldcI8 | ldcR4 | ldcR8 | dup | pop | jmp | call | calli | ret | brS
  | brfalseS | brtrueS | beqS | bgeS | bgtS | bleS | bltS | bneUnS | bgeUnS | bgtUnS | bleUnS
  | bltUnS | br | brfalse | brtrue | beq | bge | bgt | ble | blt | bneUn | bgeUn | bgtUn | bleUn
  | bltUn | switch | ldindI1 | ldindU1 | ldindI2 | ldindU2 | ldindI4 | ldindU4 | ldindI8 | ldindI
  | ldindR4 | ldindR8 | ldindRef | stindRef | stindI1 | stindI2 | stindI4 | stindI8 | stindR4
  | stindR8 | add | sub | mul | div | divUn | rem | remUn | and | or | xor | shl | shr | shrUn
  | neg | not | convI1 | convI2 | convI4 | convI8 | convR4 | convR8 | convU4 | convU8 | callvirt
  | cpobj | ldobj | ldstr | newobj | castclass | isinst | convRUn | unbox | throw | ldfld
  | ldflda | stfld | ldsfld | ldsflda | stsfld | stobj | convOvfI1Un | convOvfI2Un | convOvfI4Un
  | convOvfI8Un | convOvfU1Un | convOvfU2Un | convOvfU4Un | convOvfU8Un | convOvfIUn | convOvfUUn
  | box | newarr | ldlen | ldelema | ldelemI1 | ldelemU1 | ldelemI2 | ldelemU2 | ldelemI4
  | ldelemU4 | ldelemI8 | ldelemI | ldelemR4 | ldelemR8 | ldelemRef | stelemI | stelemI1
  | stelemI2 | stelemI4 | stelemI8 | stelemR4 | stelemR8 | stelemRef | ldelem | stelem | unboxAny
  | convOvfI1 | convOvfU1 | convOvfI2 | convOvfU2 | convOvfI4 | convOvfU4 | convOvfI8 | convOvfU8
  | refanyval | ckfinite | mkrefany | ldtoken | convU2 | convU1 | convI | convOvfI | convOvfU
  | addOvf | addOvfUn | mulOvf | mulOvfUn | subOvf | subOvfUn | endfinally | leave | leaveS
  | stindI | convU | arglist | ceq | cgt | cgtUn | clt | cltUn | ldftn | ldvirtftn | ldarg
  | ldarga | starg | ldloc | ldloca | stloc | localloc | endfilter | unaligned | volatile | tail
  | initobj | constrained | cpblk | initblk | no | rethrow | sizeof | refanytype | readonly
  deriving DecidableEq, Repr, Inhabited

/-- How many values an opcode takes from or leaves on the stack. -/
inductive Count where
  | fixed (n : Nat)
  /-- The operand decides, or the stack is emptied. -/
  | varies
  deriving DecidableEq, Repr

instance (n : Nat) : OfNat Count n := ⟨.fixed n⟩

def Count.text : Count → String
  | fixed n => toString n
  | varies => "var"

/-- What there is to know about an opcode. -/
structure Descriptor where
  mnemonic : String
  code : UInt16
  pops : Count
  pushes : Count
  operand : OperandKind
  /-- The prefixes that may precede the opcode. -/
  prefixes : List Prefix
  category : Category

namespace Opcode

/-- Every opcode, in numeric order. -/
def all : List Opcode :=
  [.nop, .breakpoint, .ldarg0, .ldarg1, .ldarg2, .ldarg3, .ldloc0, .ldloc1, .ldloc2, .ldloc3,
    .stloc0, .stloc1, .stloc2, .stloc3, .ldargS, .ldargaS, .stargS, .ldlocS, .ldlocaS, .stlocS,
    .ldnull, .ldcI4M1, .ldcI40, .ldcI41, .ldcI42, .ldcI43, .ldcI44, .ldcI45, .ldcI46, .ldcI47,
    .ldcI48, .ldcI4S, .ldcI4, .ldcI8, .ldcR4, .ldcR8, .dup, .pop, .jmp, .call, .calli, .ret, .brS,
    .brfalseS, .brtrueS, .beqS, .bgeS, .bgtS, .bleS, .bltS, .bneUnS, .bgeUnS, .bgtUnS, .bleUnS,
    .bltUnS, .br, .brfalse, .brtrue, .beq, .bge, .bgt, .ble, .blt, .bneUn, .bgeUn, .bgtUn, .bleUn,
    .bltUn, .switch, .ldindI1, .ldindU1, .ldindI2, .ldindU2, .ldindI4, .ldindU4, .ldindI8,
    .ldindI, .ldindR4, .ldindR8, .ldindRef, .stindRef, .stindI1, .stindI2, .stindI4, .stindI8,
    .stindR4, .stindR8, .add, .sub, .mul, .div, .divUn, .rem, .remUn, .and, .or, .xor, .shl, .shr,
    .shrUn, .neg, .not, .convI1, .convI2, .convI4, .convI8, .convR4, .convR8, .convU4, .convU8,
    .callvirt, .cpobj, .ldobj, .ldstr, .newobj, .castclass, .isinst, .convRUn, .unbox, .throw,
    .ldfld, .ldflda, .stfld, .ldsfld, .ldsflda, .stsfld, .stobj, .convOvfI1Un, .convOvfI2Un,
    .convOvfI4Un, .convOvfI8Un, .convOvfU1Un, .convOvfU2Un, .convOvfU4Un, .convOvfU8Un,
    .convOvfIUn, .convOvfUUn, .box, .newarr, .ldlen, .ldelema, .ldelemI1, .ldelemU1, .ldelemI2,
    .ldelemU2, .ldelemI4, .ldelemU4, .ldelemI8, .ldelemI, .ldelemR4, .ldelemR8, .ldelemRef,
    .stelemI, .stelemI1, .stelemI2, .stelemI4, .stelemI8, .stelemR4, .stelemR8, .stelemRef,
    .ldelem, .stelem, .unboxAny, .convOvfI1, .convOvfU1, .convOvfI2, .convOvfU2, .convOvfI4,
    .convOvfU4, .convOvfI8, .convOvfU8, .refanyval, .ckfinite, .mkrefany, .ldtoken, .convU2,
    .convU1, .convI, .convOvfI, .convOvfU, .addOvf, .addOvfUn, .mulOvf, .mulOvfUn, .subOvf,
    .subOvfUn, .endfinally, .leave, .leaveS, .stindI, .convU, .arglist, .ceq, .cgt, .cgtUn, .clt,
    .cltUn, .ldftn, .ldvirtftn, .ldarg, .ldarga, .starg, .ldloc, .ldloca, .stloc, .localloc,
    .endfilter, .unaligned, .volatile, .tail, .initobj, .constrained, .cpblk, .initblk, .no,
    .rethrow, .sizeof, .refanytype, .readonly]

/-! ### Prefix sets that several opcodes share -/

/-- Accesses to memory. -/
private def memory : List Prefix := [.unaligned, .volatile]

/-- Accesses to memory with a check that can be waived. -/
private def checkedMemory : List Prefix := [.unaligned, .volatile, .no]

/-- Calls through a method table. -/
private def virtualCall : List Prefix := [.tail, .constrained, .no]

/-- Taking the address of an array element. -/
private def elementAddress : List Prefix := [.readonly, .no]

/-- The table of opcodes. -/
def descriptor : Opcode → Descriptor
  | .nop => ⟨"nop", 0x00, 0, 0, .none, [], .other⟩
  | .breakpoint => ⟨"break", 0x01, 0, 0, .none, [], .other⟩
  | .ldarg0 => ⟨"ldarg.0", 0x02, 0, 1, .none, [], .slot .load .argument (some 0)⟩
  | .ldarg1 => ⟨"ldarg.1", 0x03, 0, 1, .none, [], .slot .load .argument (some 1)⟩
  | .ldarg2 => ⟨"ldarg.2", 0x04, 0, 1, .none, [], .slot .load .argument (some 2)⟩
  | .ldarg3 => ⟨"ldarg.3", 0x05, 0, 1, .none, [], .slot .load .argument (some 3)⟩
  | .ldloc0 => ⟨"ldloc.0", 0x06, 0, 1, .none, [], .slot .load .localVar (some 0)⟩
  | .ldloc1 => ⟨"ldloc.1", 0x07, 0, 1, .none, [], .slot .load .localVar (some 1)⟩
  | .ldloc2 => ⟨"ldloc.2", 0x08, 0, 1, .none, [], .slot .load .localVar (some 2)⟩
  | .ldloc3 => ⟨"ldloc.3", 0x09, 0, 1, .none, [], .slot .load .localVar (some 3)⟩
  | .stloc0 => ⟨"stloc.0", 0x0A, 1, 0, .none, [], .slot .store .localVar (some 0)⟩
  | .stloc1 => ⟨"stloc.1", 0x0B, 1, 0, .none, [], .slot .store .localVar (some 1)⟩
  | .stloc2 => ⟨"stloc.2", 0x0C, 1, 0, .none, [], .slot .store .localVar (some 2)⟩
  | .stloc3 => ⟨"stloc.3", 0x0D, 1, 0, .none, [], .slot .store .localVar (some 3)⟩
  | .ldargS => ⟨"ldarg.s", 0x0E, 0, 1, .shortVar, [], .slot .load .argument none⟩
  | .ldargaS => ⟨"ldarga.s", 0x0F, 0, 1, .shortVar, [], .slot .address .argument none⟩
  | .stargS => ⟨"starg.s", 0x10, 1, 0, .shortVar, [], .slot .store .argument none⟩
  | .ldlocS => ⟨"ldloc.s", 0x11, 0, 1, .shortVar, [], .slot .load .localVar none⟩
  | .ldlocaS => ⟨"ldloca.s", 0x12, 0, 1, .shortVar, [], .slot .address .localVar none⟩
  | .stlocS => ⟨"stloc.s", 0x13, 1, 0, .shortVar, [], .slot .store .localVar none⟩
  | .ldnull => ⟨"ldnull", 0x14, 0, 1, .none, [], .constant .null⟩
  | .ldcI4M1 => ⟨"ldc.i4.m1", 0x15, 0, 1, .none, [], .constant (.int32 (some (-1)))⟩
  | .ldcI40 => ⟨"ldc.i4.0", 0x16, 0, 1, .none, [], .constant (.int32 (some 0))⟩
  | .ldcI41 => ⟨"ldc.i4.1", 0x17, 0, 1, .none, [], .constant (.int32 (some 1))⟩
  | .ldcI42 => ⟨"ldc.i4.2", 0x18, 0, 1, .none, [], .constant (.int32 (some 2))⟩
  | .ldcI43 => ⟨"ldc.i4.3", 0x19, 0, 1, .none, [], .constant (.int32 (some 3))⟩
  | .ldcI44 => ⟨"ldc.i4.4", 0x1A, 0, 1, .none, [], .constant (.int32 (some 4))⟩
  | .ldcI45 => ⟨"ldc.i4.5", 0x1B, 0, 1, .none, [], .constant (.int32 (some 5))⟩
  | .ldcI46 => ⟨"ldc.i4.6", 0x1C, 0, 1, .none, [], .constant (.int32 (some 6))⟩
  | .ldcI47 => ⟨"ldc.i4.7", 0x1D, 0, 1, .none, [], .constant (.int32 (some 7))⟩
  | .ldcI48 => ⟨"ldc.i4.8", 0x1E, 0, 1, .none, [], .constant (.int32 (some 8))⟩
  | .ldcI4S => ⟨"ldc.i4.s", 0x1F, 0, 1, .int8, [], .constant (.int32 none)⟩
  | .ldcI4 => ⟨"ldc.i4", 0x20, 0, 1, .int32, [], .constant (.int32 none)⟩
  | .ldcI8 => ⟨"ldc.i8", 0x21, 0, 1, .int64, [], .constant .int64⟩
  | .ldcR4 => ⟨"ldc.r4", 0x22, 0, 1, .float32, [], .constant .float32⟩
  | .ldcR8 => ⟨"ldc.r8", 0x23, 0, 1, .float64, [], .constant .float64⟩
  | .dup => ⟨"dup", 0x25, 1, 2, .none, [], .other⟩
  | .pop => ⟨"pop", 0x26, 1, 0, .none, [], .other⟩
  | .jmp => ⟨"jmp", 0x27, 0, 0, .method, [], .call .jump⟩
  | .call => ⟨"call", 0x28, .varies, .varies, .method, [.tail], .call .direct⟩
  | .calli => ⟨"calli", 0x29, .varies, .varies, .signature, [.tail], .call .indirect⟩
  | .ret => ⟨"ret", 0x2A, .varies, 0, .none, [], .other⟩
  | .brS => ⟨"br.s", 0x2B, 0, 0, .shortTarget, [], .branch ⟨.always, true⟩⟩
  | .brfalseS => ⟨"brfalse.s", 0x2C, 1, 0, .shortTarget, [], .branch ⟨.boolean false, true⟩⟩
  | .brtrueS => ⟨"brtrue.s", 0x2D, 1, 0, .shortTarget, [], .branch ⟨.boolean true, true⟩⟩
  | .beqS => ⟨"beq.s", 0x2E, 2, 0, .shortTarget, [], .compareBranch .equal false true⟩
  | .bgeS => ⟨"bge.s", 0x2F, 2, 0, .shortTarget, [], .compareBranch .greaterOrEqual false true⟩
  | .bgtS => ⟨"bgt.s", 0x30, 2, 0, .shortTarget, [], .compareBranch .greater false true⟩
  | .bleS => ⟨"ble.s", 0x31, 2, 0, .shortTarget, [], .compareBranch .lessOrEqual false true⟩
  | .bltS => ⟨"blt.s", 0x32, 2, 0, .shortTarget, [], .compareBranch .less false true⟩
  | .bneUnS => ⟨"bne.un.s", 0x33, 2, 0, .shortTarget, [], .compareBranch .notEqual true true⟩
  | .bgeUnS => ⟨"bge.un.s", 0x34, 2, 0, .shortTarget, [], .compareBranch .greaterOrEqual true true⟩
  | .bgtUnS => ⟨"bgt.un.s", 0x35, 2, 0, .shortTarget, [], .compareBranch .greater true true⟩
  | .bleUnS => ⟨"ble.un.s", 0x36, 2, 0, .shortTarget, [], .compareBranch .lessOrEqual true true⟩
  | .bltUnS => ⟨"blt.un.s", 0x37, 2, 0, .shortTarget, [], .compareBranch .less true true⟩
  | .br => ⟨"br", 0x38, 0, 0, .target, [], .branch ⟨.always, false⟩⟩
  | .brfalse => ⟨"brfalse", 0x39, 1, 0, .target, [], .branch ⟨.boolean false, false⟩⟩
  | .brtrue => ⟨"brtrue", 0x3A, 1, 0, .target, [], .branch ⟨.boolean true, false⟩⟩
  | .beq => ⟨"beq", 0x3B, 2, 0, .target, [], .compareBranch .equal false false⟩
  | .bge => ⟨"bge", 0x3C, 2, 0, .target, [], .compareBranch .greaterOrEqual false false⟩
  | .bgt => ⟨"bgt", 0x3D, 2, 0, .target, [], .compareBranch .greater false false⟩
  | .ble => ⟨"ble", 0x3E, 2, 0, .target, [], .compareBranch .lessOrEqual false false⟩
  | .blt => ⟨"blt", 0x3F, 2, 0, .target, [], .compareBranch .less false false⟩
  | .bneUn => ⟨"bne.un", 0x40, 2, 0, .target, [], .compareBranch .notEqual true false⟩
  | .bgeUn => ⟨"bge.un", 0x41, 2, 0, .target, [], .compareBranch .greaterOrEqual true false⟩
  | .bgtUn => ⟨"bgt.un", 0x42, 2, 0, .target, [], .compareBranch .greater true false⟩
  | .bleUn => ⟨"ble.un", 0x43, 2, 0, .target, [], .compareBranch .lessOrEqual true false⟩
  | .bltUn => ⟨"blt.un", 0x44, 2, 0, .target, [], .compareBranch .less true false⟩
  | .switch => ⟨"switch", 0x45, 1, 0, .table, [], .branch ⟨.table, false⟩⟩
  | .ldindI1 => ⟨"ldind.i1", 0x46, 1, 1, .none, memory, .indirect .load (some .int8)⟩
  | .ldindU1 => ⟨"ldind.u1", 0x47, 1, 1, .none, memory, .indirect .load (some .uint8)⟩
  | .ldindI2 => ⟨"ldind.i2", 0x48, 1, 1, .none, memory, .indirect .load (some .int16)⟩
  | .ldindU2 => ⟨"ldind.u2", 0x49, 1, 1, .none, memory, .indirect .load (some .uint16)⟩
  | .ldindI4 => ⟨"ldind.i4", 0x4A, 1, 1, .none, memory, .indirect .load (some .int32)⟩
  | .ldindU4 => ⟨"ldind.u4", 0x4B, 1, 1, .none, memory, .indirect .load (some .uint32)⟩
  | .ldindI8 => ⟨"ldind.i8", 0x4C, 1, 1, .none, memory, .indirect .load (some .int64)⟩
  | .ldindI => ⟨"ldind.i", 0x4D, 1, 1, .none, memory, .indirect .load (some .nativeInt)⟩
  | .ldindR4 => ⟨"ldind.r4", 0x4E, 1, 1, .none, memory, .indirect .load (some .float32)⟩
  | .ldindR8 => ⟨"ldind.r8", 0x4F, 1, 1, .none, memory, .indirect .load (some .float64)⟩
  | .ldindRef => ⟨"ldind.ref", 0x50, 1, 1, .none, memory, .indirect .load (some .object)⟩
  | .stindRef => ⟨"stind.ref", 0x51, 2, 0, .none, memory, .indirect .store (some .object)⟩
  | .stindI1 => ⟨"stind.i1", 0x52, 2, 0, .none, memory, .indirect .store (some .int8)⟩
  | .stindI2 => ⟨"stind.i2", 0x53, 2, 0, .none, memory, .indirect .store (some .int16)⟩
  | .stindI4 => ⟨"stind.i4", 0x54, 2, 0, .none, memory, .indirect .store (some .int32)⟩
  | .stindI8 => ⟨"stind.i8", 0x55, 2, 0, .none, memory, .indirect .store (some .int64)⟩
  | .stindR4 => ⟨"stind.r4", 0x56, 2, 0, .none, memory, .indirect .store (some .float32)⟩
  | .stindR8 => ⟨"stind.r8", 0x57, 2, 0, .none, memory, .indirect .store (some .float64)⟩
  | .add => ⟨"add", 0x58, 2, 1, .none, [], .arithmetic ⟨.add, false, false⟩⟩
  | .sub => ⟨"sub", 0x59, 2, 1, .none, [], .arithmetic ⟨.subtract, false, false⟩⟩
  | .mul => ⟨"mul", 0x5A, 2, 1, .none, [], .arithmetic ⟨.multiply, false, false⟩⟩
  | .div => ⟨"div", 0x5B, 2, 1, .none, [], .arithmetic ⟨.divide, false, false⟩⟩
  | .divUn => ⟨"div.un", 0x5C, 2, 1, .none, [], .arithmetic ⟨.divide, true, false⟩⟩
  | .rem => ⟨"rem", 0x5D, 2, 1, .none, [], .arithmetic ⟨.remainder, false, false⟩⟩
  | .remUn => ⟨"rem.un", 0x5E, 2, 1, .none, [], .arithmetic ⟨.remainder, true, false⟩⟩
  | .and => ⟨"and", 0x5F, 2, 1, .none, [], .arithmetic ⟨.and, false, false⟩⟩
  | .or => ⟨"or", 0x60, 2, 1, .none, [], .arithmetic ⟨.or, false, false⟩⟩
  | .xor => ⟨"xor", 0x61, 2, 1, .none, [], .arithmetic ⟨.xor, false, false⟩⟩
  | .shl => ⟨"shl", 0x62, 2, 1, .none, [], .arithmetic ⟨.shiftLeft, false, false⟩⟩
  | .shr => ⟨"shr", 0x63, 2, 1, .none, [], .arithmetic ⟨.shiftRight, false, false⟩⟩
  | .shrUn => ⟨"shr.un", 0x64, 2, 1, .none, [], .arithmetic ⟨.shiftRight, true, false⟩⟩
  | .neg => ⟨"neg", 0x65, 1, 1, .none, [], .arithmetic ⟨.negate, false, false⟩⟩
  | .not => ⟨"not", 0x66, 1, 1, .none, [], .arithmetic ⟨.not, false, false⟩⟩
  | .convI1 => ⟨"conv.i1", 0x67, 1, 1, .none, [], .conversion ⟨.int8, false, false⟩⟩
  | .convI2 => ⟨"conv.i2", 0x68, 1, 1, .none, [], .conversion ⟨.int16, false, false⟩⟩
  | .convI4 => ⟨"conv.i4", 0x69, 1, 1, .none, [], .conversion ⟨.int32, false, false⟩⟩
  | .convI8 => ⟨"conv.i8", 0x6A, 1, 1, .none, [], .conversion ⟨.int64, false, false⟩⟩
  | .convR4 => ⟨"conv.r4", 0x6B, 1, 1, .none, [], .conversion ⟨.float32, false, false⟩⟩
  | .convR8 => ⟨"conv.r8", 0x6C, 1, 1, .none, [], .conversion ⟨.float64, false, false⟩⟩
  | .convU4 => ⟨"conv.u4", 0x6D, 1, 1, .none, [], .conversion ⟨.uint32, false, false⟩⟩
  | .convU8 => ⟨"conv.u8", 0x6E, 1, 1, .none, [], .conversion ⟨.uint64, false, false⟩⟩
  | .callvirt => ⟨"callvirt", 0x6F, .varies, .varies, .method, virtualCall, .call .virtual⟩
  | .cpobj => ⟨"cpobj", 0x70, 2, 0, .type, [], .other⟩
  | .ldobj => ⟨"ldobj", 0x71, 1, 1, .type, memory, .indirect .load none⟩
  | .ldstr => ⟨"ldstr", 0x72, 0, 1, .string, [], .constant .string⟩
  | .newobj => ⟨"newobj", 0x73, .varies, 1, .method, [], .call .newObject⟩
  | .castclass => ⟨"castclass", 0x74, 1, 1, .type, [.no], .cast .castClass⟩
  | .isinst => ⟨"isinst", 0x75, 1, 1, .type, [], .cast .isInstance⟩
  | .convRUn => ⟨"conv.r.un", 0x76, 1, 1, .none, [], .conversion ⟨.float, false, true⟩⟩
  | .unbox => ⟨"unbox", 0x79, 1, 1, .type, [.no], .cast .unbox⟩
  | .throw => ⟨"throw", 0x7A, 1, 0, .none, [], .other⟩
  | .ldfld => ⟨"ldfld", 0x7B, 1, 1, .field, checkedMemory, .field .load false⟩
  | .ldflda => ⟨"ldflda", 0x7C, 1, 1, .field, [.no], .field .address false⟩
  | .stfld => ⟨"stfld", 0x7D, 2, 0, .field, checkedMemory, .field .store false⟩
  | .ldsfld => ⟨"ldsfld", 0x7E, 0, 1, .field, [.volatile], .field .load true⟩
  | .ldsflda => ⟨"ldsflda", 0x7F, 0, 1, .field, [], .field .address true⟩
  | .stsfld => ⟨"stsfld", 0x80, 1, 0, .field, [.volatile], .field .store true⟩
  | .stobj => ⟨"stobj", 0x81, 2, 0, .type, memory, .indirect .store none⟩
  | .convOvfI1Un => ⟨"conv.ovf.i1.un", 0x82, 1, 1, .none, [], .conversion ⟨.int8, true, true⟩⟩
  | .convOvfI2Un => ⟨"conv.ovf.i2.un", 0x83, 1, 1, .none, [], .conversion ⟨.int16, true, true⟩⟩
  | .convOvfI4Un => ⟨"conv.ovf.i4.un", 0x84, 1, 1, .none, [], .conversion ⟨.int32, true, true⟩⟩
  | .convOvfI8Un => ⟨"conv.ovf.i8.un", 0x85, 1, 1, .none, [], .conversion ⟨.int64, true, true⟩⟩
  | .convOvfU1Un => ⟨"conv.ovf.u1.un", 0x86, 1, 1, .none, [], .conversion ⟨.uint8, true, true⟩⟩
  | .convOvfU2Un => ⟨"conv.ovf.u2.un", 0x87, 1, 1, .none, [], .conversion ⟨.uint16, true, true⟩⟩
  | .convOvfU4Un => ⟨"conv.ovf.u4.un", 0x88, 1, 1, .none, [], .conversion ⟨.uint32, true, true⟩⟩
  | .convOvfU8Un => ⟨"conv.ovf.u8.un", 0x89, 1, 1, .none, [], .conversion ⟨.uint64, true, true⟩⟩
  | .convOvfIUn => ⟨"conv.ovf.i.un", 0x8A, 1, 1, .none, [], .conversion ⟨.nativeInt, true, true⟩⟩
  | .convOvfUUn => ⟨"conv.ovf.u.un", 0x8B, 1, 1, .none, [], .conversion ⟨.nativeUInt, true, true⟩⟩
  | .box => ⟨"box", 0x8C, 1, 1, .type, [], .cast .box⟩
  | .newarr => ⟨"newarr", 0x8D, 1, 1, .type, [], .other⟩
  | .ldlen => ⟨"ldlen", 0x8E, 1, 1, .none, [], .other⟩
  | .ldelema => ⟨"ldelema", 0x8F, 2, 1, .type, elementAddress, .element .address none⟩
  | .ldelemI1 => ⟨"ldelem.i1", 0x90, 2, 1, .none, [.no], .element .load (some .int8)⟩
  | .ldelemU1 => ⟨"ldelem.u1", 0x91, 2, 1, .none, [.no], .element .load (some .uint8)⟩
  | .ldelemI2 => ⟨"ldelem.i2", 0x92, 2, 1, .none, [.no], .element .load (some .int16)⟩
  | .ldelemU2 => ⟨"ldelem.u2", 0x93, 2, 1, .none, [.no], .element .load (some .uint16)⟩
  | .ldelemI4 => ⟨"ldelem.i4", 0x94, 2, 1, .none, [.no], .element .load (some .int32)⟩
  | .ldelemU4 => ⟨"ldelem.u4", 0x95, 2, 1, .none, [.no], .element .load (some .uint32)⟩
  | .ldelemI8 => ⟨"ldelem.i8", 0x96, 2, 1, .none, [.no], .element .load (some .int64)⟩
  | .ldelemI => ⟨"ldelem.i", 0x97, 2, 1, .none, [.no], .element .load (some .nativeInt)⟩
  | .ldelemR4 => ⟨"ldelem.r4", 0x98, 2, 1, .none, [.no], .element .load (some .float32)⟩
  | .ldelemR8 => ⟨"ldelem.r8", 0x99, 2, 1, .none, [.no], .element .load (some .float64)⟩
  | .ldelemRef => ⟨"ldelem.ref", 0x9A, 2, 1, .none, [.no], .element .load (some .object)⟩
  | .stelemI => ⟨"stelem.i", 0x9B, 3, 0, .none, [.no], .element .store (some .nativeInt)⟩
  | .stelemI1 => ⟨"stelem.i1", 0x9C, 3, 0, .none, [.no], .element .store (some .int8)⟩
  | .stelemI2 => ⟨"stelem.i2", 0x9D, 3, 0, .none, [.no], .element .store (some .int16)⟩
  | .stelemI4 => ⟨"stelem.i4", 0x9E, 3, 0, .none, [.no], .element .store (some .int32)⟩
  | .stelemI8 => ⟨"stelem.i8", 0x9F, 3, 0, .none, [.no], .element .store (some .int64)⟩
  | .stelemR4 => ⟨"stelem.r4", 0xA0, 3, 0, .none, [.no], .element .store (some .float32)⟩
  | .stelemR8 => ⟨"stelem.r8", 0xA1, 3, 0, .none, [.no], .element .store (some .float64)⟩
  | .stelemRef => ⟨"stelem.ref", 0xA2, 3, 0, .none, [.no], .element .store (some .object)⟩
  | .ldelem => ⟨"ldelem", 0xA3, 2, 1, .type, [.no], .element .load none⟩
  | .stelem => ⟨"stelem", 0xA4, 3, 0, .type, [.no], .element .store none⟩
  | .unboxAny => ⟨"unbox.any", 0xA5, 1, 1, .type, [], .cast .unboxAny⟩
  | .convOvfI1 => ⟨"conv.ovf.i1", 0xB3, 1, 1, .none, [], .conversion ⟨.int8, true, false⟩⟩
  | .convOvfU1 => ⟨"conv.ovf.u1", 0xB4, 1, 1, .none, [], .conversion ⟨.uint8, true, false⟩⟩
  | .convOvfI2 => ⟨"conv.ovf.i2", 0xB5, 1, 1, .none, [], .conversion ⟨.int16, true, false⟩⟩
  | .convOvfU2 => ⟨"conv.ovf.u2", 0xB6, 1, 1, .none, [], .conversion ⟨.uint16, true, false⟩⟩
  | .convOvfI4 => ⟨"conv.ovf.i4", 0xB7, 1, 1, .none, [], .conversion ⟨.int32, true, false⟩⟩
  | .convOvfU4 => ⟨"conv.ovf.u4", 0xB8, 1, 1, .none, [], .conversion ⟨.uint32, true, false⟩⟩
  | .convOvfI8 => ⟨"conv.ovf.i8", 0xB9, 1, 1, .none, [], .conversion ⟨.int64, true, false⟩⟩
  | .convOvfU8 => ⟨"conv.ovf.u8", 0xBA, 1, 1, .none, [], .conversion ⟨.uint64, true, false⟩⟩
  | .refanyval => ⟨"refanyval", 0xC2, 1, 1, .type, [], .other⟩
  | .ckfinite => ⟨"ckfinite", 0xC3, 1, 1, .none, [], .other⟩
  | .mkrefany => ⟨"mkrefany", 0xC6, 1, 1, .type, [], .other⟩
  | .ldtoken => ⟨"ldtoken", 0xD0, 0, 1, .member, [], .other⟩
  | .convU2 => ⟨"conv.u2", 0xD1, 1, 1, .none, [], .conversion ⟨.uint16, false, false⟩⟩
  | .convU1 => ⟨"conv.u1", 0xD2, 1, 1, .none, [], .conversion ⟨.uint8, false, false⟩⟩
  | .convI => ⟨"conv.i", 0xD3, 1, 1, .none, [], .conversion ⟨.nativeInt, false, false⟩⟩
  | .convOvfI => ⟨"conv.ovf.i", 0xD4, 1, 1, .none, [], .conversion ⟨.nativeInt, true, false⟩⟩
  | .convOvfU => ⟨"conv.ovf.u", 0xD5, 1, 1, .none, [], .conversion ⟨.nativeUInt, true, false⟩⟩
  | .addOvf => ⟨"add.ovf", 0xD6, 2, 1, .none, [], .arithmetic ⟨.add, false, true⟩⟩
  | .addOvfUn => ⟨"add.ovf.un", 0xD7, 2, 1, .none, [], .arithmetic ⟨.add, true, true⟩⟩
  | .mulOvf => ⟨"mul.ovf", 0xD8, 2, 1, .none, [], .arithmetic ⟨.multiply, false, true⟩⟩
  | .mulOvfUn => ⟨"mul.ovf.un", 0xD9, 2, 1, .none, [], .arithmetic ⟨.multiply, true, true⟩⟩
  | .subOvf => ⟨"sub.ovf", 0xDA, 2, 1, .none, [], .arithmetic ⟨.subtract, false, true⟩⟩
  | .subOvfUn => ⟨"sub.ovf.un", 0xDB, 2, 1, .none, [], .arithmetic ⟨.subtract, true, true⟩⟩
  | .endfinally => ⟨"endfinally", 0xDC, .varies, 0, .none, [], .other⟩
  | .leave => ⟨"leave", 0xDD, .varies, 0, .target, [], .branch ⟨.leave, false⟩⟩
  | .leaveS => ⟨"leave.s", 0xDE, .varies, 0, .shortTarget, [], .branch ⟨.leave, true⟩⟩
  | .stindI => ⟨"stind.i", 0xDF, 2, 0, .none, memory, .indirect .store (some .nativeInt)⟩
  | .convU => ⟨"conv.u", 0xE0, 1, 1, .none, [], .conversion ⟨.nativeUInt, false, false⟩⟩
  | .arglist => ⟨"arglist", 0xFE00, 0, 1, .none, [], .other⟩
  | .ceq => ⟨"ceq", 0xFE01, 2, 1, .none, [], .comparison ⟨.equal, false⟩⟩
  | .cgt => ⟨"cgt", 0xFE02, 2, 1, .none, [], .comparison ⟨.greater, false⟩⟩
  | .cgtUn => ⟨"cgt.un", 0xFE03, 2, 1, .none, [], .comparison ⟨.greater, true⟩⟩
  | .clt => ⟨"clt", 0xFE04, 2, 1, .none, [], .comparison ⟨.less, false⟩⟩
  | .cltUn => ⟨"clt.un", 0xFE05, 2, 1, .none, [], .comparison ⟨.less, true⟩⟩
  | .ldftn => ⟨"ldftn", 0xFE06, 0, 1, .method, [], .call .loadFunction⟩
  | .ldvirtftn => ⟨"ldvirtftn", 0xFE07, 1, 1, .method, [.no], .call .loadVirtualFunction⟩
  | .ldarg => ⟨"ldarg", 0xFE09, 0, 1, .var, [], .slot .load .argument none⟩
  | .ldarga => ⟨"ldarga", 0xFE0A, 0, 1, .var, [], .slot .address .argument none⟩
  | .starg => ⟨"starg", 0xFE0B, 1, 0, .var, [], .slot .store .argument none⟩
  | .ldloc => ⟨"ldloc", 0xFE0C, 0, 1, .var, [], .slot .load .localVar none⟩
  | .ldloca => ⟨"ldloca", 0xFE0D, 0, 1, .var, [], .slot .address .localVar none⟩
  | .stloc => ⟨"stloc", 0xFE0E, 1, 0, .var, [], .slot .store .localVar none⟩
  | .localloc => ⟨"localloc", 0xFE0F, 1, 1, .none, [], .other⟩
  | .endfilter => ⟨"endfilter", 0xFE11, 1, 0, .none, [], .other⟩
  | .unaligned => ⟨"unaligned.", 0xFE12, 0, 0, .int8, [], .prefixOp .unaligned⟩
  | .volatile => ⟨"volatile.", 0xFE13, 0, 0, .none, [], .prefixOp .volatile⟩
  | .tail => ⟨"tail.", 0xFE14, 0, 0, .none, [], .prefixOp .tail⟩
  | .initobj => ⟨"initobj", 0xFE15, 1, 0, .type, [], .other⟩
  | .constrained => ⟨"constrained.", 0xFE16, 0, 0, .type, [], .prefixOp .constrained⟩
  | .cpblk => ⟨"cpblk", 0xFE17, 3, 0, .none, memory, .other⟩
  | .initblk => ⟨"initblk", 0xFE18, 3, 0, .none, memory, .other⟩
  | .no => ⟨"no.", 0xFE19, 0, 0, .int8, [], .prefixOp .no⟩
  | .rethrow => ⟨"rethrow", 0xFE1A, 0, 0, .none, [], .other⟩
  | .sizeof => ⟨"sizeof", 0xFE1C, 0, 1, .type, [], .other⟩
  | .refanytype => ⟨"refanytype", 0xFE1D, 1, 1, .none, [], .other⟩
  | .readonly => ⟨"readonly.", 0xFE1E, 0, 0, .none, [], .prefixOp .readonly⟩

/-! ### Reading the table -/

def mnemonic (op : Opcode) : String := op.descriptor.mnemonic

def code (op : Opcode) : UInt16 := op.descriptor.code

def pops (op : Opcode) : Count := op.descriptor.pops

def pushes (op : Opcode) : Count := op.descriptor.pushes

def operandKind (op : Opcode) : OperandKind := op.descriptor.operand

def category (op : Opcode) : Category := op.descriptor.category

/-- The prefixes that may precede the opcode. -/
def prefixes (op : Opcode) : List Prefix := op.descriptor.prefixes

/-- The first byte of every two-byte opcode. -/
def escape : UInt8 := 0xFE

def isTwoByte (op : Opcode) : Bool := op.code > 0xFF

/-- Bytes of the opcode itself, without its operand. -/
def size (op : Opcode) : Nat := if op.isTwoByte then 2 else 1

/-- Does control never go on with the following instruction? -/
def endsFlow (op : Opcode) : Bool :=
  match op with
  | .ret | .throw | .rethrow | .jmp | .endfinally | .endfilter => true
  | _ =>
    match op.category with
    | .branch b => !b.kind.fallsThrough
    | _ => false

/-! ### Looking opcodes up -/

/-- The opcode with the given code. -/
def ofCode? (code : UInt16) : Option Opcode :=
  all.find? fun op => op.code == code

/-- The one-byte opcode with the given byte. -/
def ofByte? (b : UInt8) : Option Opcode :=
  ofCode? b.toUInt16

/-- The code of the two-byte opcode with the given second byte. -/
def escapedCode (second : UInt8) : UInt16 :=
  0xFE00 + second.toUInt16

/-- The two-byte opcode with the given second byte. -/
def ofEscaped? (second : UInt8) : Option Opcode :=
  ofCode? (escapedCode second)

/-- The opcode with the given mnemonic. -/
def ofMnemonic? (s : String) : Option Opcode :=
  all.find? fun op => op.mnemonic == s

/-- The opcode's line in the catalogue. -/
def text (op : Opcode) : String :=
  op.mnemonic ++ " (0x" ++ Text.hexUpper 2 op.code.toNat ++ ") pop " ++ op.pops.text ++
    " push " ++ op.pushes.text ++ " " ++ op.operandKind.name

/-- The codes that stand at more than one row of the table. -/
def collisions : List UInt16 :=
  let codes := all.map code
  codes.filter fun c => codes.count c > 1

end Opcode

/-- The opcode of a prefix. -/
def Prefix.opcode : Prefix → Opcode
  | unaligned => .unaligned
  | volatile => .volatile
  | tail => .tail
  | constrained => .constrained
  | readonly => .readonly
  | no => .no

end Cil
