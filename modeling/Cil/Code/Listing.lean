/-
Code as a listing: one instruction a line, each with its offset, and branches with the offsets they
lead to.
-/
import Cil.Code.Decode

namespace Cil.Code

/-- The name of a place in the code.  A place before the code is written as the 64-bit pattern of
its offset. -/
def placeName (offset : Int) : String :=
  "IL_" ++ Text.hex 4 (if offset < 0 then offset + 0x10000000000000000 else offset).toNat

/-- The text of an instruction that ends at `next`, its targets by name. -/
def listingText (i : Instruction) (next : Nat) : String :=
  let target (relative : Int32) := placeName ((next : Int) + relative.toInt)
  match i with
  | .switch offsets => Instruction.tableText (offsets.map target)
  | .plain op x =>
    match op.category, x.int32? with
    | .branch b, some relative =>
      if b.kind = .table then i.text else op.mnemonic ++ " " ++ target relative
    | _, _ => i.text

/-- The line of an instruction at `offset`. -/
def listingLine (offset : Nat) (i : Instruction) : String :=
  placeName offset ++ ": " ++ listingText i (offset + i.size) ++ "\n"

/-- The lines of some items, or the first error among them. -/
def listItems : List Reader.Item → Except DecodeError (List String)
  | [] => .ok []
  | item :: rest =>
    match item.result with
    | .error e => .error e
    | .ok i => (listItems rest).map (listingLine item.offset i :: ·)

/-- The listing of some bytes. -/
def listing (bytes : List UInt8) : Except DecodeError String :=
  (listItems (items bytes)).map String.join

end Cil.Code
