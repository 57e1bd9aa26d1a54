/-
Metadata tokens and what they stand for.

Whoever writes code asks a token provider for the tokens of the types and members it refers to.  The
symbol table is such a provider.

A symbol table binds symbols to tokens one to one.  It hands out the next row of a symbol's table
the first time it meets the symbol, and it counts the rows of each table by the last one that was
bound.  Rows have 24 bits; once the last one is taken it is handed out again, and its former holder is
forgotten.

The bindings are kept in the order of their tokens.
-/
import Cil.Operand
import Cil.Text.Quoted
import Cil.Ty.Member

namespace Cil

/-- What a token stands for. -/
inductive Symbol where
  | type (name : String)
  /-- A method, by its qualified name. -/
  | method (name : String)
  /-- A field, by its qualified name. -/
  | field (name : String)
  /-- A call signature, by its full text. -/
  | signature (text : String)
  | string (value : String)
  deriving DecidableEq, Repr

namespace Symbol

/-- The metadata table the symbol belongs to. -/
def table : Symbol → UInt8
  | type _ => 0x02
  | field _ => 0x04
  | method _ => 0x06
  | signature _ => 0x11
  | string _ => 0x70

def text : Symbol → String
  | type name | method name | field name => name
  | signature text => "method " ++ text
  | string value => Text.quoted value

def ofType (t : Ty) : Symbol := type t.name

def ofMethod (m : Method) : Symbol := method m.qualifiedName

def ofField (f : Field) : Symbol := field f.qualifiedName

def ofSignature (m : Method) : Symbol := signature m.text

def ofMember : Member → Symbol
  | .type t => ofType t
  | .method m => ofMethod m
  | .field f => ofField f

end Symbol

/-- A source of tokens for the types, members and strings that instructions refer to. -/
class TokenProvider (π : Type) where
  typeToken : Ty → π → Token × π
  methodToken : Method → π → Token × π
  fieldToken : Field → π → Token × π
  /-- The token of a call signature that stands alone. -/
  signatureToken : Method → π → Token × π
  stringToken : String → π → Token × π
  memberToken : Member → π → Token × π := fun
    | .type t => typeToken t
    | .method m => methodToken m
    | .field f => fieldToken f

/-- A symbol and its token. -/
structure Binding where
  token : Token
  symbol : Symbol
  deriving DecidableEq, Repr

/-- Bindings of symbols and tokens. -/
structure SymbolTable where
  /-- The bindings, in the order of the tokens. -/
  bindings : List Binding := []
  /-- The last row of each table in which a token was bound. -/
  rows : List (UInt8 × Nat) := []

namespace SymbolTable

/-- The last row that a table can have. -/
def maxRow : Nat := 0xFFFFFF

def size (t : SymbolTable) : Nat := t.bindings.length

def isEmpty (t : SymbolTable) : Bool := t.bindings.isEmpty

def symbol? (t : SymbolTable) (token : Token) : Option Symbol :=
  (t.bindings.find? (·.token = token)).map Binding.symbol

def token? (t : SymbolTable) (symbol : Symbol) : Option Token :=
  (t.bindings.find? (·.symbol = symbol)).map Binding.token

/-- The last row of a table that was bound, zero if there is none. -/
def lastRow (t : SymbolTable) (table : UInt8) : Nat :=
  ((t.rows.find? (·.1 = table)).map Prod.snd).getD 0

/-- Puts a binding at its place, in place of a binding of the same token. -/
def place (b : Binding) : List Binding → List Binding
  | [] => [b]
  | c :: rest =>
    if b.token.bits < c.token.bits then b :: c :: rest
    else if b.token = c.token then b :: rest
    else c :: place b rest

/-- Makes a binding, after which the table of its token has the given last row. -/
def put (t : SymbolTable) (b : Binding) (last : Nat) : SymbolTable where
  bindings := place b t.bindings
  rows := (b.token.table, last) :: t.rows.filter (·.1 ≠ b.token.table)

/-- Binds a symbol to a token.  If either is bound already, the pair is handed back. -/
protected def insert (symbol : Symbol) (token : Token) : EStateM Binding SymbolTable Unit := do
  let t ← get
  if (t.symbol? token).isSome || (t.token? symbol).isSome then
    throw ⟨token, symbol⟩
  set (t.put ⟨token, symbol⟩ (max (t.lastRow token.table) token.row.toNat))

/-- The row for the next symbol of a table. -/
def nextRow (t : SymbolTable) (table : UInt8) : Nat :=
  min (t.lastRow table + 1) maxRow

/-- The token of a symbol, bound now if it was not before. -/
def intern (t : SymbolTable) (symbol : Symbol) : Token × SymbolTable :=
  match t.token? symbol with
  | some token => (token, t)
  | none =>
    let row := t.nextRow symbol.table
    let token := Token.make symbol.table (UInt32.ofNat row)
    (token, t.put ⟨token, symbol⟩ row)

instance : TokenProvider SymbolTable where
  typeToken t table := table.intern (.ofType t)
  methodToken m table := table.intern (.ofMethod m)
  fieldToken f table := table.intern (.ofField f)
  signatureToken m table := table.intern (.ofSignature m)
  stringToken value table := table.intern (.string value)
  memberToken m table := table.intern (.ofMember m)

end SymbolTable

end Cil
