/-
The command line, without its input and output.

`verify` assembles a text through a verifier into bytes and lists the result with its tokens, and
`decode` lists the instructions of a file.  A command is run on the content of its file and answers
with what is to be printed and the exit code.
-/
import Cil.Assembly
import Cil.Code.Listing
import Cil.Verifier
import Cil.Writer

namespace Cil

/-- The method that `verify` checks. -/
structure VerifyOptions where
  /-- The types of the parameters. -/
  parameters : List String := []
  /-- Nothing is returned without a return type. -/
  returns : Option String := none
  /-- The type of which the method is an instance method. -/
  instanceOf : Option String := none
  maxStack : Nat := 8
  localsZeroed : Bool := true

inductive Command where
  | verify (file : String) (options : VerifyOptions)
  | decode (file : String)

/-- Why a command fails. -/
inductive CommandError where
  | missingFile (file : String)
  | notText (file : String)
  | unknownType (name : String)
  | assembly (e : AssemblyError)
  | decode (e : DecodeError)

/-- What is printed, and the exit code. -/
structure Outcome where
  stdout : String
  stderr : String
  exit : UInt32
  deriving DecidableEq

namespace CommandError

/-- The message and what lies behind it.  A refused line gives its reason a second time. -/
def message : CommandError → String
  | missingFile file => "reading " ++ file ++ ": No such file or directory (os error 2)"
  | notText file => "reading " ++ file ++ ": stream did not contain valid UTF-8"
  | unknownType name => "unknown type " ++ name
  | assembly e =>
    match e with
    | .rejected _ r => e.message ++ ": " ++ r.message
    | _ => e.message
  | decode e => e.message

end CommandError

namespace Outcome

/-- Success, with what is printed. -/
def success (stdout : String) : Outcome := ⟨stdout, "", 0⟩

/-- Failure, after some output. -/
def failure (stdout : String) (e : CommandError) : Outcome :=
  ⟨stdout, "error: " ++ e.message ++ "\n", 1⟩

end Outcome

namespace VerifyOptions

def resolve (env : Environment) (name : String) : Except CommandError Ty :=
  match env.typeNamed? name with
  | some t => .ok t
  | none => .error (.unknownType name)

/-- The type of a static method that belongs to no given type. -/
def programType : Ty := Ty.plainClass "Program" (some .object)

/-- The method to be checked. -/
def subject (env : Environment) (o : VerifyOptions) : Except CommandError Subject := do
  let parameters ← o.parameters.mapM (resolve env)
  let returnType ← o.returns.mapM (resolve env)
  let owner ← o.instanceOf.mapM (resolve env)
  let method : Method :=
    { name := "Main", declaringType := owner.getD programType, parameters, returnType,
      isStatic := owner.isNone }
  return { method, maxStack := o.maxStack, localsZeroed := o.localsZeroed }

end VerifyOptions

namespace Command

/-- The file a command reads. -/
def file : Command → String
  | verify file _ | decode file => file

/-- The instructions and the tokens of what was written. -/
def listWritten (w : Writer) : Outcome :=
  match Code.listing w.bytes with
  | .error e => .failure "" (.decode e)
  | .ok text =>
    .success (text ++ String.join (w.symbols.bindings.map fun b =>
      "  " ++ b.token.text ++ " = " ++ b.symbol.text ++ "\n"))

/-- Assembles a text through a verifier.  If that fails the verifier's state is printed; names in a
text hold no escape, so that the state has a width. -/
def verifyText (options : VerifyOptions) (text : String) : Outcome :=
  match options.subject .initial with
  | .error e => .failure "" e
  | .ok subject =>
    match assemble .initial text (Verifier.start subject ({} : Writer)) with
    | (.ok _, v) => listWritten v.downstream
    | (.error e, v) => .failure (v.checker.text?.getD "" ++ "\n") (.assembly e)

def decodeBytes (bytes : List UInt8) : Outcome :=
  match Code.listing bytes with
  | .ok text => .success text
  | .error e => .failure "" (.decode e)

/-- Runs a command on the content of its file, if the file exists. -/
def run (c : Command) (content : Option ByteArray) : Outcome :=
  match content with
  | none => .failure "" (.missingFile c.file)
  | some bytes =>
    match c with
    | decode _ => decodeBytes bytes.toList
    | verify file options =>
      match String.fromUTF8? bytes with
      | none => .failure "" (.notText file)
      | some text => verifyText options text

/-! ### Reading the arguments -/

def usage : String :=
  "usage: cil verify FILE [--arg TYPE]... [--returns TYPE] [--instance-of TYPE]\n" ++
  "                       [--max-stack N] [--no-locals-init]\n" ++
  "       cil decode FILE\n"

/-- The options after the name of the file. -/
def options? : VerifyOptions → List String → Option VerifyOptions
  | o, [] => some o
  | o, "--arg" :: t :: rest => options? { o with parameters := o.parameters ++ [t] } rest
  | o, "--returns" :: t :: rest => options? { o with returns := some t } rest
  | o, "--instance-of" :: t :: rest => options? { o with instanceOf := some t } rest
  | o, "--max-stack" :: n :: rest =>
    match n.toNat? with
    | some n => options? { o with maxStack := n } rest
    | none => none
  | o, "--no-locals-init" :: rest => options? { o with localsZeroed := false } rest
  | _, _ => none

/-- The command that the arguments give. -/
def ofArguments? : List String → Option Command
  | ["decode", file] => some (decode file)
  | "verify" :: file :: rest => (options? {} rest).map (verify file)
  | _ => none

end Command

end Cil
