/-
Branch targets as the checker sees them.

A label is marked at most once.  The first stack that reaches it, by a branch or by falling into
it, is kept; every later one has to meet that snapshot, since stacks are never merged.
-/
import Cil.Rejection

namespace Cil

structure Label where
  name : String
  /-- Has the label been bound to a position? -/
  marked : Bool := false
  /-- Does some branch name it? -/
  targeted : Bool := false
  /-- The first stack that reached it, top first. -/
  snapshot : Option (List Entry) := none
  /-- The same label's index in the sink the checked calls go to. -/
  downstream : Nat
  deriving Inhabited

/-- The labels of a method, by index. -/
structure LabelTable where
  labels : Array Label := #[]

namespace LabelTable

/-- Adds a label; its index is the number of labels before. -/
def create (t : LabelTable) (name : String) (downstream : Nat) : LabelTable :=
  ⟨t.labels.push { name, downstream }⟩

/-- The label with the given index. -/
def find (t : LabelTable) (index : Nat) : Except Rejection Label :=
  match t.labels[index]? with
  | some l => .ok l
  | none => .error (.violation (.unknownLabel index))

/-- Replaces the label with the given index. -/
def put (t : LabelTable) (index : Nat) (l : Label) : LabelTable :=
  ⟨t.labels.setIfInBounds index l⟩

/-- Binds a label to the current position. -/
def mark (index : Nat) : Step LabelTable Unit := fun t =>
  match t.find index with
  | .error e => .error e t
  | .ok l =>
    if l.marked then .error (.violation (.labelAlreadyMarked l.name)) t
    else .ok () (t.put index { l with marked := true })

/-- Records that control reaches a label with the given entries, top first. -/
def reach (index : Nat) (entries : List Entry) (byBranch : Bool) : Step LabelTable Unit := fun t =>
  match t.find index with
  | .error e => .error e t
  | .ok l =>
    let l := { l with targeted := l.targeted || byBranch }
    match l.snapshot with
    | none => .ok () (t.put index { l with snapshot := some entries })
    | some snapshot =>
      if Stack.entriesMeet entries snapshot then .ok () (t.put index l)
      else
        .error (.unsupported (.stackMerge l.name snapshot.reverse entries.reverse)) (t.put index l)

/-- The first label that a branch names and that was never marked. -/
def firstUnmarkedTarget? (t : LabelTable) : Option Label :=
  t.labels.find? fun l => l.targeted && !l.marked

end LabelTable

end Cil
