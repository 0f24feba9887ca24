import Crochet.Document.Reader
import Crochet.Fabric.Join
import Crochet.Fabric.Work
import Crochet.Index

/-!
# Figures

A figure is the parts that a document builds, by number, with the one made last as the *current*
part.  A command changes one part or, if it fails, none.
-/

namespace Crochet

/-- The parts built so far. -/
structure Figure where
  parts : Index Fabric := {}
  /-- The number of the part made last. -/
  current? : Option Nat := none
  deriving Inhabited

namespace Figure

/-- The figure without parts. -/
def empty : Figure := {}

/-- The part with a number, if there is one. -/
def part? (f : Figure) (id : Nat) : Option Fabric := f.parts.find? id

/-- The current part, if there is one. -/
def current (f : Figure) : Option Fabric := f.current?.bind f.part?

/-- Makes a fabric the part with a number, and the current part. -/
def put (f : Figure) (id : Nat) (fabric : Fabric) : Figure := ⟨f.parts.insert id fabric, some id⟩

/-- The part with a number, or a fault. -/
def needPart (f : Figure) (id : Nat) : Except Fault Fabric :=
  match f.part? id with
  | some fabric => .ok fabric
  | none => .error (.noSuchPart id)

/-- Works rounds onto a part. -/
def workPattern (f : Figure) (id? : Option Nat) (rounds : List (List Item)) : Except Fault Figure :=
  match id? with
  | none => .error (.missingField .patternCommand "id")
  | some id =>
    match Pattern.ofItems rounds with
    | .error fault => .error fault
    | .ok pattern =>
      match ((f.part? id).getD .empty).append pattern with
      | .error halt => .error halt.fault
      | .ok fabric => .ok (f.put id fabric)

/-- Puts one part beside another. -/
def joinParts (f : Figure) (first second made : Nat) : Except Fault Figure :=
  match f.needPart first with
  | .error fault => .error fault
  | .ok a =>
    match f.needPart second with
    | .error fault => .error fault
    | .ok b => .ok (f.put made (a.join b))

/-- One command. -/
def execute (f : Figure) : Command → Except Fault Figure
  | .pattern id? rounds => f.workPattern id? rounds
  | .join none _ _ => .error (.missingField .joinCommand "pattern")
  | .join (some _) none _ => .error (.missingField .joinCommand "with")
  | .join (some _) (some _) none => .error (.missingField .joinCommand "make")
  | .join (some first) (some second) (some made) => f.joinParts first second made

/-- Commands in order, the first of them with the number `index`. -/
def executeAll (f : Figure) (index : Nat) : List Command → Except Fault Figure
  | [] => .ok f
  | command :: rest =>
    match f.execute command with
    | .error fault => .error (.inCommand index fault)
    | .ok g => g.executeAll (index + 1) rest

/-- The figure of a document. -/
def ofDocument (document : Document) : Except Fault Figure := empty.executeAll 0 document.commands

/-- The figure of a document given as a text. -/
def read (text : List Char) : Except Fault Figure :=
  match Document.read text with
  | .error fault => .error fault
  | .ok document => ofDocument document

end Figure

end Crochet
