import Crochet.Console.Failure
import Crochet.Figure
import Crochet.Relax.Strain

/-!
# Descriptions of documents

What the program says about a document and its parts.  A `Printout` is the lines that are printed
and, if the task failed after them, the reason.
-/

namespace Crochet

/-- Lines, and the failure that came after them. -/
structure Printout where
  lines : List String := []
  failure? : Option Failure := none
  deriving Inhabited

namespace Printout

/-- Nothing but a failure. -/
def ofFault (fault : Fault) : Printout := ⟨[], some (.fault fault)⟩

/-- A printout with lines before it. -/
def after (lines : List String) (p : Printout) : Printout := { p with lines := lines ++ p.lines }

end Printout

namespace Describe

/-- The lines about one part. -/
def part (id : Nat) (fabric : Fabric) (current : Bool) : List String :=
  ["Part " ++ toString id ++ (if current then " (current)" else "") ++ ":",
    "  Nodes: " ++ toString fabric.size,
    "  Edges: " ++ toString fabric.edges.size,
    "  Faces: " ++ toString fabric.faces.size,
    "  Joints: " ++ toString fabric.joints.size,
    "  Live stitches: " ++ toString fabric.outline.length,
    "  Stitches worked: " ++ toString fabric.consumed]

/-- The lines about all parts of a figure, by number. -/
def parts (figure : Figure) : List String :=
  figure.parts.entries.flatMap fun entry =>
    part entry.1 entry.2 (figure.current? == some entry.1)

/-- The line about one pattern command. -/
def advice (index : Nat) (id? : Option Nat) (pattern : Pattern) : String :=
  "Command " ++ toString index ++ " (part " ++ (id?.map toString).getD "?" ++ "): " ++
    toString pattern.rounds.length ++ " rounds, stitch counts " ++
    if pattern.isConsistent then "consistent" else "INCONSISTENT"

/-- The lines about all pattern commands, the first command with the number `index`. -/
def advices (index : Nat) : List Command → Printout
  | [] => {}
  | .join _ _ _ :: rest => advices (index + 1) rest
  | .pattern id? rounds :: rest =>
    match Pattern.ofItems rounds with
    | .error fault => .ofFault fault
    | .ok pattern => (advices (index + 1) rest).after [advice index id? pattern]

/-- What there is to say about a document in a file. -/
def info (path : String) (text : List Char) : Printout :=
  match Document.read text with
  | .error fault => .ofFault fault
  | .ok document =>
    match Figure.ofDocument document with
    | .error fault => .ofFault fault
    | .ok figure =>
      (advices 0 document.commands).after <|
        ["File: " ++ path,
          "Commands: " ++ toString document.commands.length,
          "Parts: " ++ toString figure.parts.size] ++ parts figure

/-- Whether a document can be worked. -/
def check (text : List Char) : Printout :=
  match Figure.read text with
  | .error fault => .ofFault fault
  | .ok figure => { lines := ["OK: " ++ toString figure.parts.size ++ " parts"] }

/-! ## Relaxations -/

/-- The line about a fabric before it is relaxed. -/
def fabric (g : Fabric) : String :=
  "Loaded: " ++ toString g.size ++ " nodes, " ++ toString g.edges.size ++ " edges, " ++
    toString g.faces.size ++ " faces, " ++ toString g.joints.size ++ " joints"

/-- The line about a relaxation before it starts. -/
def plan (ticks : Nat) (settings : Settings) : String :=
  let number (x : Float) := String.ofList (Decimal.shortest x)
  "Relaxing (" ++ toString ticks ++ " ticks, dt=" ++ number settings.timeStep ++
    ", iterations=" ++ toString settings.passes ++ ", stiffness=" ++ number settings.stiffness ++
    ", damping=" ++ number settings.damping ++ ")..."

/-- The line about the strain that is left. -/
def strain (s : Strain) : String :=
  let number (x : Float) := String.ofList (Decimal.fixed 4 x)
  "Edge length / rest: mean " ++ number s.mean ++ ", std dev " ++ number s.deviation ++
    ", max error " ++ number s.worst ++ " (" ++ toString s.count ++ " edges)"

end Describe

end Crochet
