import Crochet.Console.Arguments
import Crochet.Console.Bar
import Crochet.Console.Describe
import Crochet.Mesh.Export

/-!
# The program

The tasks of the program over a `Host`, which is all that it can see of the world: files, a screen
for results and a screen for messages.
-/

namespace Crochet

/-- What the program can do to the world. -/
structure Host (m : Type → Type) where
  /-- The text of a file, or the reason why it cannot be had. -/
  read : String → m (Except String (List Char))
  /-- Writes a file; the result is the reason why it cannot be done, if there is one. -/
  write : String → List UInt8 → m (Option String)
  /-- Prints a line of results. -/
  say : String → m Unit
  /-- Prints a message as it is. -/
  tell : String → m Unit

namespace Program

variable {m : Type → Type} [Monad m]

/-- Goes on with a result, or stops at a fault. -/
def need {α : Type} : Except Fault α → ExceptT Failure m α
  | .ok a => pure a
  | .error fault => throw (.fault fault)

/-- The text of a file. -/
def load (host : Host m) (path : String) : ExceptT Failure m (List Char) := do
  match ← host.read path with
  | .ok text => pure text
  | .error reason => throw (.fault (.unusableFile reason))

/-- Prints all of a printout. -/
def print (host : Host m) (printout : Printout) : ExceptT Failure m Unit := do
  for line in printout.lines do
    host.say line
  match printout.failure? with
  | some failure => throw failure
  | none => pure ()

/-! ## Tasks -/

/-- Describes the parts of a document. -/
def info (host : Host m) (input : String) : ExceptT Failure m Unit := do
  match ← host.read input with
  | .ok text => print host (Describe.info input text)
  | .error reason => throw (.unreadable reason)

/-- Says whether a document can be worked. -/
def check (host : Host m) (input : String) : ExceptT Failure m Unit := do
  print host (Describe.check (← load host input))

/-- The settings of a relaxation: those of a file or the usual ones, with the choices over them. -/
def settings (host : Host m) (choices : Choices) : ExceptT Failure m Settings := do
  match choices.config? with
  | none => pure (choices.over {})
  | some path => pure (choices.over (← need (Settings.read (← load host path))))

/-- The anchors of a relaxation. -/
def anchors (host : Host m) (choices : Choices) : ExceptT Failure m (List Anchor) := do
  match choices.anchors? with
  | none => pure []
  | some path => need (Anchor.readAll (← load host path))

/-- The part of a figure that is to be relaxed. -/
def pick (figure : Figure) : Option Nat → Except Failure Fabric
  | some id =>
    match figure.needPart id with
    | .ok fabric => .ok fabric
    | .error fault => .error (.fault fault)
  | none =>
    match figure.current with
    | some fabric => .ok fabric
    | none => .error .noParts

/-- The number of ticks from one report to the next. -/
def reportInterval : Nat := 10

/-- Draws a report on the screen for messages. -/
def draw (host : Host m) (report : Report) : StateT Bar m Unit := do
  let (drawing?, bar) := (← get).step report
  set bar
  match drawing? with
  | some drawing => host.tell drawing.text
  | none => pure ()

/-- Runs a body and shows how far it has come. -/
def runShown (host : Host m) (dt : Float) (ticks : Nat) (body : Body) : m Body := do
  let (body, _) ← (body.runWatched (draw host) reportInterval dt ticks).run {}
  pure body

/-- Relaxes a part of a document and writes its mesh. -/
def relax (host : Host m) (input output : String) (choices : Choices) :
    ExceptT Failure m Unit := do
  let settings ← settings host choices
  let anchors ← anchors host choices
  let figure ← need (Figure.read (← load host input))
  let fabric ← ExceptT.mk (pure (pick figure choices.part?))
  host.say (Describe.fabric fabric)
  host.say (Describe.plan choices.ticks settings)
  let body ← need (Body.start fabric anchors settings)
  let body ← ExceptT.lift (runShown host settings.timeStep choices.ticks body)
  host.say (Describe.strain body.strain)
  let bytes ← need (body.mesh.encodeFor output.toList)
  match ← host.write output bytes with
  | some reason => throw (.fault (.unusableFile reason))
  | none => host.say ("Saved to: " ++ output)

/-- One task. -/
def perform (host : Host m) : Task → ExceptT Failure m Unit
  | .info input => info host input
  | .check input => check host input
  | .relax input output choices => relax host input output choices

/-! ## Running -/

/-- What the program says about itself. -/
def usage : String :=
  "Usage: amigurumi info <INPUT>\n" ++
    "       amigurumi check <INPUT>\n" ++
    "       amigurumi relax [OPTIONS] <INPUT> <OUTPUT>\n\n" ++
    "Options: -p, --part; -t, --ticks; --dt; -i, --iterations; -s, --stiffness;\n" ++
    "         -d, --damping; --spacing; --config; --anchors; -h, --help; -V, --version"

/-- The name and the version of the program. -/
def version : String := "amigurumi 0.1.0"

/-- Runs the program; the result is its exit code. -/
def run (host : Host m) (words : List String) : m UInt32 := do
  match Task.ofWords words with
  | .error .help => host.say usage; pure 0
  | .error .version => host.say version; pure 0
  | .error .misuse => host.tell (usage ++ "\n"); pure 2
  | .ok task =>
    match ← (perform host task).run with
    | .ok () => pure 0
    | .error failure => host.tell ("Error: " ++ failure.message ++ "\n"); pure 1

end Program

end Crochet
