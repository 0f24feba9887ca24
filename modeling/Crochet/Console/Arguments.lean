import Crochet.Decimal.Numeral
import Crochet.Relax.Settings

/-!
# Arguments of the program

The words behind the name of the program: a task, then the places it works on and, for a relaxation,
switches with values.  A switch has a long name, written `--name value` or `--name=value`, and
perhaps a letter, written `-n value`, `-nvalue` or `-n=value`.  Two dashes alone end the switches.

The words are taken one by one; the first that is wrong, or that asks for help, decides.
-/

namespace Crochet

/-- The values of the switches of a relaxation. -/
structure Choices where
  part? : Option Nat := none
  ticks : Nat := 500
  timeStep? : Option Float := none
  passes? : Option Nat := none
  stiffness? : Option Float := none
  damping? : Option Float := none
  gauge? : Option Float := none
  config? : Option String := none
  anchors? : Option String := none
  deriving Inhabited, Repr

/-- What the program is asked to do. -/
inductive Task where
  /-- Describe the parts of a document. -/
  | info (input : String)
  /-- Say whether a document can be worked. -/
  | check (input : String)
  /-- Relax a part of a document and write its mesh. -/
  | relax (input output : String) (choices : Choices)
  deriving Repr

/-- Why there is nothing to do. -/
inductive Refusal where
  /-- The words ask for help. -/
  | help
  /-- The words ask for the version. -/
  | version
  /-- The words make no sense. -/
  | misuse
  deriving DecidableEq, Repr

/-! ## Switches -/

/-- The switches of a relaxation. -/
inductive Switch where
  | part
  | ticks
  | timeStep
  | passes
  | stiffness
  | damping
  | gauge
  | config
  | anchors
  deriving DecidableEq, Repr

namespace Switch

/-- All switches. -/
def all : List Switch :=
  [part, ticks, timeStep, passes, stiffness, damping, gauge, config, anchors]

/-- The long name of a switch. -/
def name : Switch → String
  | part => "part"
  | ticks => "ticks"
  | timeStep => "dt"
  | passes => "iterations"
  | stiffness => "stiffness"
  | damping => "damping"
  | gauge => "spacing"
  | config => "config"
  | anchors => "anchors"

/-- The letter of a switch, if it has one. -/
def letter? : Switch → Option Char
  | part => some 'p'
  | ticks => some 't'
  | passes => some 'i'
  | stiffness => some 's'
  | damping => some 'd'
  | _ => none

/-- A number in digits, perhaps with a plus in front, that fits 64 bits. -/
def count? (value : List Char) : Option Nat :=
  let digits :=
    match value with
    | '+' :: digits => digits
    | digits => digits
  (Decimal.whole? digits).filter (decide <| · < Nat.pow 2 64)

/-- A number in digits, perhaps with a sign in front, from nought to below `2^32`. -/
def partNumber? (value : List Char) : Option Nat :=
  let (sign, digits) := Decimal.Numeral.signOf value
  let bound := if sign = some true then 1 else Nat.pow 2 32
  (Decimal.whole? digits).filter (decide <| · < bound)

/-- A path, which has to have a character. -/
def path? (value : List Char) : Option String :=
  if value.isEmpty then none else some (String.ofList value)

/-- Notes the value of a switch, if it is one for this switch. -/
def set? (choices : Choices) (value : List Char) : Switch → Option Choices
  | part => (partNumber? value).map fun n => { choices with part? := some n }
  | ticks => (count? value).map fun n => { choices with ticks := n }
  | timeStep => (Decimal.read? value).map fun x => { choices with timeStep? := some x }
  | passes => (count? value).map fun n => { choices with passes? := some n }
  | stiffness => (Decimal.read? value).map fun x => { choices with stiffness? := some x }
  | damping => (Decimal.read? value).map fun x => { choices with damping? := some x }
  | gauge => (Decimal.read? value).map fun x => { choices with gauge? := some x }
  | config => (path? value).map fun p => { choices with config? := some p }
  | anchors => (path? value).map fun p => { choices with anchors? := some p }

end Switch

/-! ## Words -/

/-- What a task accepts behind its name. -/
structure Usage where
  /-- The number of places. -/
  places : Nat
  switches : List Switch

/-- What the words so far say. -/
structure Words where
  /-- The places, last first. -/
  places : List String := []
  choices : Choices := {}
  /-- The switches that have a value. -/
  given : List Switch := []
  /-- A switch that still lacks its value. -/
  pending? : Option Switch := none
  /-- Whether two dashes have ended the switches. -/
  ended : Bool := false
  deriving Inhabited

namespace Words

/-- One more place. -/
def addPlace (usage : Usage) (w : Words) (word : List Char) : Except Refusal Words :=
  match Switch.path? word with
  | some path =>
    if w.places.length < usage.places then .ok { w with places := path :: w.places }
    else .error .misuse
  | none => .error .misuse

/-- A value for a switch that has none yet. -/
def give (w : Words) (switch : Switch) (value : List Char) : Except Refusal Words :=
  if w.given.contains switch then .error .misuse
  else
    match switch.set? w.choices value with
    | some choices =>
      .ok { w with choices := choices, given := switch :: w.given, pending? := none }
    | none => .error .misuse

/-- A word with two dashes in front, without them. -/
def takeLong (usage : Usage) (w : Words) (body : List Char) : Except Refusal Words :=
  let name := String.ofList (body.takeWhile (· != '='))
  match usage.switches.find? (·.name == name), body.dropWhile (· != '=') with
  | some switch, [] => .ok { w with pending? := some switch }
  | some switch, _ :: value => w.give switch value
  | none, [] => .error (if name = "help" then .help else .misuse)
  | none, _ :: _ => .error .misuse

/-- A word with one dash in front, without it. -/
def takeShort (usage : Usage) (w : Words) (letter : Char) (rest : List Char) :
    Except Refusal Words :=
  match usage.switches.find? (·.letter? == some letter), rest with
  | some switch, [] => .ok { w with pending? := some switch }
  | some switch, '=' :: value => w.give switch value
  | some switch, value => w.give switch value
  | none, _ => .error (if letter = 'h' then .help else .misuse)

/-- One more word. -/
def take (usage : Usage) (w : Words) (word : List Char) : Except Refusal Words :=
  if w.ended then w.addPlace usage word
  else
    match w.pending?, word with
    | some _, '-' :: _ :: _ => .error .misuse
    | some switch, value => w.give switch value
    | none, ['-', '-'] => .ok { w with ended := true }
    | none, '-' :: '-' :: body => w.takeLong usage body
    | none, '-' :: letter :: rest => w.takeShort usage letter rest
    | none, word => w.addPlace usage word

/-- All words; the places are in order, and none is missing. -/
def takeAll (usage : Usage) (words : List String) : Except Refusal (List String × Choices) :=
  match words.foldlM (fun w word => take usage w word.toList) {} with
  | .error refusal => .error refusal
  | .ok w =>
    if w.pending?.isNone && w.places.length == usage.places then
      .ok (w.places.reverse, w.choices)
    else .error .misuse

end Words

/-! ## Tasks -/

namespace Task

/-- The names of the tasks, with one for help. -/
def names : List String := ["info", "check", "relax", "help"]

/-- The task that words ask for. -/
def ofWords : List String → Except Refusal Task
  | [] => .error .misuse
  | "info" :: rest =>
    match Words.takeAll ⟨1, []⟩ rest with
    | .ok ([input], _) => .ok (info input)
    | .ok _ => .error .misuse
    | .error refusal => .error refusal
  | "check" :: rest =>
    match Words.takeAll ⟨1, []⟩ rest with
    | .ok ([input], _) => .ok (check input)
    | .ok _ => .error .misuse
    | .error refusal => .error refusal
  | "relax" :: rest =>
    match Words.takeAll ⟨2, Switch.all⟩ rest with
    | .ok ([input, output], choices) => .ok (relax input output choices)
    | .ok _ => .error .misuse
    | .error refusal => .error refusal
  | ["help"] => .error .help
  | ["help", topic] => .error (if names.contains topic then .help else .misuse)
  | word :: _ =>
    match word.toList with
    | '-' :: '-' :: body =>
      .error (if body = "help".toList then .help
        else if body = "version".toList then .version else .misuse)
    | '-' :: 'h' :: _ => .error .help
    | '-' :: 'V' :: _ => .error .version
    | _ => .error .misuse

end Task

/-- Settings with the choices of the words put over them. -/
def Choices.over (choices : Choices) (settings : Settings) : Settings where
  gauge := choices.gauge?.getD settings.gauge
  damping := choices.damping?.getD settings.damping
  stiffness := choices.stiffness?.getD settings.stiffness
  passes := choices.passes?.getD settings.passes
  timeStep := choices.timeStep?.getD settings.timeStep
  recenter := settings.recenter

end Crochet
