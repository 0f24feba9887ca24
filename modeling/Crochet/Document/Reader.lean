import Crochet.Document.Basic
import Crochet.Json.Reader

/-!
# Reading documents

Documents, commands and items as JSON.  Every record may be written as an object or as an array of
its fields in order.  A command says in its field `type`, or in the first place of its array, which
of the two kinds it is.  All of a command must be fit to be kept, also what is skipped in it.
-/

namespace Crochet

/-- A number that fits 64 bits. -/
def word64? : Json → Option Nat := Json.natural? (Nat.pow 2 64)

/-- A number that fits 32 bits. -/
def word32? : Json → Option Nat := Json.natural? (Nat.pow 2 32)

/-! ## Items -/

namespace Item

/-- How an item is written. -/
def layout : Json.Layout where
  names := ["op", "count", "node", "with"]
  least := 4
  closed := false

/-- An item from a JSON value. -/
def ofJson? (json : Json) : Option Item := do
  match ← layout.fields? json with
  | [name, count, node, other] =>
    some
      { name? := ← Json.optional? Json.string? name
        count? := ← Json.optional? word64? count
        node? := ← Json.optional? word64? node
        other? := ← Json.optional? word64? other }
  | _ => none

end Item

/-! ## Commands -/

namespace Command

/-- How the fields of a pattern command are written. -/
def patternLayout : Json.Layout where
  names := ["id", "rounds"]
  least := 1
  closed := false

/-- How the fields of a join command are written. -/
def joinLayout : Json.Layout where
  names := ["pattern", "with", "make"]
  least := 3
  closed := false

/-- The kind of a command, and the record of its other fields. -/
def split? : Json → Option (String × Json)
  | .object fields => do
    match ← Json.single? fields "type" with
    | some (.string (some kind)) =>
      some (kind, .object (fields.filter fun field => field.1 != some "type"))
    | _ => none
  | .array (.string (some kind) :: items) => some (kind, .array items)
  | _ => none

/-- A pattern command from the record of its fields. -/
def patternOfJson? (json : Json) : Option Command := do
  match ← patternLayout.fields? json with
  | [id, rounds] =>
    some (.pattern (← Json.optional? word32? id)
      (← Json.orElse? (Json.list? (Json.list? Item.ofJson?)) [] rounds))
  | _ => none

/-- A join command from the record of its fields. -/
def joinOfJson? (json : Json) : Option Command := do
  match ← joinLayout.fields? json with
  | [first, second, made] =>
    some (.join (← Json.optional? word32? first) (← Json.optional? word32? second)
      (← Json.optional? word32? made))
  | _ => none

/-- A command from a JSON value in which at most `depth` arrays and objects are nested. -/
def ofJson? (depth : Nat) (json : Json) : Option Command :=
  if json.keepable depth then
    match split? json with
    | some ("pattern", body) => patternOfJson? body
    | some ("join", body) => joinOfJson? body
    | _ => none
  else none

/-- The depth to which values may be nested that are kept. -/
def maxDepth : Nat := 127

/-- A command from a text. -/
def read (text : List Char) : Except Fault Command :=
  match (Json.read? text).bind (ofJson? maxDepth) with
  | none => .error .malformed
  | some command => .ok command

end Command

/-! ## Documents -/

namespace Document

/-- How a document is written. -/
def layout : Json.Layout where
  names := ["commands"]
  least := 0
  closed := false

/-- A document from a JSON value.  Commands are nested two deep in it. -/
def ofJson? (json : Json) : Option Document := do
  match ← layout.fields? json with
  | [commands] =>
    some ⟨← Json.orElse? (Json.list? (Command.ofJson? (Command.maxDepth - 2))) [] commands⟩
  | _ => none

/-- A document from a text. -/
def read (text : List Char) : Except Fault Document :=
  match (Json.read? text).bind ofJson? with
  | none => .error .malformed
  | some document => .ok document

end Document

end Crochet
