import Crochet.Decimal.Numeral

/-!
# JSON values

The value a JSON text stands for.  It keeps what later decides whether a value is acceptable: the
order and repetition of fields, numbers as they are written, and texts that have no meaning because
half of a surrogate pair is missing.  A skipped value may hold anything that the grammar allows;
one that is kept must be `keepable`.
-/

namespace Crochet

/-- A JSON value. -/
inductive Json where
  | null
  | bool (value : Bool)
  | number (numeral : Decimal.Numeral)
  /-- A text, or `none` for one with half of a surrogate pair. -/
  | string (text : Option String)
  | array (items : List Json)
  | object (fields : List (Option String × Json))
  deriving Inhabited, Repr

namespace Json

/-- Whether a value can be kept: every text has a meaning, every number fits a double, and arrays
and objects are nested at most `depth` deep. -/
def keepable : Nat → Json → Bool
  | _, .null => true
  | _, .bool _ => true
  | _, .number n => n.quick?.isSome
  | _, .string text => text.isSome
  | 0, .array _ => false
  | 0, .object _ => false
  | depth + 1, .array items => items.all (keepable depth)
  | depth + 1, .object fields =>
    fields.all fun field => field.1.isSome && keepable depth field.2

/-! ## Reading a value as a given type -/

/-- A natural number below `bound`, written without sign, point and exponent. -/
def natural? (bound : Nat) : Json → Option Nat
  | .number n => n.natural?.filter (decide <| · < bound)
  | _ => none

/-- A number of any form as a double. -/
def float? : Json → Option Float
  | .number n => n.quick?
  | _ => none

/-- A truth value. -/
def bool? : Json → Option Bool
  | .bool b => some b
  | _ => none

/-- A text that has a meaning. -/
def string? : Json → Option String
  | .string text => text
  | _ => none

/-- The items of an array, each read in the same way. -/
def list? {α : Type} (read : Json → Option α) : Json → Option (List α)
  | .array items => items.mapM read
  | _ => none

/-! ## Records -/

/-- How a record may be written: as an object with the named fields, or as an array of the fields in
order. -/
structure Layout where
  /-- The names of the fields. -/
  names : List String
  /-- How many fields the array form must have at least. -/
  least : Nat
  /-- Whether a name outside the list is an error instead of being skipped. -/
  closed : Bool
  deriving Repr, DecidableEq

/-- The value of the field called `name`, if there is one; `none` if there are several. -/
def single? (fields : List (Option String × Json)) (name : String) : Option (Option Json) :=
  match fields.filter (fun field => field.1 == some name) with
  | [] => some none
  | [field] => some (some field.2)
  | _ => none

/-- The fields of a record in the order of the layout, each with its value if it is written. -/
def Layout.fields? (layout : Layout) : Json → Option (List (Option Json))
  | .array items =>
    if layout.least ≤ items.length ∧ items.length ≤ layout.names.length then
      some (items.map some ++ List.replicate (layout.names.length - items.length) none)
    else none
  | .object fields =>
    let known (name : String) := !layout.closed || layout.names.contains name
    if fields.all (fun field => field.1.any known) then layout.names.mapM (single? fields) else none
  | _ => none

/-- A field that may be left out or be `null`. -/
def optional? {α : Type} (read : Json → Option α) : Option Json → Option (Option α)
  | none => some none
  | some .null => some none
  | some value => (read value).map some

/-- A field that may be left out, but must be right when it is written. -/
def orElse? {α : Type} (read : Json → Option α) (absent : α) : Option Json → Option α
  | none => some absent
  | some value => read value

end Json

end Crochet
