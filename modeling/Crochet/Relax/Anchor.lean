import Crochet.Fault
import Crochet.Index
import Crochet.Json.Reader
import Crochet.Vec3

/-!
# Anchors

An anchor holds a node at a point of space.  Of several anchors for one node the last one counts;
the *pins* of a fabric are the points that are left, by node.
-/

namespace Crochet

/-- A node and the point it is held at. -/
structure Anchor where
  node : Nat
  position : Vec3
  deriving Inhabited, Repr

namespace Anchor

/-! ## Reading -/

/-- An anchor as it is written: both fields may be missing, though that is a fault later on. -/
structure Entry where
  node? : Option Nat
  position? : Option Vec3
  deriving Inhabited, Repr

/-- How an anchor is written. -/
def layout : Json.Layout where
  names := ["node", "position"]
  least := 2
  closed := false

/-- A point, written as an array of three numbers. -/
def point? (json : Json) : Option Vec3 := do
  match ← Json.list? Json.float? json with
  | [x, y, z] => some ⟨x, y, z⟩
  | _ => none

/-- An anchor as it is written, from a JSON value. -/
def Entry.ofJson? (json : Json) : Option Entry := do
  match ← layout.fields? json with
  | [node, position] =>
    some ⟨← Json.optional? (Json.natural? (Nat.pow 2 64)) node, ← Json.optional? point? position⟩
  | _ => none

/-- The anchor meant, if nothing is missing. -/
def ofEntry (entry : Entry) : Except Fault Anchor :=
  match entry.node?, entry.position? with
  | some node, some position => .ok ⟨node, position⟩
  | none, _ => .error (.missingField .anchor "node")
  | some _, none => .error (.missingField .anchor "position")

/-- The anchors of a text: a JSON array of them. -/
def readAll (text : List Char) : Except Fault (List Anchor) :=
  match (Json.read? text).bind (Json.list? Entry.ofJson?) with
  | none => .error .malformed
  | some entries => entries.mapM ofEntry

/-! ## Pins -/

/-- Adds one anchor to the pins of a fabric with `count` nodes. -/
def addTo (count : Nat) (pins : Index Vec3) (anchor : Anchor) : Except Fault (Index Vec3) :=
  if count ≤ anchor.node then .error (.noSuchNode anchor.node count)
  else if anchor.position.isFinite then .ok (pins.insert anchor.node anchor.position)
  else .error (.anchorNotFinite anchor.node)

/-- The pins that anchors set on a fabric with `count` nodes. -/
def pins (count : Nat) (anchors : List Anchor) : Except Fault (Index Vec3) :=
  anchors.foldlM (addTo count) {}

end Anchor

end Crochet
