import Crochet.Mesh.Basic

/-!
# Meshes as STL bytes

Eighty zero bytes, the number of triangles, and a record of fifty bytes for each triangle: the
normal and the three corners as twelve singles, and two zero bytes.  Numbers have their lowest byte
first.  The reader gives the bits of the twelve singles back.
-/

namespace Crochet.Mesh.Stl

/-! ## Writing -/

/-- A triangle with what is written about it. -/
structure Facet where
  normal : Vec3.Single
  a : Vec3.Single
  b : Vec3.Single
  c : Vec3.Single
  deriving Inhabited, Repr

/-- Triangles whose area is up to half of this have no normal. -/
def tiny : Float := 1e-12

/-- The normal of the triangle between three points; no direction for one without area. -/
def normal (a b c : Vec3) : Vec3 := (((b - a).cross (c - a)).unit? tiny).getD .zero

/-- What is written about a triangle of a mesh. -/
def facet (mesh : Mesh) (face : Face) : Facet :=
  let a := mesh.point face.a
  let b := mesh.point face.b
  let c := mesh.point face.c
  ⟨(normal a b c).toSingle, a.toSingle, b.toSingle, c.toSingle⟩

/-- The lowest `count` bytes of a number, lowest first. -/
def bytesOf : Nat → Nat → List UInt8
  | 0, _ => []
  | count + 1, n => UInt8.ofNat n :: bytesOf count (n / 256)

/-- The bits of the singles of a point. -/
def pointBits (p : Vec3.Single) : List UInt32 := [p.x.toBits, p.y.toBits, p.z.toBits]

/-- The bits of the twelve singles of a triangle. -/
def facetBits (f : Facet) : List UInt32 :=
  pointBits f.normal ++ pointBits f.a ++ pointBits f.b ++ pointBits f.c

/-- The record of a triangle. -/
def recordOf (f : Facet) : List UInt8 :=
  (facetBits f).flatMap (fun bits => bytesOf 4 bits.toNat) ++ bytesOf 2 0

/-- A mesh as bytes. -/
def bytes (mesh : Mesh) : List UInt8 :=
  List.replicate 80 0 ++ bytesOf 4 mesh.triangles.length ++
    mesh.triangles.flatMap fun face => recordOf (facet mesh face)

/-! ## Reading -/

/-- The number that bytes stand for, lowest first. -/
def valueOf : List UInt8 → Nat
  | [] => 0
  | byte :: rest => byte.toNat + 256 * valueOf rest

/-- Cuts `count` pieces of `size` items off a list; what is left over is dropped. -/
def pieces {α : Type} (size : Nat) : Nat → List α → List (List α)
  | 0, _ => []
  | count + 1, items => items.take size :: pieces size count (items.drop size)

/-- The bits of the twelve singles of a record. -/
def readRecord (record : List UInt8) : List UInt32 :=
  (pieces 4 12 record).map fun word => UInt32.ofNat (valueOf word)

/-- The records of a file, if it has exactly as many as it says. -/
def read? (file : List UInt8) : Option (List (List UInt32)) :=
  let count := valueOf ((file.drop 80).take 4)
  if file.length = 84 + 50 * count then
    some ((pieces 50 count (file.drop 84)).map readRecord)
  else none

end Crochet.Mesh.Stl
