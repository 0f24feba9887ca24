import Crochet.Decimal.Numeral
import Crochet.Decimal.Shortest
import Crochet.Mesh.Basic
import Crochet.Text.Cut

/-!
# Meshes as PLY text

A header with the numbers of points and triangles, a line for each point with its coordinates in the
fewest digits, and a line for each triangle with the number of its corners and their indices.  The
reader goes through the header line by line to its end, takes the counts from what it announces, and
gives the coordinates back as they are written.
-/

namespace Crochet.Mesh.Ply

/-! ## Writing -/

/-- The lines before the points. -/
def header (points triangles : Nat) : List (List Char) :=
  ["ply".toList, "format ascii 1.0".toList, "comment Generated by amigurumi".toList,
    "element vertex ".toList ++ Decimal.digits points,
    "property float x".toList, "property float y".toList, "property float z".toList,
    "element face ".toList ++ Decimal.digits triangles,
    "property list uchar int vertex_indices".toList, "end_header".toList]

/-- The line of a point. -/
def pointLine (p : Vec3) : List Char :=
  Text.join ' ' [Decimal.shortest p.x, Decimal.shortest p.y, Decimal.shortest p.z]

/-- The line of a triangle. -/
def triangleLine (face : Face) : List Char :=
  Text.join ' ' [['3'], Decimal.digits face.a, Decimal.digits face.b, Decimal.digits face.c]

/-- The lines of a mesh. -/
def lines (mesh : Mesh) : List (List Char) :=
  header mesh.positions.size mesh.triangles.length ++
    mesh.positions.toList.map pointLine ++ mesh.triangles.map triangleLine

/-- Lines as a text, each with a line end. -/
def unlines (lines : List (List Char)) : List Char := lines.flatMap (· ++ ['\n'])

/-- A mesh as a text. -/
def text (mesh : Mesh) : List Char := unlines (lines mesh)

/-! ## Reading -/

/-- What a text says about a mesh: coordinates as they are written, and triangles. -/
structure Content where
  points : List (List (List Char))
  triangles : List Face
  deriving DecidableEq, Repr, Inhabited

/-- The lines of a text in which every line has an end. -/
def lines? (text : List Char) : Option (List (List Char)) :=
  let pieces := Text.cut '\n' text
  if pieces.getLast? = some [] then some pieces.dropLast else none

/-- One kind of thing that a header announces. -/
structure Element where
  name : List Char
  /-- How many of it there are. -/
  count : Nat
  /-- What is written about each of them, in words. -/
  properties : List (List (List Char))
  deriving DecidableEq, Repr, Inhabited

/-- The elements announced so far, the latest first, after one more line of a header.  A comment
says nothing, and a property belongs to the latest element. -/
def announce? (elements : List Element) : List (List Char) → Option (List Element)
  | [] => none
  | keyword :: words =>
    if keyword = "comment".toList then some elements
    else if keyword = "element".toList then
      match words with
      | [name, count] => (Decimal.whole? count).map fun n => ⟨name, n, []⟩ :: elements
      | _ => none
    else if keyword = "property".toList then
      match elements with
      | latest :: earlier =>
        some ({ latest with properties := latest.properties ++ [words] } :: earlier)
      | [] => none
    else none

/-- The elements that the lines of a header announce after those before them, in order, and the
lines behind the one that ends it. -/
def readHeader? (elements : List Element) :
    List (List Char) → Option (List Element × List (List Char))
  | [] => none
  | line :: rest =>
    if line = "end_header".toList then some (elements.reverse, rest)
    else (announce? elements (Text.cut ' ' line)).bind fun next => readHeader? next rest

/-- The elements that a file announces, in order, and the lines behind its header. -/
def announced? (all : List (List Char)) : Option (List Element × List (List Char)) :=
  if all.take 2 = ["ply".toList, "format ascii 1.0".toList] then readHeader? [] (all.drop 2)
  else none

/-- Points, announced as three numbers each. -/
def vertices (count : Nat) : Element :=
  ⟨"vertex".toList, count,
    [["float".toList, ['x']], ["float".toList, ['y']], ["float".toList, ['z']]]⟩

/-- Triangles, announced as a list of indices each. -/
def faces (count : Nat) : Element :=
  ⟨"face".toList, count,
    [["list".toList, "uchar".toList, "int".toList, "vertex_indices".toList]]⟩

/-- The numbers of points and triangles, if these are what is announced. -/
def counts? : List Element → Option (Nat × Nat)
  | [points, triangles] =>
    if points = vertices points.count ∧ triangles = faces triangles.count then
      some (points.count, triangles.count)
    else none
  | _ => none

/-- The coordinates of a point. -/
def readPoint? (line : List Char) : Option (List (List Char)) :=
  let words := Text.cut ' ' line
  if words.length = 3 then some words else none

/-- The triangle of a line. -/
def readTriangle? (line : List Char) : Option Face :=
  match Text.cut ' ' line with
  | [['3'], a, b, c] => do some ⟨← Decimal.whole? a, ← Decimal.whole? b, ← Decimal.whole? c⟩
  | _ => none

/-- What a text says about a mesh, if it is one with nothing left over: behind the header there is a
line for each of the points that it announces, and then one for each of the triangles. -/
def read? (text : List Char) : Option Content := do
  let (elements, body) ← announced? (← lines? text)
  let (points, triangles) ← counts? elements
  if body.length = points + triangles then
    some ⟨← (body.take points).mapM readPoint?, ← (body.drop points).mapM readTriangle?⟩
  else none

end Crochet.Mesh.Ply
