import Crochet.Mesh.Ply
import Crochet.Mesh.Stl

/-!
# Exporting a mesh

The name of a file decides the format in which a mesh is written to it.
-/

namespace Crochet.Mesh

/-- The bytes of a text of ASCII characters. -/
def asciiBytes (text : List Char) : List UInt8 := text.map fun c => UInt8.ofNat c.toNat

/-- A mesh in a format. -/
def encode (mesh : Mesh) : Format → List UInt8
  | .stl => Stl.bytes mesh
  | .ply => asciiBytes (Ply.text mesh)

/-- A mesh in the format that a path asks for. -/
def encodeFor (mesh : Mesh) (path : List Char) : Except Fault (List UInt8) :=
  match Format.ofPath? path with
  | some format => .ok (mesh.encode format)
  | none => .error (.unknownFormat ((FileName.extension? path).map String.ofList))

end Crochet.Mesh
