import Crochet.Mesh.FileName
import Crochet.Relax.Body
import Crochet.Text.Blank

/-!
# Meshes

The surface of a body as points and triangles, and the file formats it can be written in.
-/

namespace Crochet

/-- Points and triangles between them. -/
structure Mesh where
  positions : Array Vec3
  triangles : List Face
  deriving Inhabited, Repr

/-- The surface of a body. -/
def Body.mesh (b : Body) : Mesh := ⟨b.positions, b.rig.triangles⟩

namespace Mesh

/-- The point at an index. -/
def point (mesh : Mesh) (i : Nat) : Vec3 := mesh.positions.getD i .zero

/-- The file formats for meshes. -/
inductive Format where
  /-- Triangles in binary, each with its corners and its normal. -/
  | stl
  /-- Points and triangles as text. -/
  | ply
  deriving DecidableEq, Repr

namespace Format

/-- The format with a file extension in any ASCII case. -/
def ofExtension? (extension : List Char) : Option Format :=
  let lower := Text.lower extension
  if lower = ['s', 't', 'l'] then some stl
  else if lower = ['p', 'l', 'y'] then some ply
  else none

/-- The format that a path asks for. -/
def ofPath? (path : List Char) : Option Format := (FileName.extension? path).bind ofExtension?

end Format

end Mesh

end Crochet
