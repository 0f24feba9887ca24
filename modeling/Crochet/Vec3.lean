/-!
# Points and directions of space

Three doubles.  Every sum and product is taken in the order in which it is written here, because
the order decides the last bits.
-/

namespace Crochet

/-- A point or a direction of space. -/
structure Vec3 where
  x : Float
  y : Float
  z : Float
  deriving Inhabited, Repr, BEq

namespace Vec3

/-- The origin, which is also the direction without length. -/
def zero : Vec3 := ⟨0.0, 0.0, 0.0⟩

instance : Add Vec3 := ⟨fun u v => ⟨u.x + v.x, u.y + v.y, u.z + v.z⟩⟩

instance : Sub Vec3 := ⟨fun u v => ⟨u.x - v.x, u.y - v.y, u.z - v.z⟩⟩

/-- A direction stretched by a factor. -/
def scale (v : Vec3) (factor : Float) : Vec3 := ⟨v.x * factor, v.y * factor, v.z * factor⟩

/-- A direction divided by a number. -/
def div (v : Vec3) (divisor : Float) : Vec3 := ⟨v.x / divisor, v.y / divisor, v.z / divisor⟩

/-- The direction at right angles to two others. -/
def cross (u v : Vec3) : Vec3 :=
  ⟨u.y * v.z - u.z * v.y, u.z * v.x - u.x * v.z, u.x * v.y - u.y * v.x⟩

/-- The length of a direction. -/
def norm (v : Vec3) : Float := (v.x * v.x + v.y * v.y + v.z * v.z).sqrt

/-- The direction of length one, unless the length is at most `least`. -/
def unit? (v : Vec3) (least : Float) : Option Vec3 :=
  let length := v.norm
  if length ≤ least then none else some (v.div length)

/-- Whether all three numbers are finite. -/
def isFinite (v : Vec3) : Bool := v.x.isFinite && v.y.isFinite && v.z.isFinite

/-- The point with single precision. -/
structure Single where
  x : Float32
  y : Float32
  z : Float32
  deriving Inhabited, Repr, BEq

/-- A point rounded to single precision. -/
def toSingle (v : Vec3) : Single := ⟨v.x.toFloat32, v.y.toFloat32, v.z.toFloat32⟩

end Vec3

end Crochet
