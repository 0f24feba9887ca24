import Crochet.Relax.Body

/-!
# Strain

How far the edges of a body are from their rest lengths.  Seams are left out, and so are edges
between stitches that are joined, since joints keep them at no length.
-/

namespace Crochet

/-- How the lengths of the edges, in parts of their rest lengths, are distributed. -/
structure Strain where
  /-- The number of edges measured. -/
  count : Nat := 0
  mean : Float := 0.0
  /-- The standard deviation. -/
  deviation : Float := 0.0
  /-- The largest distance from one. -/
  worst : Float := 0.0
  deriving Inhabited, Repr

namespace Strain

/-- The sum of some numbers, from the first to the last. -/
def sum (xs : List Float) : Float := xs.foldl (· + ·) 0.0

/-- The distribution of some ratios. -/
def ofRatios (ratios : List Float) : Strain :=
  if ratios.isEmpty then {}
  else
    let n := ratios.length.toFloat
    let mean := sum ratios / n
    { count := ratios.length
      mean := mean
      deviation := (sum (ratios.map fun r => (r - mean) * (r - mean)) / n).sqrt
      worst := (ratios.map fun r => (r - 1.0).abs).foldl (fun w r => if w < r then r else w) 0.0 }

end Strain

namespace Body

/-- Whether two stitches are sewn onto one spot. -/
def areJoined (b : Body) (i j : Nat) : Bool :=
  b.rig.groups.any fun group => group.members.contains i && group.members.contains j

/-- Whether a spring is measured. -/
def isMeasured (b : Body) (spring : Spring) : Bool :=
  0.0 < spring.rest && !b.areJoined spring.a spring.b

/-- The length of a spring in parts of its rest length. -/
def ratio (b : Body) (spring : Spring) : Float :=
  (b.position spring.b - b.position spring.a).norm / spring.rest

/-- The strain of a body. -/
def strain (b : Body) : Strain :=
  .ofRatios ((b.rig.springs.filter b.isMeasured).map b.ratio)

end Body

end Crochet
