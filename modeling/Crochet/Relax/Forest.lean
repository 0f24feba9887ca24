/-!
# Forests of numbers

A disjoint-set forest: every number has a parent that is not larger, and the numbers that are their
own parents are the roots.  Two numbers belong together when they have the same root.  Looking a
root up shortens the way to it for later.
-/

namespace Crochet

/-- A forest over the numbers below a bound; every other number is a root of its own. -/
structure Forest where
  /-- The parent of each number. -/
  parents : Array Nat
  /-- Parents are never larger. -/
  parents_le : ∀ i, parents.getD i i ≤ i

namespace Forest

/-- The parent of a number, or the number itself at a root. -/
def parent (f : Forest) (i : Nat) : Nat := f.parents.getD i i

theorem parent_le (f : Forest) (i : Nat) : f.parent i ≤ i := f.parents_le i

/-- The forest in which all `count` numbers are roots. -/
def discrete (count : Nat) : Forest where
  parents := Array.range count
  parents_le i := by
    rw [Array.getD_eq_getD_getElem?, Array.getElem?_range]
    split <;> simp

/-- The parent of a number in an array after one entry was replaced. -/
theorem getD_setIfInBounds (parents : Array Nat) (i p j : Nat) :
    (parents.setIfInBounds i p).getD j j =
      if i = j ∧ j < parents.size then p else parents.getD j j := by
  simp only [Array.getD_eq_getD_getElem?, Array.getElem?_setIfInBounds]
  by_cases hij : i = j
  · subst hij
    by_cases hlt : i < parents.size
    · simp [hlt]
    · simp [hlt]
  · simp [hij]

/-- The forest in which a number has a new parent that is not larger. -/
def setParent (f : Forest) (i p : Nat) (h : p ≤ i) : Forest where
  parents := f.parents.setIfInBounds i p
  parents_le j := by
    rw [getD_setIfInBounds]
    split
    · omega
    · exact f.parents_le j

/-- The parents after one of them was replaced. -/
theorem parent_setParent (f : Forest) {i p : Nat} (h : p ≤ i) (j : Nat) :
    (f.setParent i p h).parent j = if i = j ∧ j < f.parents.size then p else f.parent j :=
  getD_setIfInBounds f.parents i p j

/-- The parent of the parent. -/
def grandparent (f : Forest) (i : Nat) : Nat := f.parent (f.parent i)

theorem grandparent_le (f : Forest) (i : Nat) : f.grandparent i ≤ i :=
  Nat.le_trans (f.parent_le _) (f.parent_le i)

/-- Finds the root of a number.  On the way every number met is handed over to its grandparent, and
the search goes on there. -/
def find (f : Forest) (i : Nat) : Forest × Nat :=
  if f.parent i = i then (f, i)
  else find (f.setParent i (f.grandparent i) (f.grandparent_le i)) (f.grandparent i)
termination_by i
decreasing_by
  have := f.parent_le i
  have := f.parent_le (f.parent i)
  simp only [grandparent]
  omega

/-- The root of a number. -/
def root (f : Forest) (i : Nat) : Nat := (f.find i).2

/-- Makes the smaller of two roots the parent of the larger. -/
def link (f : Forest) (a b : Nat) : Forest :=
  f.setParent (max a b) (min a b) (by omega)

/-- Brings the trees of two numbers together. -/
def union (f : Forest) (a b : Nat) : Forest :=
  let (f, a) := f.find a
  let (f, b) := f.find b
  if a = b then f else f.link a b

end Forest

end Crochet
