import Crochet.Relax.Forest

/-!
# Roots of a forest

The root of a number is the end of its chain of parents (`top`).  `Forest.find` rewrites the forest
while it walks up the chain, but changes no root (`find_spec`), and so finds the one that the chain
ends at (`root_eq_top`).  Bringing two trees together changes the roots of one of them, and of no
other number (`top_union`).
-/

namespace Crochet

namespace Forest

/-! ## The end of a chain -/

/-- The number at the end of the chain of parents. -/
def top (f : Forest) (i : Nat) : Nat := if f.parent i = i then i else f.top (f.parent i)
termination_by i
decreasing_by
  have := f.parent_le i
  omega

theorem top_of_root {f : Forest} {i : Nat} (h : f.parent i = i) : f.top i = i := by
  rw [top, if_pos h]

theorem top_parent (f : Forest) (i : Nat) : f.top (f.parent i) = f.top i := by
  by_cases h : f.parent i = i
  · rw [h]
  · rw [top.eq_1 f i, if_neg h]

theorem top_grandparent (f : Forest) (i : Nat) : f.top (f.grandparent i) = f.top i := by
  rw [grandparent, top_parent, top_parent]

theorem top_le (f : Forest) (i : Nat) : f.top i ≤ i := by
  fun_induction top f i with
  | case1 i h => exact Nat.le_refl i
  | case2 i h ih => exact Nat.le_trans ih (f.parent_le i)

theorem parent_top (f : Forest) (i : Nat) : f.parent (f.top i) = f.top i := by
  fun_induction top f i with
  | case1 i h => exact h
  | case2 i h ih => exact ih

theorem parent_discrete (count i : Nat) : (discrete count).parent i = i := by
  unfold parent discrete
  rw [Array.getD_eq_getD_getElem?, Array.getElem?_range]
  split <;> rfl

theorem top_discrete (count i : Nat) : (discrete count).top i = i :=
  top_of_root (parent_discrete count i)

/-! ## Shortening a chain -/

@[simp] theorem size_setParent (f : Forest) {i p : Nat} (h : p ≤ i) :
    (f.setParent i p h).parents.size = f.parents.size :=
  Array.size_setIfInBounds

/-- A shorter way to the same root changes no root. -/
theorem top_setParent {f : Forest} {i p : Nat} (hlt : p < i) (hsame : f.top p = f.top i) (j : Nat) :
    (f.setParent i p (Nat.le_of_lt hlt)).top j = f.top j := by
  induction j using Nat.strongRecOn with
  | ind j ih =>
    have hparent := f.parent_setParent (Nat.le_of_lt hlt) j
    by_cases hij : i = j ∧ j < f.parents.size
    · rw [if_pos hij] at hparent
      obtain ⟨rfl, -⟩ := hij
      rw [← top_parent, hparent, ih p hlt, hsame]
    · rw [if_neg hij] at hparent
      by_cases hroot : f.parent j = j
      · rw [top_of_root hroot, top_of_root (hparent.trans hroot)]
      · have hbelow : f.parent j < j := Nat.lt_of_le_of_ne (f.parent_le j) hroot
        rw [← top_parent, hparent, ih _ hbelow, top_parent]

/-- Finding a root gives the end of the chain, and leaves every chain with the end it had. -/
theorem find_spec (f : Forest) (i : Nat) :
    (f.find i).2 = f.top i ∧ (∀ j, (f.find i).1.top j = f.top j) ∧
      (f.find i).1.parents.size = f.parents.size := by
  fun_induction find f i with
  | case1 f i h => exact ⟨(top_of_root h).symm, fun _ => rfl, rfl⟩
  | case2 f i h ih =>
    have hlt : f.grandparent i < i :=
      Nat.lt_of_le_of_lt (f.parent_le _) (Nat.lt_of_le_of_ne (f.parent_le i) h)
    have hsame := top_setParent hlt (f.top_grandparent i)
    obtain ⟨hroot, htop, hsize⟩ := ih
    refine ⟨?_, fun j => (htop j).trans (hsame j), hsize.trans (f.size_setParent _)⟩
    rw [hroot, hsame, top_grandparent]

theorem root_eq_top (f : Forest) (i : Nat) : f.root i = f.top i := (f.find_spec i).1

/-! ## Bringing trees together -/

theorem max_min_cases (a b : Nat) :
    max a b = a ∧ min a b = b ∨ max a b = b ∧ min a b = a := by
  omega

/-- A root that gets another root as its parent hands its whole tree over. -/
theorem top_setParent_root {f : Forest} {i p : Nat} (h : p ≤ i) (hi : f.parent i = i)
    (hp : f.parent p = p) (hlt : i < f.parents.size) (j : Nat) :
    (f.setParent i p h).top j = if f.top j = i then p else f.top j := by
  have hparent := f.parent_setParent h
  have hp' : (f.setParent i p h).parent p = p := by
    rw [hparent]
    split
    · rfl
    · exact hp
  induction j using Nat.strongRecOn with
  | ind j ih =>
    by_cases hij : i = j
    · subst hij
      rw [if_pos (top_of_root hi), ← top_parent, hparent, if_pos ⟨rfl, hlt⟩, top_of_root hp']
    · have hkept : (f.setParent i p h).parent j = f.parent j := by
        rw [hparent, if_neg fun hj => hij hj.1]
      by_cases hroot : f.parent j = j
      · rw [top_of_root (hkept.trans hroot), top_of_root hroot, if_neg fun hj => hij hj.symm]
      · have hbelow : f.parent j < j := Nat.lt_of_le_of_ne (f.parent_le j) hroot
        rw [← top_parent, hkept, ih _ hbelow, top_parent]

/-- Linking two roots puts everything below the larger one below the smaller. -/
theorem top_link {f : Forest} {a b : Nat} (ha : f.parent a = a) (hb : f.parent b = b)
    (hlt : a < f.parents.size) (hlt' : b < f.parents.size) (j : Nat) :
    (f.link a b).top j = if f.top j = max a b then min a b else f.top j := by
  have hends : f.parent (max a b) = max a b ∧ f.parent (min a b) = min a b := by
    rcases max_min_cases a b with ⟨hmax, hmin⟩ | ⟨hmax, hmin⟩
    · rw [hmax, hmin]
      exact ⟨ha, hb⟩
    · rw [hmax, hmin]
      exact ⟨hb, ha⟩
  exact top_setParent_root _ hends.1 hends.2 (Nat.max_lt.2 ⟨hlt, hlt'⟩) j

@[simp] theorem size_union (f : Forest) (a b : Nat) :
    (f.union a b).parents.size = f.parents.size := by
  obtain ⟨-, -, hsize⟩ := f.find_spec a
  obtain ⟨-, -, hsize'⟩ := (f.find a).1.find_spec b
  unfold union
  dsimp only
  split
  · exact hsize'.trans hsize
  · rw [link, size_setParent, hsize', hsize]

/-- Bringing two trees together puts everything in both of them below the smaller root. -/
theorem top_union (f : Forest) {a b : Nat} (ha : a < f.parents.size) (hb : b < f.parents.size)
    (j : Nat) : (f.union a b).top j =
      if f.top j = max (f.top a) (f.top b) then min (f.top a) (f.top b) else f.top j := by
  obtain ⟨hroot, htop, hsize⟩ := f.find_spec a
  obtain ⟨hroot', htop', hsize'⟩ := (f.find a).1.find_spec b
  have hboth : ∀ j, ((f.find a).1.find b).1.top j = f.top j := fun j => (htop' j).trans (htop j)
  have hends : ∀ j, ((f.find a).1.find b).1.parent (f.top j) = f.top j := fun j => by
    rw [← hboth j, parent_top]
  rw [htop] at hroot'
  unfold union
  dsimp only
  rw [hroot, hroot']
  by_cases hsame : f.top a = f.top b
  · rw [if_pos hsame, hboth, hsame, Nat.max_self, Nat.min_self]
    split
    · assumption
    · rfl
  · have hrange : ∀ k < f.parents.size, f.top k < ((f.find a).1.find b).1.parents.size := by
      intro k hk
      rw [hsize', hsize]
      exact Nat.lt_of_le_of_lt (f.top_le k) hk
    rw [if_neg hsame, top_link (hends a) (hends b) (hrange a ha) (hrange b hb), hboth]

end Forest

end Crochet
