import Crochet.Proofs.Relax.Forest
import Mathlib.Logic.Relation

/-!
# Searching for roots in an array

A `Forest` brings the fact that no parent is larger than its child, and `Forest.find` ends for that
reason.  Here roots are looked up in an array that brings nothing: a search fails where a number has
no entry, and is given up after some number of passes.  If no parent in the array is larger than its
child, then every search ends, and leaves every number under the root that it had; and a link merges
two trees and no others (`search_ends_and_link_merges`).

* `searchWithin_eq`, `uniteWithin_eq`: a pass skips the parent, so that half as many passes as the
  number is large are enough, and what comes of them is what the forest has.
* `rootOf_iff`: the only root that a chain of parents leads to is the end of the chain.
* `sameTrees_of_top`, `merged_of_top`: what the ends of all chains say about the trees.
-/

namespace Crochet

namespace Forest

/-! ## Arrays of parents -/

/-- No parent is larger than its child. -/
def Falling (parents : Array Nat) : Prop := ∀ i, ∀ h : i < parents.size, parents[i] ≤ i

instance (parents : Array Nat) : Decidable (Falling parents) :=
  inferInstanceAs (Decidable (∀ i, ∀ h : i < parents.size, parents[i] ≤ i))

/-- The forest of an array in which no parent is larger than its child. -/
def ofParents {parents : Array Nat} (falling : Falling parents) : Forest where
  parents := parents
  parents_le i := by
    rw [Array.getD_eq_getD_getElem?]
    by_cases h : i < parents.size
    · rw [Array.getElem?_eq_getElem h]
      exact falling i h
    · rw [Array.getElem?_eq_none (Nat.le_of_not_lt h)]
      exact Nat.le_refl i

/-- The entries of a forest are the parents of the numbers that have one. -/
theorem getElem?_parents_eq_some_iff (f : Forest) {i p : Nat} :
    f.parents[i]? = some p ↔ i < f.parents.size ∧ f.parent i = p := by
  rw [parent, Array.getD_eq_getD_getElem?]
  by_cases h : i < f.parents.size
  · simp [h]
  · simp [h]

theorem getElem?_parents (f : Forest) {i : Nat} (h : i < f.parents.size) :
    f.parents[i]? = some (f.parent i) :=
  f.getElem?_parents_eq_some_iff.2 ⟨h, rfl⟩

theorem falling_parents (f : Forest) : Falling f.parents := by
  intro i h
  have hentry := f.getElem?_parents h
  rw [Array.getElem?_eq_getElem h, Option.some.injEq] at hentry
  rw [hentry]
  exact f.parent_le i

/-! ## Searches -/

/-- One pass of a search: hands a number over to its grandparent, and reads where the search goes on
from the entry that it has just written. -/
def pass (parents : Array Nat) (i : Nat) : Option (Array Nat × Nat) := do
  let p ← parents[i]?
  let g ← parents[p]?
  let shortened := parents.setIfInBounds i g
  return (shortened, ← shortened[i]?)

/-- Looks the root of a number up: the array as the search has left it, and the root.  Nothing comes
of a search that needs more than so many passes or a number without an entry. -/
def searchWithin : Nat → Array Nat → Nat → Option (Array Nat × Nat)
  | 0, parents, i => if parents[i]? = some i then some (parents, i) else none
  | passes + 1, parents, i =>
    if parents[i]? = some i then some (parents, i)
    else do
      let (shortened, g) ← pass parents i
      searchWithin passes shortened g

/-- Brings the trees of two numbers together: looks up the root of the first, then that of the
second, and makes the smaller of two different roots the parent of the larger. -/
def uniteWithin (passes : Nat) (parents : Array Nat) (i j : Nat) : Option (Array Nat) := do
  let (shortened, a) ← searchWithin passes parents i
  let (shortened, b) ← searchWithin passes shortened j
  return if a = b then shortened else shortened.setIfInBounds (max a b) (min a b)

/-- A pass goes from a number to its grandparent. -/
theorem pass_eq (f : Forest) {i : Nat} (hi : i < f.parents.size) :
    pass f.parents i =
      some ((f.setParent i (f.grandparent i) (f.grandparent_le i)).parents, f.grandparent i) := by
  have hp : f.parent i < f.parents.size := Nat.lt_of_le_of_lt (f.parent_le i) hi
  have hgrandparent : f.parents[f.parent i]? = some (f.grandparent i) := f.getElem?_parents hp
  have hwritten : (f.parents.setIfInBounds i (f.grandparent i))[i]? = some (f.grandparent i) :=
    Array.getElem?_setIfInBounds_self_of_lt hi
  simp only [pass, f.getElem?_parents hi, hgrandparent, hwritten, Option.bind_eq_bind,
    Option.bind_some, Option.pure_def, setParent]

/-- Unless it is a root already, the grandparent of a number is smaller by two at least. -/
theorem grandparent_root_or_add_two_le (f : Forest) {i : Nat} (h : f.parent i ≠ i) :
    f.parent (f.grandparent i) = f.grandparent i ∨ f.grandparent i + 2 ≤ i := by
  have hle := f.parent_le i
  have hle' := f.parent_le (f.parent i)
  by_cases hroot : f.parent (f.parent i) = f.parent i
  · left
    rw [grandparent, hroot, hroot]
  · right
    rw [grandparent]
    omega

/-- A search from a root needs no pass, and a search from another number at most half as many as the
number is large.  It does what the search in the forest does. -/
theorem searchWithin_eq_of_root_or_le (f : Forest) {i : Nat} (hi : i < f.parents.size)
    {passes : Nat} (h : f.parent i = i ∨ i ≤ 2 * passes) :
    searchWithin passes f.parents i = some ((f.find i).1.parents, (f.find i).2) := by
  induction passes generalizing f i with
  | zero =>
    have hroot : f.parent i = i := by
      have := f.parent_le i
      omega
    rw [searchWithin, if_pos (f.getElem?_parents_eq_some_iff.2 ⟨hi, hroot⟩), find, if_pos hroot]
  | succ passes ih =>
    rw [searchWithin, find]
    by_cases hroot : f.parent i = i
    · rw [if_pos (f.getElem?_parents_eq_some_iff.2 ⟨hi, hroot⟩), if_pos hroot]
    · rw [if_neg fun hentry => hroot (f.getElem?_parents_eq_some_iff.1 hentry).2, if_neg hroot,
        f.pass_eq hi]
      refine ih _ ?inRange ?enough
      case inRange =>
        rw [size_setParent]
        exact Nat.lt_of_le_of_lt (f.grandparent_le i) hi
      case enough =>
        have hlt : f.grandparent i < i :=
          Nat.lt_of_le_of_lt (f.parent_le _) (Nat.lt_of_le_of_ne (f.parent_le i) hroot)
        -- A grandparent that is smaller by one only is a root, and the search ends there at once.
        rw [parent_setParent, if_neg fun heq => Nat.ne_of_gt hlt heq.1]
        refine (f.grandparent_root_or_add_two_le hroot).imp_right fun hle => ?_
        omega

theorem searchWithin_eq (f : Forest) {i : Nat} (hi : i < f.parents.size) {passes : Nat}
    (h : i ≤ 2 * passes) :
    searchWithin passes f.parents i = some ((f.find i).1.parents, (f.find i).2) :=
  f.searchWithin_eq_of_root_or_le hi (.inr h)

theorem uniteWithin_eq (f : Forest) {i j : Nat} (hi : i < f.parents.size)
    (hj : j < f.parents.size) {passes : Nat} (h : i ≤ 2 * passes) (h' : j ≤ 2 * passes) :
    uniteWithin passes f.parents i j = some (f.union i j).parents := by
  obtain ⟨-, -, hsize⟩ := f.find_spec i
  rw [uniteWithin, f.searchWithin_eq hi h, Option.bind_eq_bind, Option.bind_some]
  dsimp only
  rw [searchWithin_eq _ (hsize ▸ hj) h', Option.bind_some]
  unfold union
  dsimp only
  split
  · rfl
  · rfl

/-! ## Roots of numbers -/

/-- A root that a chain of parents leads to. -/
structure RootOf (parents : Array Nat) (i r : Nat) : Prop where
  /-- Every number on the way has its parent after it. -/
  chain : Relation.ReflTransGen (fun i p => parents[i]? = some p) i r
  /-- A root is its own parent. -/
  own : parents[r]? = some r

/-- The numbers have a root in common. -/
def Together (parents : Array Nat) (i j : Nat) : Prop :=
  ∃ r, RootOf parents i r ∧ RootOf parents j r

/-- The only root of a number is the end of its chain of parents. -/
theorem rootOf_iff (f : Forest) {i r : Nat} :
    RootOf f.parents i r ↔ i < f.parents.size ∧ f.top i = r := by
  constructor
  · rintro ⟨chain, own⟩
    induction chain using Relation.ReflTransGen.head_induction_on with
    | refl =>
      obtain ⟨hr, hown⟩ := f.getElem?_parents_eq_some_iff.1 own
      exact ⟨hr, top_of_root hown⟩
    | head hstep _ ih =>
      obtain ⟨hi, rfl⟩ := f.getElem?_parents_eq_some_iff.1 hstep
      exact ⟨hi, (f.top_parent _).symm.trans ih.2⟩
  · rintro ⟨hi, rfl⟩
    constructor
    case chain =>
      fun_induction top f i with
      | case1 i h => exact .refl
      | case2 i h ih =>
        exact .head (f.getElem?_parents hi) (ih (Nat.lt_of_le_of_lt (f.parent_le i) hi))
    case own =>
      have htop := Nat.lt_of_le_of_lt (f.top_le i) hi
      exact f.getElem?_parents_eq_some_iff.2 ⟨htop, f.parent_top i⟩

theorem together_iff (f : Forest) {i j : Nat} :
    Together f.parents i j ↔
      i < f.parents.size ∧ j < f.parents.size ∧ f.top i = f.top j := by
  simp only [Together, rootOf_iff]
  constructor
  · rintro ⟨r, ⟨hi, rfl⟩, hj, hsame⟩
    exact ⟨hi, hj, hsame.symm⟩
  · rintro ⟨hi, hj, hsame⟩
    exact ⟨_, ⟨hi, hsame⟩, hj, rfl⟩

/-- The roots are the roots of themselves. -/
theorem rootOf_self_iff {parents : Array Nat} {r : Nat} :
    RootOf parents r r ↔ parents[r]? = some r :=
  ⟨RootOf.own, RootOf.mk .refl⟩

/-! ## Trees before and after -/

/-- Each number has the root that it had before. -/
structure SameTrees (before after : Array Nat) : Prop where
  /-- No entry is new or gone. -/
  size : after.size = before.size
  /-- Still no parent is larger than its child. -/
  falling : Falling after
  /-- The roots are the roots there were. -/
  roots : ∀ r : Nat, after[r]? = some r ↔ before[r]? = some r
  /-- Each number has the root it had. -/
  rootOf : ∀ i r, RootOf after i r ↔ RootOf before i r

/-- The trees of two roots have become one, and nothing else has changed. -/
structure Merged (before after : Array Nat) (a b : Nat) : Prop where
  /-- No entry is new or gone. -/
  size : after.size = before.size
  /-- Still no parent is larger than its child. -/
  falling : Falling after
  /-- What was under either root is under the smaller one, and all else is under the root it had. -/
  rootOf : ∀ i r, RootOf after i r ↔
    (r = min a b ∧ (RootOf before i a ∨ RootOf before i b)) ∨
      (r ≠ a ∧ r ≠ b ∧ RootOf before i r)
  /-- Two numbers are together that were, and any of one tree with any of the other. -/
  together : ∀ i j, Together after i j ↔
    Together before i j ∨ (RootOf before i a ∧ RootOf before j b) ∨
      (RootOf before i b ∧ RootOf before j a)

theorem sameTrees_of_top {f g : Forest} (hsize : g.parents.size = f.parents.size)
    (htop : ∀ j, g.top j = f.top j) : SameTrees f.parents g.parents := by
  have hrootOf : ∀ i r, RootOf g.parents i r ↔ RootOf f.parents i r := by
    intro i r
    rw [rootOf_iff, rootOf_iff, hsize, htop]
  refine ⟨hsize, g.falling_parents, fun r => ?_, hrootOf⟩
  rw [← rootOf_self_iff, ← rootOf_self_iff, hrootOf]

theorem merged_of_top {f g : Forest} {a b : Nat} (hsize : g.parents.size = f.parents.size)
    (htop : ∀ j, g.top j = if f.top j = max a b then min a b else f.top j) :
    Merged f.parents g.parents a b := by
  refine ⟨hsize, g.falling_parents, fun i r => ?_, fun i j => ?_⟩
  · simp only [rootOf_iff, hsize, htop]
    split <;> omega
  · simp only [together_iff, rootOf_iff, hsize, htop]
    split <;> split <;> omega

/-! ## Main result -/

/-- **Searches end at the only root there is and disturb no tree, and links merge two trees and no
others.**  Let no parent in an array be larger than its child.  A search from any number of it ends
after half as many passes as the number is large, rounded up, if not before.  It gives the only root
that a chain of parents leads to, and leaves all trees as they were.  The smaller of two roots, made
the parent of the larger, takes over all that was under that one.  So two searches and a link merge
the trees of two numbers, or leave all trees as they were if the numbers are in one already. -/
theorem search_ends_and_link_merges {parents : Array Nat} (falling : Falling parents) :
    (∀ i < parents.size, ∃ after r,
      (∀ passes, i ≤ 2 * passes → searchWithin passes parents i = some (after, r)) ∧
      ((ofParents falling).find i).1.parents = after ∧ ((ofParents falling).find i).2 = r ∧
      (∀ root, RootOf parents i root ↔ root = r) ∧ SameTrees parents after) ∧
    (∀ a b, parents[a]? = some a → parents[b]? = some b →
      Merged parents ((ofParents falling).link a b).parents a b) ∧
    ∀ i < parents.size, ∀ j < parents.size, ∃ after,
      (∀ passes, i ≤ 2 * passes → j ≤ 2 * passes →
        uniteWithin passes parents i j = some after) ∧
      ((ofParents falling).union i j).parents = after ∧
      ∀ a b, RootOf parents i a → RootOf parents j b →
        if a = b then SameTrees parents after else Merged parents after a b := by
  generalize hf : ofParents falling = f
  obtain rfl : f.parents = parents := by rw [← hf]; rfl
  refine ⟨fun i hi => ?search, fun a b ha hb => ?link, fun i hi j hj => ?unite⟩
  case search =>
    obtain ⟨hroot, htop, hsize⟩ := f.find_spec i
    refine ⟨_, _, fun passes => f.searchWithin_eq hi, rfl, rfl, fun root => ?_,
      sameTrees_of_top hsize htop⟩
    rw [rootOf_iff, hroot, eq_comm, and_iff_right hi]
  case link =>
    obtain ⟨hlt, hroot⟩ := f.getElem?_parents_eq_some_iff.1 ha
    obtain ⟨hlt', hroot'⟩ := f.getElem?_parents_eq_some_iff.1 hb
    exact merged_of_top (f.size_setParent _) (top_link hroot hroot' hlt hlt')
  case unite =>
    refine ⟨_, fun passes => f.uniteWithin_eq hi hj, rfl, fun a b ha hb => ?_⟩
    obtain ⟨-, rfl⟩ := f.rootOf_iff.1 ha
    obtain ⟨-, rfl⟩ := f.rootOf_iff.1 hb
    split
    case isTrue hsame =>
      refine sameTrees_of_top (f.size_union i j) fun k => ?_
      rw [top_union f hi hj, ← hsame, Nat.max_self, Nat.min_self]
      split
      · exact Eq.symm ‹_›
      · rfl
    case isFalse => exact merged_of_top (f.size_union i j) (f.top_union hi hj)

/-- In an array with two trees, a search that passes twice, and a link between the trees. -/
theorem search_ends_and_link_merges_two_trees :
    Falling #[0, 0, 1, 2, 3, 5, 5, 6] ∧
      searchWithin 2 #[0, 0, 1, 2, 3, 5, 5, 6] 4 = some (#[0, 0, 0, 2, 2, 5, 5, 6], 0) ∧
      SameTrees #[0, 0, 1, 2, 3, 5, 5, 6] #[0, 0, 0, 2, 2, 5, 5, 6] ∧
      uniteWithin 4 #[0, 0, 1, 2, 3, 5, 5, 6] 4 7 = some #[0, 0, 0, 2, 2, 0, 5, 5] ∧
      Merged #[0, 0, 1, 2, 3, 5, 5, 6] #[0, 0, 0, 2, 2, 0, 5, 5] 0 5 := by
  have falling : Falling #[0, 0, 1, 2, 3, 5, 5, 6] := by decide
  have found :
      searchWithin 2 #[0, 0, 1, 2, 3, 5, 5, 6] 4 = some (#[0, 0, 0, 2, 2, 5, 5, 6], 0) := by
    decide
  have found' :
      searchWithin 4 #[0, 0, 1, 2, 3, 5, 5, 6] 7 = some (#[0, 0, 1, 2, 3, 5, 5, 5], 5) := by
    decide
  have united : uniteWithin 4 #[0, 0, 1, 2, 3, 5, 5, 6] 4 7 = some #[0, 0, 0, 2, 2, 0, 5, 5] := by
    decide
  obtain ⟨search, -, unite⟩ := search_ends_and_link_merges falling
  obtain ⟨after, r, hsearch, -, -, hroot, hsame⟩ := search 4 (by decide)
  obtain ⟨rfl, rfl⟩ := Prod.mk.inj (Option.some.inj (found.symm.trans (hsearch 2 (by decide))))
  obtain ⟨after', r', hsearch', -, -, hroot', -⟩ := search 7 (by decide)
  obtain ⟨-, rfl⟩ := Prod.mk.inj (Option.some.inj (found'.symm.trans (hsearch' 4 (by decide))))
  obtain ⟨merged, hunite, -, hmerged⟩ := unite 4 (by decide) 7 (by decide)
  obtain rfl := Option.some.inj (united.symm.trans (hunite 4 (by decide) (by decide)))
  have hboth := hmerged 0 5 ((hroot 0).2 rfl) ((hroot' 5).2 rfl)
  rw [if_neg (by decide)] at hboth
  exact ⟨falling, found, hsame, united, hboth⟩

end Forest

end Crochet
