import Crochet.Proofs.Relax.Held

/-!
# A part beside another

Two bodies run side by side, the first on its own, the second with further stitches after those of
the first.  If no spring, triangle or group leads from the stitches below `n` to the others, then
the two stay the same below `n`.

* `SameBelow`: an array of `n` entries, and another one that starts with them.  Everything that is
  done to points keeps it, step by step.
* `Continues`: a list, and another one that starts with it and goes on above `n`.
* `SameBelow.foldl`: working through such lists keeps arrays the same below `n`.
* `Beside.tick`: a tick keeps two bodies the same below `n`, unless it moves them over the origin,
  which depends on every stitch.
-/

namespace Crochet

/-! ## Arrays that start alike -/

/-- An array of `n` entries, and one that starts with them. -/
structure SameBelow {α : Type} (n : Nat) (xs ys : Array α) : Prop where
  size_eq : xs.size = n
  same : ∀ {i : Nat}, i < n → ys[i]? = xs[i]?

/-- A list, and one that starts with it.  The numbers at the ends of the items are below `n` in the
first list, and not in what comes after it. -/
def Continues {α : Type} (n : Nat) (ends : α → List Nat) (first all : List α) : Prop :=
  ∃ more, all = first ++ more ∧ (∀ x ∈ first, ∀ i ∈ ends x, i < n) ∧
    ∀ x ∈ more, ∀ i ∈ ends x, n ≤ i

theorem Continues.map {α β : Type} {n : Nat} {ends : α → List Nat} {ends' : β → List Nat}
    {first all : List α} (h : Continues n ends first all) (f : α → β)
    (hends : ∀ x, ends' (f x) = ends x) : Continues n ends' (first.map f) (all.map f) := by
  obtain ⟨more, rfl, hfirst, hmore⟩ := h
  refine ⟨more.map f, List.map_append, ?_, ?_⟩
  · rintro _ hmem i hi
    obtain ⟨x, hx, rfl⟩ := List.mem_map.1 hmem
    exact hfirst x hx i (hends x ▸ hi)
  · rintro _ hmem i hi
    obtain ⟨x, hx, rfl⟩ := List.mem_map.1 hmem
    exact hmore x hx i (hends x ▸ hi)

namespace SameBelow

variable {α β : Type} {n : Nat} {xs ys : Array α}

theorem lt_size (h : SameBelow n xs ys) {i : Nat} (hi : i < n) : i < ys.size := by
  obtain ⟨x, hx⟩ : ∃ x, ys[i]? = some x := by
    rw [h.same hi, Array.getElem?_eq_getElem (h.size_eq ▸ hi)]
    exact ⟨_, rfl⟩
  exact (Array.getElem?_eq_some_iff.1 hx).1

theorem replicate {m : Nat} (hle : n ≤ m) (x : α) :
    SameBelow n (Array.replicate n x) (Array.replicate m x) where
  size_eq := Array.size_replicate
  same hi := by
    rw [Array.getElem?_replicate, Array.getElem?_replicate, if_pos hi,
      if_pos (Nat.lt_of_lt_of_le hi hle)]

theorem append (xs more : Array α) : SameBelow xs.size xs (xs ++ more) where
  size_eq := rfl
  same hi := Array.getElem?_append_left hi

theorem modify (h : SameBelow n xs ys) (i : Nat) (f : α → α) :
    SameBelow n (xs.modify i f) (ys.modify i f) where
  size_eq := Array.size_modify.trans h.size_eq
  same hj := by rw [Array.getElem?_modify, Array.getElem?_modify, h.same hj]

theorem modify_beyond (h : SameBelow n xs ys) {i : Nat} (hi : n ≤ i) (f : α → α) :
    SameBelow n xs (ys.modify i f) where
  size_eq := h.size_eq
  same hj := by rw [Array.getElem?_modify, if_neg (by omega), h.same hj]

theorem set (h : SameBelow n xs ys) (i : Nat) (x : α) :
    SameBelow n (xs.setIfInBounds i x) (ys.setIfInBounds i x) where
  size_eq := Array.size_setIfInBounds.trans h.size_eq
  same := by
    intro j hj
    rw [Array.getElem?_setIfInBounds, Array.getElem?_setIfInBounds, h.same hj]
    by_cases hij : i = j
    · subst hij
      rw [if_pos rfl, if_pos rfl, if_pos (h.lt_size hj), if_pos (h.size_eq ▸ hj)]
    · rw [if_neg hij, if_neg hij]

theorem set_beyond (h : SameBelow n xs ys) {i : Nat} (hi : n ≤ i) (x : α) :
    SameBelow n xs (ys.setIfInBounds i x) where
  size_eq := h.size_eq
  same hj := by rw [Array.getElem?_setIfInBounds, if_neg (by omega), h.same hj]

theorem map (h : SameBelow n xs ys) (f : α → β) : SameBelow n (xs.map f) (ys.map f) where
  size_eq := Array.size_map.trans h.size_eq
  same hi := by rw [Array.getElem?_map, Array.getElem?_map, h.same hi]

theorem foldl_within {step step' : Array α → β → Array α} {first : List β}
    (within : ∀ x ∈ first, ∀ {xs ys : Array α}, SameBelow n xs ys →
      SameBelow n (step xs x) (step' ys x))
    (h : SameBelow n xs ys) : SameBelow n (first.foldl step xs) (first.foldl step' ys) := by
  induction first generalizing xs ys with
  | nil => exact h
  | cons x rest ih =>
    refine ih (fun y hy => ?_) (within x List.mem_cons_self h)
    exact within y (List.mem_cons_of_mem _ hy)

theorem foldl_beyond {step' : Array α → β → Array α} {more : List β}
    (beyond : ∀ x ∈ more, ∀ {xs ys : Array α}, SameBelow n xs ys → SameBelow n xs (step' ys x))
    (h : SameBelow n xs ys) : SameBelow n xs (more.foldl step' ys) := by
  induction more generalizing ys with
  | nil => exact h
  | cons x rest ih =>
    refine ih (fun y hy => ?_) (beyond x List.mem_cons_self h)
    exact beyond y (List.mem_cons_of_mem _ hy)

/-- Working through a list, and in a second array through one that continues it. -/
theorem foldl {ends : β → List Nat} {first all : List β} (continues : Continues n ends first all)
    {step step' : Array α → β → Array α}
    (within : ∀ x, (∀ i ∈ ends x, i < n) → ∀ {xs ys : Array α}, SameBelow n xs ys →
      SameBelow n (step xs x) (step' ys x))
    (beyond : ∀ x, (∀ i ∈ ends x, n ≤ i) → ∀ {xs ys : Array α}, SameBelow n xs ys →
      SameBelow n xs (step' ys x))
    (h : SameBelow n xs ys) : SameBelow n (first.foldl step xs) (all.foldl step' ys) := by
  obtain ⟨more, rfl, hfirst, hmore⟩ := continues
  rw [List.foldl_append]
  exact foldl_beyond (fun x hx => beyond x (hmore x hx))
    (foldl_within (fun x hx => within x (hfirst x hx)) h)

end SameBelow

/-! ## Rigs -/

/-- The two ends of a spring. -/
def Spring.ends (spring : Spring) : List Nat := [spring.a, spring.b]

/-- The three corners of a face. -/
def Face.ends (face : Face) : List Nat := [face.a, face.b, face.c]

/-- The members of a group, and once more its leader. -/
def Group.ends (group : Group) : List Nat := group.leader :: group.members

/-- Whether all numbers in an array of lists are below a bound. -/
def Rig.AllBelow (n : Nat) (neighbours : Array (List Nat)) : Prop :=
  ∀ (i : Nat) (js : List Nat), neighbours[i]? = some js → ∀ j ∈ js, j < n

/-- A rig of `n` stitches, and one of more stitches that has the same pins, and in which nothing
leads from the first `n` to the others. -/
structure Rig.Beside (n : Nat) (rig rig' : Rig) : Prop where
  settings_eq : rig'.settings = rig.settings
  pins_eq : rig'.pins = rig.pins
  springs : Continues n Spring.ends rig.springs rig'.springs
  triangles : Continues n Face.ends rig.triangles rig'.triangles
  groups : Continues n Group.ends rig.groups rig'.groups
  neighbours : SameBelow n rig.neighbours rig'.neighbours
  neighbours_lt : Rig.AllBelow n rig.neighbours

namespace Body

/-! ## What is done to points -/

variable {n : Nat} {points points' : Array Vec3}

theorem pointAt_of_sameBelow (h : SameBelow n points points') {i : Nat} (hi : i < n) :
    pointAt points' i = pointAt points i := by
  rw [pointAt, pointAt, Array.getD_eq_getD_getElem?, Array.getD_eq_getD_getElem?, h.same hi]

theorem sameBelow_holdPins (pins : Index Vec3) (h : SameBelow n points points') :
    SameBelow n (holdPins pins points) (holdPins pins points') :=
  SameBelow.foldl_within (fun pin _ _ _ hsame => hsame.set pin.1 pin.2) h

theorem sameBelow_gather {group : Group} (hleader : group.leader < n)
    (h : SameBelow n points points') :
    SameBelow n (gather points group) (gather points' group) := by
  rw [gather, gather, pointAt_of_sameBelow h hleader]
  exact SameBelow.foldl_within (fun member _ _ _ hsame => hsame.set member _) h

theorem sameBelow_gather_beyond {group : Group} (hmembers : ∀ i ∈ group.members, n ≤ i)
    (h : SameBelow n points points') : SameBelow n points (gather points' group) :=
  SameBelow.foldl_beyond (fun member hmem _ _ hsame => hsame.set_beyond (hmembers member hmem) _) h

theorem sameBelow_hold {rig rig' : Rig} (beside : Rig.Beside n rig rig')
    (h : SameBelow n points points') : SameBelow n (hold rig points) (hold rig' points') := by
  rw [hold, hold, beside.pins_eq]
  refine SameBelow.foldl beside.groups (fun group hends => ?within) (fun group hends => ?beyond)
    (sameBelow_holdPins rig.pins h)
  case within =>
    intro xs ys hsame
    exact sameBelow_gather (hends _ List.mem_cons_self) hsame
  case beyond =>
    intro xs ys hsame
    exact sameBelow_gather_beyond (fun i hi => hends i (List.mem_cons_of_mem _ hi)) hsame

theorem sameBelow_relaxSpring {spring : Spring} (hends : ∀ i ∈ spring.ends, i < n)
    (h : SameBelow n points points') :
    SameBelow n (relaxSpring points spring) (relaxSpring points' spring) := by
  have ha : spring.a < n := hends _ List.mem_cons_self
  have hb : spring.b < n := hends _ (List.mem_cons_of_mem _ List.mem_cons_self)
  rw [relaxSpring, relaxSpring, pointAt_of_sameBelow h ha, pointAt_of_sameBelow h hb]
  exact (h.modify spring.a _).modify spring.b _

theorem sameBelow_relaxSpring_beyond {spring : Spring} (hends : ∀ i ∈ spring.ends, n ≤ i)
    (h : SameBelow n points points') : SameBelow n points (relaxSpring points' spring) := by
  have ha : n ≤ spring.a := hends _ List.mem_cons_self
  have hb : n ≤ spring.b := hends _ (List.mem_cons_of_mem _ List.mem_cons_self)
  exact (h.modify_beyond ha _).modify_beyond hb _

theorem sameBelow_pass {rig rig' : Rig} (beside : Rig.Beside n rig rig')
    (h : SameBelow n points points') : SameBelow n (pass rig points) (pass rig' points') :=
  sameBelow_hold beside (SameBelow.foldl beside.springs
    (fun _ hends _ _ hsame => sameBelow_relaxSpring hends hsame)
    (fun _ hends _ _ hsame => sameBelow_relaxSpring_beyond hends hsame) h)

theorem sameBelow_passes {rig rig' : Rig} (beside : Rig.Beside n rig rig') (count : Nat)
    (h : SameBelow n points points') :
    SameBelow n (passes rig count points) (passes rig' count points') := by
  induction count generalizing points points' with
  | zero => exact h
  | succ count ih => exact ih (sameBelow_pass beside h)

theorem sameBelow_coast (damping dt : Float) {previous previous' forces forces' : Array Vec3}
    (h : SameBelow n points points') (hprevious : SameBelow n previous previous')
    (hforces : SameBelow n forces forces') :
    SameBelow n (coast damping dt points previous forces)
      (coast damping dt points' previous' forces') where
  size_eq := (size_coast _ _ _ _ _).trans h.size_eq
  same hi := by
    rw [coast, coast, Array.getElem?_mapIdx, Array.getElem?_mapIdx, h.same hi,
      pointAt_of_sameBelow hprevious hi, pointAt_of_sameBelow hforces hi]

/-! ## Normals and forces -/

theorem faceNormal?_of_sameBelow {face : Face} (hends : ∀ i ∈ face.ends, i < n)
    (h : SameBelow n points points') : faceNormal? points' face = faceNormal? points face := by
  have ha : face.a < n := hends _ (by simp [Face.ends])
  have hb : face.b < n := hends _ (by simp [Face.ends])
  have hc : face.c < n := hends _ (by simp [Face.ends])
  rw [faceNormal?, faceNormal?, pointAt_of_sameBelow h ha, pointAt_of_sameBelow h hb,
    pointAt_of_sameBelow h hc]

theorem sameBelow_addNormal {face : Face} (hends : ∀ i ∈ face.ends, i < n)
    (h : SameBelow n points points') {sums sums' : Array Vec3} (hsums : SameBelow n sums sums') :
    SameBelow n (addNormal points sums face) (addNormal points' sums' face) := by
  rw [addNormal, addNormal, faceNormal?_of_sameBelow hends h]
  cases faceNormal? points face with
  | none => exact hsums
  | some unit => exact ((hsums.modify face.a _).modify face.b _).modify face.c _

theorem sameBelow_addNormal_beyond {face : Face} (hends : ∀ i ∈ face.ends, n ≤ i)
    (points' : Array Vec3) {sums sums' : Array Vec3} (hsums : SameBelow n sums sums') :
    SameBelow n sums (addNormal points' sums' face) := by
  have ha : n ≤ face.a := hends _ (by simp [Face.ends])
  have hb : n ≤ face.b := hends _ (by simp [Face.ends])
  have hc : n ≤ face.c := hends _ (by simp [Face.ends])
  rw [addNormal]
  cases faceNormal? points' face with
  | none => exact hsums
  | some unit => exact ((hsums.modify_beyond ha _).modify_beyond hb _).modify_beyond hc _

theorem sameBelow_normalsOf {rig rig' : Rig} (beside : Rig.Beside n rig rig')
    (h : SameBelow n points points') :
    SameBelow n (normalsOf rig.triangles points) (normalsOf rig'.triangles points') := by
  have hle : n ≤ points'.size := Nat.le_of_not_lt fun hlt => Nat.lt_irrefl _ (h.lt_size hlt)
  rw [normalsOf, normalsOf, h.size_eq]
  exact (SameBelow.foldl beside.triangles
    (fun _ hends _ _ hsums => sameBelow_addNormal hends h hsums)
    (fun _ hends _ _ hsums => sameBelow_addNormal_beyond hends points' hsums)
    (SameBelow.replicate hle Vec3.zero)).map _

/-- The push on a stitch depends on the normals of its neighbours alone. -/
theorem push_of_sameBelow (stiffness : Float) {normals normals' : Array Vec3}
    (h : SameBelow n normals normals') {neighbours : List Nat} (hlt : ∀ j ∈ neighbours, j < n) :
    push stiffness normals' neighbours = push stiffness normals neighbours := by
  have hmap : neighbours.map (pointAt normals') = neighbours.map (pointAt normals) :=
    List.map_congr_left fun j hj => pointAt_of_sameBelow h (hlt j hj)
  have hsum : neighbours.foldl (fun sum j => sum + pointAt normals' j) Vec3.zero =
      neighbours.foldl (fun sum j => sum + pointAt normals j) Vec3.zero := by
    rw [← List.foldl_map, hmap, List.foldl_map]
  rw [push, push, hsum]

theorem sameBelow_forcesOf {rig rig' : Rig} (beside : Rig.Beside n rig rig')
    {normals normals' : Array Vec3} (h : SameBelow n normals normals') :
    SameBelow n (forcesOf rig normals) (forcesOf rig' normals') := by
  refine ⟨?_, fun {i} hi => ?_⟩
  · rw [forcesOf, Array.size_map, beside.neighbours.size_eq]
  · rw [forcesOf, forcesOf, Array.getElem?_map, Array.getElem?_map, beside.neighbours.same hi,
      beside.settings_eq]
    refine Option.map_congr fun js hjs => ?_
    exact push_of_sameBelow _ h (beside.neighbours_lt i js hjs)

/-! ## Two bodies side by side -/

/-- Two bodies that are the same below `n`, and that no tick moves over the origin. -/
structure Beside (n : Nat) (b b' : Body) : Prop where
  rig : Rig.Beside n b.rig b'.rig
  fixed : (b.rig.settings.recenter && b.rig.pins.isEmpty) = false
  positions : SameBelow n b.positions b'.positions
  previous : SameBelow n b.previous b'.previous
  normals : SameBelow n b.normals b'.normals
  forces : SameBelow n b.forces b'.forces
  ticks_eq : b'.ticks = b.ticks

/-- **A tick keeps two bodies the same below `n`.** -/
theorem Beside.tick {b b' : Body} (beside : Beside n b b') (dt : Float) :
    Beside n (b.tick dt) (b'.tick dt) := by
  obtain ⟨rig, fixed, positions, previous, normals, forces, ticks_eq⟩ := beside
  have hnormals := sameBelow_normalsOf rig positions
  have hforces := sameBelow_forcesOf rig hnormals
  have hsettled := sameBelow_passes rig b.rig.settings.passes
    (sameBelow_coast b.rig.settings.damping dt positions previous hforces)
  unfold Body.tick
  dsimp only
  rw [rig.settings_eq, rig.pins_eq, fixed]
  simp only [Bool.false_eq_true, if_false]
  cases isStep dt with
  | false => exact ⟨rig, fixed, positions, previous, normals, forces, ticks_eq⟩
  | true =>
    exact
      { rig := rig
        fixed := fixed
        positions := hsettled
        previous := sameBelow_holdPins b.rig.pins positions
        normals := hnormals
        forces := hforces
        ticks_eq := congrArg (· + 1) ticks_eq }

/-- Any ticks keep two bodies the same below `n`. -/
theorem Beside.foldl_tick {b b' : Body} (beside : Beside n b b') (dts : List Float) :
    Beside n (dts.foldl Body.tick b) (dts.foldl Body.tick b') := by
  induction dts generalizing b b' with
  | nil => exact beside
  | cons dt rest ih => exact ih (beside.tick dt)

/-- Two bodies at rest. -/
theorem beside_atRest {rig rig' : Rig} (beside : Rig.Beside n rig rig')
    (fixed : (rig.settings.recenter && rig.pins.isEmpty) = false) {seeds seeds' : Array Vec3}
    (h : SameBelow n seeds seeds') : Beside n (atRest rig seeds) (atRest rig' seeds') := by
  have hheld := sameBelow_hold beside h
  have hle : n ≤ seeds'.size := Nat.le_of_not_lt fun hlt => Nat.lt_irrefl _ (h.lt_size hlt)
  exact
    { rig := beside
      fixed := fixed
      positions := hheld
      previous := hheld
      normals := sameBelow_normalsOf beside hheld
      forces := h.size_eq ▸ SameBelow.replicate (h.size_eq.symm ▸ hle) Vec3.zero
      ticks_eq := rfl }

end Body

end Crochet
