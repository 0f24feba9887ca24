import Crochet.Proofs.Fabric.WellFormed
import Crochet.Proofs.Relax.Holding

/-!
# Pins and joints hold at all times

Stitches are `Held` if those sewn together are in one place, and if every pinned stitch is on its
pin unless a smaller pinned stitch is sewn to it.

* `held_hold`: putting stitches into their places makes them held, wherever they were.
* `Stays.tick`: a tick of at least one pass leaves them held.  Springs pull them away, but each pass
  ends with putting them back; and a body is only moved over the origin when nothing is pinned,
  which keeps together what is together.
* `held_of_moved`: so they are held at all times.
-/

namespace Crochet

namespace Body

/-! ## Bodies in motion -/

/-- What becomes of a body by ticks and runs of any lengths. -/
inductive Moved (s : Body) : Body → Prop
  | still : Moved s s
  | tick {b : Body} (moved : Moved s b) (dt : Float) : Moved s (b.tick dt)
  | run {b : Body} (moved : Moved s b) (dt : Float) (count : Nat) : Moved s (b.run dt count)

/-- A property that every tick keeps is kept by a run. -/
theorem run_of_tick {P : Body → Prop} (htick : ∀ {b : Body} (dt : Float), P b → P (b.tick dt))
    {b : Body} (hb : P b) (dt : Float) (count : Nat) : P (b.run dt count) := by
  induction count generalizing b with
  | zero => exact hb
  | succ n ih => exact ih (htick dt hb)

/-- A property that every tick keeps is kept at all times. -/
theorem Moved.of_tick {P : Body → Prop} (htick : ∀ {b : Body} (dt : Float), P b → P (b.tick dt))
    {s b : Body} (hs : P s) (moved : s.Moved b) : P b := by
  induction moved with
  | still => exact hs
  | tick _ dt ih => exact htick dt ih
  | run _ dt count ih => exact run_of_tick htick ih dt count

/-! ## Held stitches -/

/-- Stitches sewn together are in one place, and of those that are pinned the smallest is on its
pin. -/
structure Held (g : Fabric) (pins : Index Vec3) (points : Array Vec3) : Prop where
  size_eq : points.size = g.size
  together : ∀ {i j : Nat}, Sewn g.joints i j → points[i]? = points[j]?
  pinned : ∀ {i : Nat} {point : Vec3}, i < g.size → pins.find? i = some point →
    (∀ k < i, Sewn g.joints i k → pins.find? k = none) → points[i]? = some point

variable {g : Fabric} {pins : Index Vec3} {points : Array Vec3}

/-- **Putting stitches into their places makes them held, wherever they were.** -/
theorem held_hold (bound : ∀ joint ∈ g.joints, joint.source < g.size ∧ joint.target < g.size)
    {rig : Rig} (hgroups : rig.groups = Group.ofJoints g.size g.joints pins)
    (hpins : rig.pins = pins) (hsize : points.size = g.size) : Held g pins (hold rig points) := by
  subst hpins
  have hspot : ∀ {i : Nat}, i < g.size → (hold rig points)[i]? =
      (holdPins rig.pins points)[Group.spot g.size g.joints rig.pins i]? := by
    intro i hi
    rw [hold, hgroups, getElem?_holdJoints _ _ ((size_holdPins _ _).trans hsize) hi]
  refine ⟨(size_hold rig points).trans hsize, ?together, ?pinned⟩
  case together =>
    intro i j hsewn
    refine hsewn.congr (v := ((hold rig points)[·]?)) fun joint hmem => ?_
    obtain ⟨hsource, htarget⟩ := bound joint hmem
    rw [hspot hsource, hspot htarget, Group.spot_eq_of_sewn bound (.of_mem hmem)]
  case pinned =>
    intro i point hi hpin least
    have hself : Group.spot g.size g.joints rig.pins i = i := by
      refine Group.spot_eq_self bound hi ?_ fun k hlt hsewn => ?_
      · rw [Index.contains, hpin, Option.isSome_some]
      · rw [Index.contains, least k hlt hsewn, Option.isSome_none]
    rw [hspot hi, hself, getElem?_holdPins, hpin, Array.getElem?_eq_getElem (hsize ▸ hi)]
    rfl

/-- Moving all stitches alike keeps them held if nothing is pinned. -/
theorem Held.map (held : Held g pins points) (hempty : pins.isEmpty = true) (f : Vec3 → Vec3) :
    Held g pins (points.map f) where
  size_eq := Array.size_map.trans held.size_eq
  together hsewn := by rw [Array.getElem?_map, Array.getElem?_map, held.together hsewn]
  pinned hi hpin least := by
    rw [Index.find?, List.isEmpty_iff.1 hempty] at hpin
    cases hpin

/-! ## Ticks -/

@[simp] theorem size_coast (damping dt : Float) (positions previous forces : Array Vec3) :
    (coast damping dt positions previous forces).size = positions.size :=
  Array.size_mapIdx

@[simp] theorem size_relaxSpring (points : Array Vec3) (spring : Spring) :
    (relaxSpring points spring).size = points.size := by
  rw [relaxSpring, Array.size_modify, Array.size_modify]

@[simp] theorem size_foldl_relaxSpring (springs : List Spring) (points : Array Vec3) :
    (springs.foldl relaxSpring points).size = points.size := by
  induction springs generalizing points with
  | nil => rfl
  | cons spring rest ih => rw [List.foldl_cons, ih, size_relaxSpring]

@[simp] theorem size_pass (rig : Rig) (points : Array Vec3) :
    (pass rig points).size = points.size := by
  rw [pass, size_hold, size_foldl_relaxSpring]

@[simp] theorem size_passes (rig : Rig) (n : Nat) (points : Array Vec3) :
    (passes rig n points).size = points.size := by
  induction n generalizing points with
  | zero => rfl
  | succ n ih => rw [passes, ih, size_pass]

/-- The last of some passes. -/
theorem passes_succ (rig : Rig) (n : Nat) (points : Array Vec3) :
    passes rig (n + 1) points = pass rig (passes rig n points) := by
  induction n generalizing points with
  | zero => rfl
  | succ n ih => rw [passes, ih, passes]

/-- A body of a fabric with its rig, in which stitches are held. -/
structure Stays (g : Fabric) (pins : Index Vec3) (settings : Settings) (b : Body) : Prop where
  rig_eq : b.rig = Rig.ofFabric g pins settings
  held : Held g pins b.positions

variable {settings : Settings}

theorem stays_atRest (bound : ∀ joint ∈ g.joints, joint.source < g.size ∧ joint.target < g.size) :
    Stays g pins settings (atRest (Rig.ofFabric g pins settings) (Rig.seeds g settings)) where
  rig_eq := rfl
  held := held_hold bound rfl rfl (by rw [Rig.seeds, Array.size_map, Fabric.size])

/-- A tick of at least one pass keeps stitches held. -/
theorem Stays.tick (bound : ∀ joint ∈ g.joints, joint.source < g.size ∧ joint.target < g.size)
    (hpasses : 1 ≤ settings.passes) {b : Body} (dt : Float) (stays : Stays g pins settings b) :
    Stays g pins settings (b.tick dt) := by
  obtain ⟨hrig, held⟩ := stays
  obtain ⟨n, hn⟩ : ∃ n, settings.passes = n + 1 := ⟨settings.passes - 1, by omega⟩
  -- The last pass puts the stitches into their places.
  have hsettled : ∀ points : Array Vec3, points.size = g.size →
      Held g pins (passes b.rig b.rig.settings.passes points) := by
    intro points hsize
    have hcount : b.rig.settings.passes = n + 1 := by rw [hrig, Rig.ofFabric, hn]
    rw [hcount, passes_succ, pass]
    refine held_hold bound (by rw [hrig, Rig.ofFabric]) (by rw [hrig, Rig.ofFabric]) ?_
    rw [size_foldl_relaxSpring, size_passes, hsize]
  unfold Body.tick
  split
  case isFalse => exact ⟨hrig, held⟩
  case isTrue =>
    refine ⟨hrig, ?_⟩
    have hlast := hsettled _ ((size_coast b.rig.settings.damping dt b.positions b.previous
      (forcesOf b.rig (normalsOf b.rig.triangles b.positions))).trans held.size_eq)
    dsimp only
    split
    case isTrue hfree =>
      rw [Bool.and_eq_true, hrig] at hfree
      exact hlast.map hfree.2 _
    case isFalse => exact hlast

theorem stays_of_moved (bound : ∀ joint ∈ g.joints, joint.source < g.size ∧ joint.target < g.size)
    (hpasses : 1 ≤ settings.passes) {b : Body}
    (moved : (atRest (Rig.ofFabric g pins settings) (Rig.seeds g settings)).Moved b) :
    Stays g pins settings b :=
  moved.of_tick (fun dt stays => stays.tick bound hpasses dt) (stays_atRest bound)

theorem start_eq_ok {anchors : List Anchor} {s : Body} (h : start g anchors settings = .ok s) :
    settings.check = .ok () ∧ ∃ pins, Anchor.pins g.size anchors = .ok pins ∧
      s = atRest (Rig.ofFabric g pins settings) (Rig.seeds g settings) := by
  unfold start at h
  split at h
  case h_1 => cases h
  case h_2 hcheck =>
    split at h
    case h_1 => cases h
    case h_2 pins hpins =>
      cases h
      exact ⟨hcheck, pins, hpins, rfl⟩

/-- **Pins and joints hold at all times.**  Stitches that a chain of joints sews together are in one
place.  An anchored stitch is at the point of its last anchor unless a smaller anchored stitch is
sewn to it, and so all stitches sewn together are at the point of the smallest anchored one. -/
theorem held_of_moved (reach : g.Reachable) {anchors : List Anchor}
    (hpasses : 1 ≤ settings.passes) {s b : Body} (hstart : start g anchors settings = .ok s)
    (moved : s.Moved b) :
    b.positions.size = g.size ∧
      (∀ {i j : Nat}, Sewn g.joints i j → b.positions[i]? = b.positions[j]?) ∧
      (∀ {i : Nat} {point : Vec3}, Anchor.last? anchors i = some point →
        (∀ k < i, Sewn g.joints i k → Anchor.last? anchors k = none) →
        b.positions[i]? = some point) ∧
      ∀ {i j : Nat} {point : Vec3}, Sewn g.joints i j → Anchor.last? anchors j = some point →
        (∀ k < j, Sewn g.joints j k → Anchor.last? anchors k = none) →
        b.positions[i]? = some point := by
  have bound : ∀ joint ∈ g.joints, joint.source < g.size ∧ joint.target < g.size :=
    fun joint hmem => (reach.wellFormed.joint_lt joint hmem).2
  obtain ⟨-, pins, hpins, rfl⟩ := start_eq_ok hstart
  have held := (stays_of_moved bound hpasses moved).held
  have hpinned : ∀ {i : Nat} {point : Vec3}, Anchor.last? anchors i = some point →
      (∀ k < i, Sewn g.joints i k → Anchor.last? anchors k = none) →
      b.positions[i]? = some point := by
    intro i point hlast least
    refine held.pinned (Anchor.lt_of_last? hpins hlast) ((Anchor.find?_pins hpins i).trans hlast) ?_
    intro k hlt hsewn
    rw [Anchor.find?_pins hpins, least k hlt hsewn]
  refine ⟨held.size_eq, held.together, hpinned, ?_⟩
  intro i j point hsewn hlast least
  rw [held.together hsewn, hpinned hlast least]

/-- Two stitches sewn together, of which the second is anchored: after some ticks the first is at
the anchor too. -/
theorem held_of_moved_seam :
    ∃ (g : Fabric) (s : Body), g.Reachable ∧ Sewn g.joints 0 2 ∧
      start g [⟨2, ⟨1.0, 2.0, 3.0⟩⟩] {} = .ok s ∧
      ((s.tick 0.5).run 0.1 3).positions[0]? = some ⟨1.0, 2.0, 3.0⟩ := by
  have hreach := Fabric.Reachable.append ⟨[[.loop], [.single, .single, .join 0 2]]⟩ .empty
  generalize hg : Fabric.worked _ = g at hreach
  have hjoint : (⟨0, 2⟩ : Joint) ∈ g.joints := by
    rw [← hg]
    decide +kernel
  have hsewn : Sewn g.joints 0 2 := .of_mem hjoint
  have hok : (start g [⟨2, ⟨1.0, 2.0, 3.0⟩⟩] {}).isOk = true := by
    rw [← hg]
    decide +kernel
  cases hstart : start g [⟨2, ⟨1.0, 2.0, 3.0⟩⟩] {} with
  | error fault =>
    rw [hstart] at hok
    cases hok
  | ok s =>
    have hheld := held_of_moved hreach (by decide) hstart ((Moved.still.tick 0.5).run 0.1 3)
    refine ⟨g, s, hreach, hsewn, hstart, hheld.2.2.2 hsewn rfl fun k hlt _ => ?_⟩
    simp [Anchor.last?, Nat.ne_of_gt hlt]

end Body

end Crochet
