import Crochet.Proofs.Decimal.Sum
import Crochet.Proofs.Relax.Held
import Crochet.Proofs.Relax.LastAnchor
import Mathlib.Order.Lattice.Nat

/-!
# The velocity of anchored stitches

A stitch coasts on by what it has moved since the tick before (`getElem?_coast`).  A tick ends with
noting every pinned stitch as having been on its pin, so that it stays at rest.  But a stitch that
is sewn to a smaller anchored one is not on its own pin: the joints have put it onto the pin of the
smallest (`position_of_isLeast`), and the note says otherwise (`previous_tick`).

* `rests_iff_same_pin`: an anchored stitch is at rest after a tick exactly if its own pin is where
  the smallest anchored stitch sewn to it is pinned, in particular if it is that stitch.
* `sewn_anchor_moves_on`: an anchored stitch with a velocity.
-/

namespace Crochet

theorem Vec3.sub_self {v : Vec3} (h : v.isFinite = true) : v - v = .zero := by
  simp only [Vec3.isFinite, Bool.and_eq_true] at h
  obtain ⟨⟨hx, hy⟩, hz⟩ := h
  show (⟨v.x - v.x, v.y - v.y, v.z - v.z⟩ : Vec3) = .zero
  rw [Decimal.sub_self_of_isFinite hx, Decimal.sub_self_of_isFinite hy,
    Decimal.sub_self_of_isFinite hz]
  rfl

/-- The point of an anchor that fits a fabric is finite. -/
theorem Anchor.isFinite_of_last? {count : Nat} {anchors : List Anchor}
    (fits : ∀ anchor ∈ anchors, anchor.Fits count) {node : Nat} {point : Vec3}
    (hlast : last? anchors node = some point) : point.isFinite = true := by
  obtain ⟨anchor, hfind, rfl⟩ := Option.map_eq_some_iff.1 hlast
  exact (fits anchor (List.mem_reverse.1 (List.mem_of_find?_eq_some hfind))).2

namespace Body

/-- How far a stitch has moved since the tick before. -/
def velocity (b : Body) (i : Nat) : Vec3 := b.position i - pointAt b.previous i

/-- The stitches sewn to a stitch that are anchored. -/
def anchoredWith (joints : Array Joint) (anchors : List Anchor) (i : Nat) : Set Nat :=
  {k | Sewn joints i k ∧ (Anchor.last? anchors k).isSome}

variable {g : Fabric} {pins : Index Vec3} {settings : Settings} {anchors : List Anchor}
  {s b : Body} {i j : Nat} {point place : Vec3}

theorem velocity_eq (hposition : b.positions[i]? = some place)
    (hprevious : b.previous[i]? = some point) : b.velocity i = place - point := by
  rw [velocity, position, pointAt, pointAt, Array.getD_eq_getD_getElem?,
    Array.getD_eq_getD_getElem?, hposition, hprevious, Option.getD_some, Option.getD_some]

/-- The velocity is what a stitch coasts on by, as far as it is kept. -/
theorem getElem?_coast (hlt : i < b.positions.size) (damping dt : Float) (forces : Array Vec3) :
    (coast damping dt b.positions b.previous forces)[i]? =
      some (b.position i + (b.velocity i).scale damping + (pointAt forces i).scale (dt * dt)) := by
  rw [coast, Array.getElem?_mapIdx, ← pointAt_eq hlt, Option.map_some, velocity, position]

/-- After a tick, a pinned stitch is noted as having been on its pin. -/
theorem previous_tick {dt : Float} (hdt : isStep dt = true) (hpin : b.rig.pins.find? i = some point)
    (hlt : i < b.positions.size) : (b.tick dt).previous[i]? = some point := by
  rw [tick, if_pos hdt]
  dsimp only
  rw [getElem?_holdPins, hpin, Array.getElem?_eq_getElem (by split <;> simpa)]
  rfl

/-- Every stitch of those sewn together is at the pin of the smallest that is pinned. -/
theorem Held.position_of_isLeast {points : Array Vec3} (held : Held g pins points)
    (hlast : ∀ node, pins.find? node = Anchor.last? anchors node) (hj : j < g.size)
    (hleast : IsLeast (anchoredWith g.joints anchors i) j)
    (hplace : Anchor.last? anchors j = some place) : points[i]? = some place := by
  obtain ⟨⟨hsewn, -⟩, hmin⟩ := hleast
  rw [held.together hsewn]
  refine held.pinned hj ((hlast j).trans hplace) fun k hlt hsewn' => ?_
  rw [hlast]
  by_contra hanchored
  have hk : k ∈ anchoredWith g.joints anchors i :=
    ⟨hsewn.trans hsewn', Option.isSome_iff_ne_none.2 hanchored⟩
  exact absurd (hmin hk) (Nat.not_le_of_lt hlt)

/-- Where an anchored stitch is after a tick, and where it is noted to have been. -/
theorem place_and_previous (reach : g.Reachable) (hpasses : 1 ≤ settings.passes)
    (hstart : start g anchors settings = .ok s) (moved : s.Moved b) {dt : Float}
    (hdt : isStep dt = true) (hpoint : Anchor.last? anchors i = some point)
    (hleast : IsLeast (anchoredWith g.joints anchors i) j)
    (hplace : Anchor.last? anchors j = some place) :
    (b.tick dt).positions[i]? = some place ∧ (b.tick dt).previous[i]? = some point := by
  have bound : ∀ joint ∈ g.joints, joint.source < g.size ∧ joint.target < g.size :=
    fun joint hmem => (reach.wellFormed.joint_lt joint hmem).2
  obtain ⟨-, pins, hpins, rfl⟩ := start_eq_ok hstart
  have stays := stays_of_moved bound hpasses moved
  constructor
  · exact (stays.tick bound hpasses dt).held.position_of_isLeast (Anchor.find?_pins hpins)
      (Anchor.lt_of_last? hpins hplace) hleast hplace
  · refine previous_tick hdt ?_ (stays.held.size_eq ▸ Anchor.lt_of_last? hpins hpoint)
    rw [stays.rig_eq]
    exact (Anchor.find?_pins hpins i).trans hpoint

/-- There is a fabric of three stitches of which the second is sewn to the first. -/
theorem exists_seam : ∃ g : Fabric, g.Reachable ∧ g.size = 3 ∧ Sewn g.joints 1 0 := by
  have hreach := Fabric.Reachable.append ⟨[[.loop], [.single, .single, .join 0 1]]⟩ .empty
  generalize hg : Fabric.worked _ = g at hreach
  have hjoint : (⟨0, 1⟩ : Joint) ∈ g.joints := by
    rw [← hg]
    decide +kernel
  have hsize : g.size = 3 := by
    rw [← hg]
    decide +kernel
  exact ⟨g, hreach, hsize, (Sewn.of_mem hjoint).symm⟩

/-- **An anchored stitch is at rest exactly if it is pinned where the smallest anchored stitch sewn
to it is pinned.**  After every tick it is at the pin of that stitch, and noted as having been on
its own.  A stitch with no smaller anchored one sewn to it is that stitch itself. -/
theorem rests_iff_same_pin (reach : g.Reachable) (hpasses : 1 ≤ settings.passes)
    (hstart : start g anchors settings = .ok s) (moved : s.Moved b) {dt : Float}
    (hdt : isStep dt = true) (hpoint : Anchor.last? anchors i = some point) :
    ∃ j place, IsLeast (anchoredWith g.joints anchors i) j ∧
      Anchor.last? anchors j = some place ∧
      (b.tick dt).positions[i]? = some place ∧
      (b.tick dt).previous[i]? = some point ∧
      ((b.tick dt).positions[i]? = (b.tick dt).previous[i]? ↔ place = point) ∧
      (b.tick dt).velocity i = place - point ∧
      (place = point → (b.tick dt).velocity i = .zero) := by
  have hanchored : i ∈ anchoredWith g.joints anchors i :=
    ⟨Sewn.refl g.joints i, hpoint ▸ rfl⟩
  have hleast := isLeast_csInf (Set.nonempty_of_mem hanchored)
  obtain ⟨place, hplace⟩ := Option.isSome_iff_exists.1 hleast.1.2
  obtain ⟨hposition, hprevious⟩ :=
    place_and_previous reach hpasses hstart moved hdt hpoint hleast hplace
  have hvelocity := velocity_eq hposition hprevious
  refine ⟨_, place, hleast, hplace, hposition, hprevious, ?same, hvelocity, ?rest⟩
  case same => rw [hposition, hprevious, Option.some.injEq]
  case rest =>
    rintro rfl
    obtain ⟨-, pins, hpins, -⟩ := start_eq_ok hstart
    have fits := Anchor.exists_pins_iff.1 ⟨pins, hpins⟩
    rw [hvelocity, Vec3.sub_self (Anchor.isFinite_of_last? fits hplace)]

/-- Two anchored stitches sewn together, both pinned to one point: the second is at rest. -/
theorem rests_iff_same_pin_seam :
    ∃ (g : Fabric) (s : Body), g.Reachable ∧ Sewn g.joints 1 0 ∧
      start g [⟨0, ⟨1.0, 2.0, 3.0⟩⟩, ⟨1, ⟨1.0, 2.0, 3.0⟩⟩] {} = .ok s ∧
      ((s.tick 0.5).tick 0.1).velocity 1 = .zero := by
  obtain ⟨g, hreach, hsize, hsewn⟩ := exists_seam
  have fits : ∀ anchor ∈ ([⟨0, ⟨1.0, 2.0, 3.0⟩⟩, ⟨1, ⟨1.0, 2.0, 3.0⟩⟩] : List Anchor),
      anchor.Fits g.size := by
    rw [hsize]
    unfold Anchor.Fits
    decide
  obtain ⟨s, hstart⟩ := exists_start (rfl : Settings.check {} = .ok ()) fits
  have hdt : isStep 0.1 = true := by decide +kernel
  obtain ⟨j, place, -, hplace, -, -, -, -, hrest⟩ :=
    rests_iff_same_pin hreach (by decide) hstart (Moved.still.tick 0.5) hdt (i := 1) rfl
  refine ⟨g, s, hreach, hsewn, hstart, hrest ?_⟩
  obtain ⟨anchor, hfind, rfl⟩ := Option.map_eq_some_iff.1 hplace
  have hmem := List.mem_of_find?_eq_some hfind
  rw [List.mem_reverse, List.mem_pair] at hmem
  rcases hmem with rfl | rfl <;> rfl

/-- **An anchored stitch with a velocity.**  It is sewn to a smaller anchored one, which is pinned
to the origin, and a tick puts it there; but it is noted as having been on its own pin. -/
theorem sewn_anchor_moves_on :
    ∃ (g : Fabric) (s : Body), g.Reachable ∧
      start g [⟨0, ⟨0.0, 0.0, 0.0⟩⟩, ⟨1, ⟨1.0, 0.0, 0.0⟩⟩] {} = .ok s ∧ isStep 0.5 = true ∧
      (s.tick 0.5).positions[1]? = some ⟨0.0, 0.0, 0.0⟩ ∧
      (s.tick 0.5).previous[1]? = some ⟨1.0, 0.0, 0.0⟩ ∧
      (s.tick 0.5).velocity 1 = ⟨-1.0, 0.0, 0.0⟩ := by
  obtain ⟨g, hreach, hsize, hsewn⟩ := exists_seam
  have fits : ∀ anchor ∈ ([⟨0, ⟨0.0, 0.0, 0.0⟩⟩, ⟨1, ⟨1.0, 0.0, 0.0⟩⟩] : List Anchor),
      anchor.Fits g.size := by
    rw [hsize]
    unfold Anchor.Fits
    decide
  obtain ⟨s, hstart⟩ := exists_start (rfl : Settings.check {} = .ok ()) fits
  have hdt : isStep 0.5 = true := by decide +kernel
  have hleast : IsLeast (anchoredWith g.joints
      [⟨0, ⟨0.0, 0.0, 0.0⟩⟩, ⟨1, ⟨1.0, 0.0, 0.0⟩⟩] 1) 0 :=
    ⟨⟨hsewn, rfl⟩, fun k _ => k.zero_le⟩
  obtain ⟨hposition, hprevious⟩ :=
    place_and_previous hreach (by decide) hstart .still hdt (i := 1) rfl hleast rfl
  refine ⟨g, s, hreach, hstart, hdt, hposition, hprevious, ?_⟩
  rw [velocity_eq hposition hprevious]
  rfl

end Body

end Crochet
