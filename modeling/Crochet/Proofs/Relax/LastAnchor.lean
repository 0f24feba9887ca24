import Crochet.Proofs.Relax.Bounds
import Crochet.Proofs.Relax.Components

/-!
# Only the last anchor of a node counts

Anchors are set one after the other, and a later anchor of a node takes the place of an earlier one.
So the pins that they leave are known from the last anchor of each node (`mem_entries_pins`), and
two lists of anchors that agree on those set up the same body (`start_of_same_last`), in whatever
order they come and whatever they say before.
-/

namespace Crochet

/-- Two maps in which one finds the same are the same map. -/
theorem Index.ext_find? {α : Type} {m n : Index α} (h : ∀ key, m.find? key = n.find? key) :
    m = n := by
  refine Index.ext (m.entries_eq n.ascending fun key value => ?_)
  rw [n.mem_entries_iff, h]

namespace Anchor

variable {count : Nat} {anchors others : List Anchor}

/-- Anchors leave pins exactly if they all fit the fabric. -/
theorem exists_pins_iff :
    (∃ m, pins count anchors = .ok m) ↔ ∀ anchor ∈ anchors, anchor.Fits count := by
  constructor
  · rintro ⟨m, hm⟩
    by_contra! hmisfit
    obtain ⟨fault, hfault⟩ := exists_firstMisfit_iff.2 hmisfit
    rw [pins_eq_error_iff.2 hfault] at hm
    cases hm
  · intro fits
    cases hpins : pins count anchors with
    | ok m => exact ⟨m, rfl⟩
    | error fault =>
      obtain ⟨anchor, hmem, hmisfit⟩ := exists_firstMisfit_iff.1 ⟨fault, pins_eq_error_iff.1 hpins⟩
      exact absurd (fits anchor hmem) hmisfit

/-- **The pins are the anchored nodes, each with the point of its last anchor.** -/
theorem mem_entries_pins {m : Index Vec3} (h : pins count anchors = .ok m) (node : Nat)
    (point : Vec3) : (node, point) ∈ m.entries ↔ last? anchors node = some point := by
  rw [m.mem_entries_iff, find?_pins h]

/-- Anchors with the same last anchor of each node leave the same pins. -/
theorem pins_of_same_last {m n : Index Vec3} (h : pins count anchors = .ok m)
    (hothers : pins count others = .ok n) (same : ∀ node, last? anchors node = last? others node) :
    m = n := by
  refine Index.ext_find? fun node => ?_
  rw [find?_pins h, find?_pins hothers, same]

end Anchor

namespace Body

/-- A body is set up with the pins of its anchors, if the settings are in range. -/
theorem start_of_pins {g : Fabric} {anchors : List Anchor} {settings : Settings} {m : Index Vec3}
    (hcheck : settings.check = .ok ()) (h : Anchor.pins g.size anchors = .ok m) :
    start g anchors settings =
      .ok (atRest (Rig.ofFabric g m settings) (Rig.seeds g settings)) := by
  rw [start, hcheck]
  simp only [h]

/-- A body is set up if the settings are in range and the anchors fit the fabric. -/
theorem exists_start {g : Fabric} {anchors : List Anchor} {settings : Settings}
    (hcheck : settings.check = .ok ()) (fits : ∀ anchor ∈ anchors, anchor.Fits g.size) :
    ∃ s, start g anchors settings = .ok s := by
  obtain ⟨m, hm⟩ := Anchor.exists_pins_iff.2 fits
  exact ⟨_, start_of_pins hcheck hm⟩

/-- **Only the last anchor of a node counts.**  Anchors that fit a fabric, and give each node the
same last point or none, set up one and the same body, or fail at the same setting.  The pins of the
body come in the order of the nodes; they are the anchored nodes with their last points. -/
theorem start_of_same_last (g : Fabric) (settings : Settings) {anchors others : List Anchor}
    (fits : ∀ anchor ∈ anchors, anchor.Fits g.size)
    (fitsOthers : ∀ anchor ∈ others, anchor.Fits g.size)
    (same : ∀ node, Anchor.last? anchors node = Anchor.last? others node) :
    match settings.check with
    | .error fault =>
      start g anchors settings = .error fault ∧ start g others settings = .error fault
    | .ok () =>
      ∃ s, start g anchors settings = .ok s ∧ start g others settings = .ok s ∧
        s.rig.pins.entries.Pairwise (·.1 < ·.1) ∧
        ∀ node point,
          (node, point) ∈ s.rig.pins.entries ↔ Anchor.last? anchors node = some point := by
  obtain ⟨m, hm⟩ := Anchor.exists_pins_iff.2 fits
  obtain ⟨n, hn⟩ := Anchor.exists_pins_iff.2 fitsOthers
  obtain rfl := Anchor.pins_of_same_last hm hn same
  cases hcheck : settings.check with
  | error fault => simp only [start, hcheck, and_self]
  | ok _ =>
    exact ⟨_, start_of_pins hcheck hm, start_of_pins hcheck hn, m.ascending,
      Anchor.mem_entries_pins hm⟩

/-- Two anchors for one stitch of a disc and one for another, in two lists that differ in their
order and in the anchor that does not count. -/
theorem start_of_same_last_disc :
    ∃ (disc : Fabric) (s : Body),
      start disc [⟨2, ⟨9.0, 9.0, 9.0⟩⟩, ⟨1, ⟨1.0, 0.0, 0.0⟩⟩, ⟨2, ⟨0.0, 1.0, 0.0⟩⟩] {} = .ok s ∧
      start disc [⟨1, ⟨7.0, 7.0, 7.0⟩⟩, ⟨2, ⟨0.0, 1.0, 0.0⟩⟩, ⟨1, ⟨1.0, 0.0, 0.0⟩⟩] {} = .ok s ∧
      (2, ⟨0.0, 1.0, 0.0⟩) ∈ s.rig.pins.entries ∧ (2, ⟨9.0, 9.0, 9.0⟩) ∉ s.rig.pins.entries := by
  generalize hdisc :
    Fabric.worked (Fabric.ofPattern ⟨[[.loop], [.single, .increase, .increase]]⟩) = disc
  have hsize : disc.size = 4 := by
    rw [← hdisc]
    decide +kernel
  have fits : ∀ anchor ∈ ([⟨2, ⟨9.0, 9.0, 9.0⟩⟩, ⟨1, ⟨1.0, 0.0, 0.0⟩⟩, ⟨2, ⟨0.0, 1.0, 0.0⟩⟩] :
      List Anchor), anchor.Fits disc.size := by
    rw [hsize]
    unfold Anchor.Fits
    decide
  have fitsOthers : ∀ anchor ∈ ([⟨1, ⟨7.0, 7.0, 7.0⟩⟩, ⟨2, ⟨0.0, 1.0, 0.0⟩⟩, ⟨1, ⟨1.0, 0.0, 0.0⟩⟩] :
      List Anchor), anchor.Fits disc.size := by
    rw [hsize]
    unfold Anchor.Fits
    decide
  have hstart := start_of_same_last disc {} fits fitsOthers ?same
  case same =>
    intro node
    by_cases hone : node = 1
    · simp [Anchor.last?_cons, hone]
    · by_cases htwo : node = 2
      · simp [Anchor.last?_cons, htwo]
      · simp [Anchor.last?_cons, hone, htwo]
  obtain ⟨s, hs, hs', -, hpins⟩ := hstart
  refine ⟨disc, s, hs, hs', (hpins _ _).2 rfl, fun hmem => ?_⟩
  have hpoint : (⟨0.0, 1.0, 0.0⟩ : Vec3) = ⟨9.0, 9.0, 9.0⟩ := Option.some.inj ((hpins _ _).1 hmem)
  exact absurd (congrArg Vec3.x hpoint) (by decide)

end Body

end Crochet
