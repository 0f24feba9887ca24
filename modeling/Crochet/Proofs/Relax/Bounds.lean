import Crochet.Proofs.Relax.Joining
import Crochet.Proofs.Relax.Report

/-!
# Nothing beyond the stitches

A body keeps one entry for each stitch in every one of its arrays, and its rig names stitches by
their numbers.  So nothing that a tick looks up may be missing.

* `Anchor.pins_eq_error_iff`: anchors fail at the first of them that does not fit the fabric, with
  the fault that it has.
* `Rig.inBounds_ofFabric`: the rig of a well-formed fabric names stitches of that fabric alone.
* `InBounds.tick`: a tick leaves the rig as it is, and every array at its size.
* `start_fails_iff_and_in_bounds`: so a body can be set up unless a setting or an anchor is at
  fault, and then it stays in bounds whatever it is driven by.
-/

namespace Crochet

/-! ## Anchors that do not fit -/

namespace Anchor

/-- An anchor holds one of `count` nodes at a point of space. -/
def Fits (count : Nat) (anchor : Anchor) : Prop :=
  anchor.node < count ∧ anchor.position.isFinite = true

/-- What is wrong with an anchor on a fabric with `count` nodes.  The node is looked at first. -/
inductive Misfit (count : Nat) (anchor : Anchor) : Fault → Prop
  | noSuchNode (hle : count ≤ anchor.node) : Misfit count anchor (.noSuchNode anchor.node count)
  | notFinite (hlt : anchor.node < count) (hposition : anchor.position.isFinite = false) :
      Misfit count anchor (.anchorNotFinite anchor.node)

/-- The first anchor that does not fit has this fault. -/
def FirstMisfit (count : Nat) (anchors : List Anchor) (fault : Fault) : Prop :=
  ∃ before anchor after, anchors = before ++ anchor :: after ∧
    (∀ other ∈ before, other.Fits count) ∧ anchor.Misfit count fault

variable {count : Nat} {anchor : Anchor} {anchors : List Anchor} {fault : Fault}

theorem Misfit.not_fits (misfit : anchor.Misfit count fault) : ¬anchor.Fits count := by
  rintro ⟨hlt, hfinite⟩
  cases misfit with
  | noSuchNode hle => omega
  | notFinite _ hposition => exact absurd (hfinite.symm.trans hposition) (by decide)

theorem exists_misfit (h : ¬anchor.Fits count) : ∃ fault, anchor.Misfit count fault := by
  by_cases hle : count ≤ anchor.node
  · exact ⟨_, .noSuchNode hle⟩
  · have hlt := Nat.lt_of_not_le hle
    exact ⟨_, .notFinite hlt (by simpa [Fits, hlt] using h)⟩

theorem firstMisfit_cons {rest : List Anchor} : FirstMisfit count (anchor :: rest) fault ↔
    anchor.Misfit count fault ∨ anchor.Fits count ∧ FirstMisfit count rest fault := by
  constructor
  · rintro ⟨before, misfit, after, heq, fits, hmisfit⟩
    cases before with
    | nil =>
      obtain ⟨rfl, -⟩ := List.cons.inj heq
      exact .inl hmisfit
    | cons first before =>
      obtain ⟨rfl, rfl⟩ := List.cons.inj heq
      obtain ⟨hfirst, hbefore⟩ := List.forall_mem_cons.1 fits
      exact .inr ⟨hfirst, before, misfit, after, rfl, hbefore, hmisfit⟩
  · rintro (hmisfit | ⟨hfits, before, misfit, after, rfl, fits, hmisfit⟩)
    · exact ⟨[], anchor, rest, rfl, List.forall_mem_nil _, hmisfit⟩
    · exact ⟨anchor :: before, misfit, after, rfl, List.forall_mem_cons.2 ⟨hfits, fits⟩, hmisfit⟩

/-- Some anchor is the first that does not fit exactly if there is one that does not. -/
theorem exists_firstMisfit_iff :
    (∃ fault, FirstMisfit count anchors fault) ↔ ∃ anchor ∈ anchors, ¬anchor.Fits count := by
  induction anchors with
  | nil => simp [FirstMisfit]
  | cons first rest ih =>
    simp only [firstMisfit_cons, exists_or, exists_and_left, ih, List.mem_cons, exists_eq_or_imp]
    constructor
    · rintro (⟨fault, misfit⟩ | ⟨-, hrest⟩)
      · exact .inl misfit.not_fits
      · exact .inr hrest
    · intro h
      by_cases hfits : first.Fits count
      · exact .inr ⟨hfits, h.resolve_left (not_not_intro hfits)⟩
      · exact .inl (exists_misfit hfits)

/-! ## Setting pins -/

theorem addTo_of_fits (pins : Index Vec3) (fits : anchor.Fits count) :
    addTo count pins anchor = .ok (pins.insert anchor.node anchor.position) := by
  rw [addTo, if_neg (Nat.not_le_of_lt fits.1), if_pos fits.2]

theorem addTo_of_misfit (pins : Index Vec3) (misfit : anchor.Misfit count fault) :
    addTo count pins anchor = .error fault := by
  cases misfit with
  | noSuchNode hle => rw [addTo, if_pos hle]
  | notFinite hlt hposition =>
    rw [addTo, if_neg (Nat.not_le_of_lt hlt), if_neg (by simp [hposition])]

theorem foldlM_addTo_eq_error_iff (pins : Index Vec3) :
    anchors.foldlM (addTo count) pins = .error fault ↔ FirstMisfit count anchors fault := by
  induction anchors generalizing pins with
  | nil => simp [FirstMisfit, pure, Except.pure]
  | cons first rest ih =>
    rw [List.foldlM_cons, firstMisfit_cons]
    by_cases hfits : first.Fits count
    · have hnot : ¬first.Misfit count fault := fun misfit => misfit.not_fits hfits
      rw [addTo_of_fits pins hfits]
      refine (ih (pins.insert first.node first.position)).trans ?_
      simp [hfits, hnot]
    · obtain ⟨cause, misfit⟩ := exists_misfit hfits
      rw [addTo_of_misfit pins misfit]
      constructor
      · intro h
        obtain rfl := Except.error.inj h
        exact .inl misfit
      · rintro (hmisfit | ⟨h, -⟩)
        · exact (addTo_of_misfit pins misfit).symm.trans (addTo_of_misfit pins hmisfit)
        · exact absurd h hfits

/-- **Anchors fail at the first of them that does not fit.** -/
theorem pins_eq_error_iff : pins count anchors = .error fault ↔ FirstMisfit count anchors fault :=
  foldlM_addTo_eq_error_iff {}

theorem pin_lt_of_foldlM {pins pins' : Index Vec3}
    (h : anchors.foldlM (addTo count) pins = .ok pins')
    (hpins : ∀ pin ∈ pins.entries, pin.1 < count) : ∀ pin ∈ pins'.entries, pin.1 < count := by
  induction anchors generalizing pins with
  | nil =>
    obtain rfl := Except.ok.inj h
    exact hpins
  | cons anchor rest ih =>
    obtain ⟨hlt, hrest⟩ := foldlM_cons_eq_ok h
    refine ih hrest fun pin hmem => ?_
    rcases Index.key_of_mem_insertEntry hmem with hkey | hold
    · rwa [hkey]
    · exact hpins pin hold

/-- Only nodes of the fabric are pinned. -/
theorem pin_lt_of_pins {m : Index Vec3} (h : pins count anchors = .ok m) :
    ∀ pin ∈ m.entries, pin.1 < count :=
  pin_lt_of_foldlM h (List.forall_mem_nil _)

end Anchor

/-! ## The rig -/

namespace Rig

/-- A rig that names stitches of a fabric alone. -/
structure InBounds (g : Fabric) (rig : Rig) : Prop where
  spring_lt : ∀ spring ∈ rig.springs,
    spring.a < g.size ∧ spring.b < g.size ∧ spring.a ≠ spring.b
  neighbours_size : rig.neighbours.size = g.size
  neighbour_lt : ∀ js ∈ rig.neighbours, ∀ j ∈ js, j < g.size
  triangles_eq : rig.triangles = g.faces.toList
  triangle_lt : ∀ face ∈ rig.triangles, face.a < g.size ∧ face.b < g.size ∧ face.c < g.size
  group_lt : ∀ group ∈ rig.groups, group.leader < g.size ∧ ∀ i ∈ group.members, i < g.size
  pin_lt : ∀ pin ∈ rig.pins.entries, pin.1 < g.size

@[simp] theorem size_neighboursOf (count : Nat) (edges : Array Edge) :
    (neighboursOf count edges).size = count := by
  refine Array.foldl_induction (fun _ (neighbours : Array (List Nat)) => neighbours.size = count)
    Array.size_replicate fun k neighbours hsize => ?_
  rw [addNeighbours, Array.size_modify, Array.size_modify, hsize]

/-- **The rig of a well-formed fabric names stitches of that fabric alone.** -/
theorem inBounds_ofFabric {g : Fabric} (wf : g.WellFormed) {pins : Index Vec3}
    (hpins : ∀ pin ∈ pins.entries, pin.1 < g.size) (settings : Settings) :
    InBounds g (ofFabric g pins settings) where
  spring_lt := by
    intro spring hmem
    obtain ⟨edge, hedge, rfl⟩ := List.mem_map.1 hmem
    obtain ⟨hback, hlt⟩ := wf.edge_lt edge (Array.mem_toList_iff.1 hedge)
    exact ⟨hlt, Nat.lt_trans hback hlt, Nat.ne_of_gt hback⟩
  neighbours_size := size_neighboursOf g.size g.edges
  neighbour_lt := by
    intro js hmem
    obtain ⟨i, hi⟩ := Array.mem_iff_getElem?.1 hmem
    refine allBelow_neighboursOf (fun edge hedge => ?_) i js hi
    obtain ⟨hback, hlt⟩ := wf.edge_lt edge hedge
    exact ⟨hlt, Nat.lt_trans hback hlt⟩
  triangles_eq := rfl
  triangle_lt face hmem := (wf.face_lt face (Array.mem_toList_iff.1 hmem)).2
  group_lt := by
    intro group hgroup
    have hends := Group.ends_lt hgroup
    exact ⟨hends _ List.mem_cons_self, fun i hi => hends i (List.mem_cons_of_mem _ hi)⟩
  pin_lt := hpins

end Rig

namespace Body

/-! ## Sizes -/

@[simp] theorem size_addNormal (points sums : Array Vec3) (face : Face) :
    (addNormal points sums face).size = sums.size := by
  rw [addNormal]
  cases faceNormal? points face with
  | none => rfl
  | some unit => simp

@[simp] theorem size_normalsOf (triangles : List Face) (points : Array Vec3) :
    (normalsOf triangles points).size = points.size := by
  have hsums : ∀ sums : Array Vec3,
      (triangles.foldl (addNormal points) sums).size = sums.size := by
    induction triangles with
    | nil => exact fun sums => rfl
    | cons face rest ih => exact fun sums => (ih _).trans (size_addNormal points sums face)
  rw [normalsOf, Array.size_map, hsums, Array.size_replicate]

@[simp] theorem size_forcesOf (rig : Rig) (normals : Array Vec3) :
    (forcesOf rig normals).size = rig.neighbours.size :=
  Array.size_map

@[simp] theorem size_seeds (g : Fabric) (settings : Settings) :
    (Rig.seeds g settings).size = g.size :=
  Array.size_map

/-! ## Bodies in bounds -/

/-- A body of a fabric with one entry for each stitch in all its arrays. -/
structure InBounds (g : Fabric) (b : Body) : Prop where
  rig : b.rig.InBounds g
  positions_size : b.positions.size = g.size
  previous_size : b.previous.size = g.size
  normals_size : b.normals.size = g.size
  forces_size : b.forces.size = g.size

variable {g : Fabric}

theorem inBounds_atRest {rig : Rig} (hrig : rig.InBounds g) {seeds : Array Vec3}
    (hseeds : seeds.size = g.size) : InBounds g (atRest rig seeds) where
  rig := hrig
  positions_size := (size_hold rig seeds).trans hseeds
  previous_size := (size_hold rig seeds).trans hseeds
  normals_size := (size_normalsOf _ _).trans ((size_hold rig seeds).trans hseeds)
  forces_size := Array.size_replicate.trans hseeds

/-- **A tick leaves every array at its size.** -/
theorem InBounds.tick {b : Body} (dt : Float) (inBounds : InBounds g b) :
    InBounds g (b.tick dt) := by
  obtain ⟨rig, positions_size, previous_size, normals_size, forces_size⟩ := inBounds
  unfold Body.tick
  split
  case isFalse => exact ⟨rig, positions_size, previous_size, normals_size, forces_size⟩
  case isTrue =>
    refine ⟨rig, ?positions, ?previous, ?normals, ?forces⟩
    case positions => dsimp only; split <;> simp [positions_size]
    case previous => dsimp only; split <;> simp [positions_size]
    case normals => simp [positions_size]
    case forces => simp [rig.neighbours_size]

/-- What becomes of a body by ticks and runs of any lengths.  A run may be watched, by someone who
keeps a world of their own. -/
inductive Driven (s : Body) : Body → Prop
  | still : Driven s s
  | tick {b : Body} (driven : Driven s b) (dt : Float) : Driven s (b.tick dt)
  | run {b : Body} (driven : Driven s b) (dt : Float) (count : Nat) : Driven s (b.run dt count)
  | watched {b : Body} (driven : Driven s b) (dt : Float) (count : Nat) {World : Type}
      (tell : Report → StateM World Unit) (interval : Nat) (world : World) :
      Driven s ((runWatched tell interval dt count b).run world).1

/-- Watching a run moves a body no further. -/
theorem Driven.moved {s b : Body} (driven : s.Driven b) : s.Moved b := by
  induction driven with
  | still => exact .still
  | tick _ dt ih => exact ih.tick dt
  | run _ dt count ih => exact ih.run dt count
  | watched _ dt count tell interval world ih =>
    rw [fst_runWatched]
    exact ih.run dt count

/-! ## Setting up -/

/-- Settings are checked first, and then the anchors in order. -/
theorem start_eq_error_iff_misfit {anchors : List Anchor} {settings : Settings} {fault : Fault} :
    start g anchors settings = .error fault ↔
      settings.check = .error fault ∨
        settings.check = .ok () ∧ Anchor.FirstMisfit g.size anchors fault := by
  rw [← Anchor.pins_eq_error_iff, start]
  cases settings.check with
  | error cause => simp
  | ok _ => cases Anchor.pins g.size anchors <;> simp

/-- **A body is set up unless a setting or an anchor is at fault, and then nothing in it ever leads
beyond its stitches.**  The settings are looked at first, and then the first anchor that does not
fit is the one that counts. -/
theorem start_fails_iff_and_in_bounds (reach : g.Reachable) (anchors : List Anchor)
    (settings : Settings) :
    ((∃ fault, start g anchors settings = .error fault) ↔
        (∃ fault, settings.check = .error fault) ∨ ∃ anchor ∈ anchors, ¬anchor.Fits g.size) ∧
      (∀ fault, start g anchors settings = .error fault ↔
        settings.check = .error fault ∨
          settings.check = .ok () ∧ Anchor.FirstMisfit g.size anchors fault) ∧
      ∀ s b, start g anchors settings = .ok s → s.Driven b → InBounds g b := by
  refine ⟨?fails, fun fault => start_eq_error_iff_misfit, ?inBounds⟩
  case fails =>
    simp only [start_eq_error_iff_misfit, exists_or, exists_and_left, Anchor.exists_firstMisfit_iff]
    cases settings.check with
    | error cause => simp
    | ok _ => simp
  case inBounds =>
    intro s b hstart driven
    obtain ⟨-, pins, hpins, rfl⟩ := start_eq_ok hstart
    have hrig := Rig.inBounds_ofFabric reach.wellFormed (Anchor.pin_lt_of_pins hpins) settings
    exact driven.moved.of_tick (fun dt inBounds => inBounds.tick dt)
      (inBounds_atRest hrig (size_seeds g settings))

/-- A disc of four stitches has no stitch 4 to be anchored, and one that is set up without anchors
keeps four places however it moves. -/
theorem start_fails_iff_and_in_bounds_disc :
    ∃ (disc : Fabric) (s : Body), disc.Reachable ∧ disc.size = 4 ∧
      start disc [⟨1, ⟨1.0, 2.0, 3.0⟩⟩, ⟨4, ⟨0.0, 0.0, 0.0⟩⟩] {} = .error (.noSuchNode 4 4) ∧
      start disc [] {} = .ok s ∧ ((s.tick 0.5).run 0.1 3).positions.size = 4 := by
  have hreach := Fabric.Reachable.append ⟨[[.loop], [.single, .increase, .increase]]⟩ .empty
  generalize hdisc : Fabric.worked _ = disc at hreach
  have hsize : disc.size = 4 := by
    rw [← hdisc]
    decide +kernel
  have hfails : start disc [⟨1, ⟨1.0, 2.0, 3.0⟩⟩, ⟨4, ⟨0.0, 0.0, 0.0⟩⟩] {} =
      .error (.noSuchNode 4 4) := by
    have hfirst : Anchor.Fits disc.size ⟨1, ⟨1.0, 2.0, 3.0⟩⟩ := ⟨hsize ▸ by decide, by decide⟩
    have hsecond : Anchor.Misfit disc.size ⟨4, ⟨0.0, 0.0, 0.0⟩⟩ (.noSuchNode 4 4) := by
      rw [hsize]
      exact .noSuchNode (Nat.le_refl 4)
    have hbefore := List.forall_mem_singleton.2 hfirst
    exact ((start_fails_iff_and_in_bounds hreach _ _).2.1 _).2
      (.inr ⟨rfl, [_], _, [], rfl, hbefore, hsecond⟩)
  have hok : (start disc [] {}).isOk = true := by
    rw [← hdisc]
    decide +kernel
  cases hstart : start disc [] {} with
  | error fault =>
    rw [hstart] at hok
    cases hok
  | ok s =>
    have inBounds := (start_fails_iff_and_in_bounds hreach [] {}).2.2 s _ hstart
      ((Driven.still.tick 0.5).run 0.1 3)
    exact ⟨disc, s, hreach, hsize, hfails, hstart, inBounds.positions_size.trans hsize⟩

end Body

end Crochet
