import Crochet.Proofs.Relax.Bounds
import Crochet.Proofs.View

/-!
# Frames match the fabric

Everything in a frame is looked up by the number of a stitch: the corners of the triangles, the
stitches of the outline and those with a label.  So a frame matches its fabric once the body has one
place for every stitch, which it has whatever is done to the view (`Handled.inBounds`), and once the
numbers of the stitches fit the indices.

* `positions_frame`: the places in a frame are those of the stitches, in the order of their numbers.
* `toNat_indices_frame`: the indices are the corners of the triangles.
* `frame_matches`: the whole frame, with its overlays.
-/

namespace Crochet

/-- A body stays in bounds from the start, whatever it is driven by. -/
theorem Body.inBounds_of_start {g : Fabric} (reach : g.Reachable) {anchors : List Anchor}
    {settings : Settings} {s b : Body} (hstart : start g anchors settings = .ok s)
    (driven : s.Driven b) : InBounds g b := by
  obtain ⟨-, pins, hpins, rfl⟩ := start_eq_ok hstart
  have hrig := Rig.inBounds_ofFabric reach.wellFormed (Anchor.pin_lt_of_pins hpins) settings
  exact driven.moved.of_tick (fun dt inBounds => inBounds.tick dt)
    (inBounds_atRest hrig (size_seeds g settings))

namespace View

/-! ## Views in use -/

/-- What becomes of a view by calls and by steps of time of any lengths. -/
inductive Handled (v : View) : View → Prop
  | untouched : Handled v v
  | update {w : View} (handled : Handled v w) (dt : Float) : Handled v (w.update dt)
  | act {w : View} (handled : Handled v w) (call : Call) : Handled v (w.act call)

variable {g : Fabric} {anchors : List Anchor} {settings : Settings} {v w : View}

/-- Whatever is done to a view drives its body, and nothing else about the fabric changes. -/
theorem Handled.driven (handled : v.Handled w) : w.fabric = v.fabric ∧ v.body.Driven w.body := by
  induction handled with
  | untouched => exact ⟨rfl, .still⟩
  | update _ dt ih => exact ⟨ih.1, ih.2.tick dt⟩
  | @act w _ call ih =>
    obtain ⟨hfabric, driven⟩ := ih
    refine ⟨(setup_act w call).1.trans hfabric, ?_⟩
    rw [body_act]
    exact driven.run _ _

theorem start_eq_ok (h : start g anchors settings = .ok v) :
    v.fabric = g ∧ Body.start g anchors settings = .ok v.body := by
  unfold start at h
  split at h
  case h_1 => cases h
  case h_2 s hbody =>
    obtain rfl := Except.ok.inj h
    exact ⟨rfl, hbody⟩

/-- A view has a place for every stitch of its fabric, whatever is done to it. -/
theorem Handled.inBounds (reach : g.Reachable) (hstart : start g anchors settings = .ok v)
    (handled : v.Handled w) : w.fabric = g ∧ w.body.InBounds g := by
  obtain ⟨hview, hbody⟩ := start_eq_ok hstart
  obtain ⟨hfabric, driven⟩ := handled.driven
  exact ⟨hfabric.trans hview, Body.inBounds_of_start reach hbody driven⟩

/-! ## Surfaces -/

section

variable (inBounds : w.body.InBounds g) (overlays : Overlays)

include inBounds

/-- **The places in a frame are those of the stitches.** -/
theorem positions_frame :
    (w.frame overlays).positions =
      (List.range g.size).map fun i => (w.body.position i).toSingle := by
  refine List.ext_getElem? fun i => ?_
  show (w.body.positions.toList.map Vec3.toSingle)[i]? = _
  rw [List.getElem?_map, List.getElem?_map, Array.getElem?_toList]
  by_cases hi : i < g.size
  · rw [List.getElem?_range hi, ← Body.pointAt_eq (inBounds.positions_size ▸ hi)]
    rfl
  · rw [Array.getElem?_eq_none (inBounds.positions_size ▸ Nat.le_of_not_lt hi),
      List.getElem?_eq_none (by simpa using Nat.le_of_not_lt hi)]
    rfl

theorem length_positions_frame : (w.frame overlays).positions.length = g.size := by
  rw [positions_frame inBounds, List.length_map, List.length_range]

theorem getElem?_positions_frame {i : Nat} (hi : i < g.size) :
    (w.frame overlays).positions[i]? = some (w.body.position i).toSingle := by
  rw [positions_frame inBounds, List.getElem?_map, List.getElem?_range hi, Option.map_some]

/-- **The indices are the corners of the triangles**, as long as the numbers of the stitches fit. -/
theorem toNat_indices_frame (hsize : g.size ≤ 2 ^ 32) :
    (w.frame overlays).indices.map UInt32.toNat =
      g.faces.toList.flatMap fun face => [face.a, face.b, face.c] := by
  have hcorner {i : Nat} (hi : i < g.size) : (UInt32.ofNat i).toNat = i :=
    UInt32.toNat_ofNat_of_lt' (Nat.lt_of_lt_of_le hi hsize)
  show (w.body.rig.triangles.flatMap _).map UInt32.toNat = _
  rw [List.map_flatMap, ← inBounds.rig.triangles_eq]
  refine List.flatMap_congr fun face hface => ?_
  obtain ⟨ha, hb, hc⟩ := inBounds.rig.triangle_lt face hface
  simp only [List.map_cons, List.map_nil, hcorner ha, hcorner hb, hcorner hc]

theorem length_indices_frame (hsize : g.size ≤ 2 ^ 32) :
    (w.frame overlays).indices.length = 3 * g.faces.size := by
  have hlength := congrArg List.length (toNat_indices_frame inBounds overlays hsize)
  simpa [List.length_flatMap, List.map_const', Nat.mul_comm] using hlength

/-- No index goes beyond the places. -/
theorem toNat_lt_of_mem_indices_frame (wf : g.WellFormed) (hsize : g.size ≤ 2 ^ 32)
    {index : UInt32} (h : index ∈ (w.frame overlays).indices) : index.toNat < g.size := by
  have hmem := List.mem_map_of_mem (f := UInt32.toNat) h
  rw [toNat_indices_frame inBounds overlays hsize, List.mem_flatMap] at hmem
  obtain ⟨face, hface, hcorner⟩ := hmem
  obtain ⟨-, ha, hb, hc⟩ := wf.face_lt face (Array.mem_toList_iff.1 hface)
  simp only [List.mem_cons, List.not_mem_nil, or_false] at hcorner
  obtain h | h | h := hcorner
  · exact h ▸ ha
  · exact h ▸ hb
  · exact h ▸ hc

/-! ## Overlays -/

/-- The path of the outline goes through the live stitches in order. -/
theorem map_some_outline_frame (wf : g.WellFormed) :
    (g.outline.map fun i => (w.body.position i).toSingle).map some =
      g.outline.map ((w.frame overlays).positions[·]?) := by
  rw [List.map_map]
  refine List.map_congr_left fun i hi => ?_
  exact (getElem?_positions_frame inBounds overlays (wf.outline_lt i hi)).symm

/-- There is one force for each stitch, and it starts where the stitch is. -/
theorem map_fst_forces_frame (factor : Float) :
    ((w.body.positions.toList.zip w.body.forces.toList).map fun (p, force) =>
        (p.toSingle, (p + force.scale factor).toSingle)).map Prod.fst =
      (w.frame overlays).positions := by
  have hlength : w.body.positions.toList.length ≤ w.body.forces.toList.length := by
    rw [Array.length_toList, Array.length_toList, inBounds.positions_size, inBounds.forces_size]
  calc
    _ = ((w.body.positions.toList.zip w.body.forces.toList).map Prod.fst).map Vec3.toSingle := by
      rw [List.map_map, List.map_map]
      rfl
    _ = w.body.positions.toList.map Vec3.toSingle := by rw [List.map_fst_zip hlength]
    _ = (w.frame overlays).positions := rfl

/-- There is one label for each stitch, in the order of their numbers and where the stitch is. -/
theorem map_position_labels_frame (wf : g.WellFormed) :
    (g.nodes.toList.map fun node => (w.body.position node.id).toSingle) =
      (w.frame overlays).positions := by
  rw [positions_frame inBounds, ← wf.map_id_nodes, List.map_map]
  rfl

end

@[simp] theorem isSome_overlay {α : Type} (wanted : Bool) (content : α) :
    (overlay wanted content).isSome = wanted := by
  cases wanted <;> rfl

theorem eq_of_overlay_eq_some {α : Type} {wanted : Bool} {content shown : α}
    (h : overlay wanted content = some shown) : content = shown := by
  cases wanted with
  | false => cases h
  | true => exact Option.some.inj h

/-- **A frame matches the fabric**, whatever has been done to the view.  It has a place and a normal
for each stitch, and three indices for each triangle, the corners in order, none of them beyond the
places.  An overlay is there exactly if it is wanted.  The outline goes through the live stitches in
order, there is a force from each stitch, and a label at each one in the order of their numbers. -/
theorem frame_matches (reach : g.Reachable) (hsize : g.size ≤ 2 ^ 32)
    (hstart : start g anchors settings = .ok v) (handled : v.Handled w) (overlays : Overlays) :
    let frame := w.frame overlays
    w.fabric = g ∧ frame.positions.length = g.size ∧ frame.normals.length = g.size ∧
    (frame.positions = (List.range g.size).map fun i => (w.body.position i).toSingle) ∧
    (frame.indices.map UInt32.toNat = g.faces.toList.flatMap fun face => [face.a, face.b, face.c]) ∧
    frame.indices.length = 3 * g.faces.size ∧ frame.triangleCount = g.faces.size ∧
    (∀ index ∈ frame.indices, index.toNat < frame.positions.length) ∧
    frame.outline?.isSome = overlays.outline ∧ frame.forces?.isSome = overlays.forces ∧
    frame.labels?.isSome = overlays.labels ∧
    (∀ path, frame.outline? = some path →
      path.map some = g.outline.map (frame.positions[·]?)) ∧
    (∀ segments, frame.forces? = some segments → segments.map Prod.fst = frame.positions) ∧
    ∀ labels, frame.labels? = some labels →
      labels.map Label.node = List.range g.size ∧ labels.map Label.position = frame.positions := by
  intro frame
  have wf := reach.wellFormed
  obtain ⟨hfabric, inBounds⟩ := handled.inBounds reach hstart
  have hplaces := length_positions_frame inBounds overlays
  have hlength := length_indices_frame inBounds overlays hsize
  refine ⟨hfabric, hplaces, ?normals, positions_frame inBounds overlays,
    toNat_indices_frame inBounds overlays hsize, hlength, ?count, ?below, isSome_overlay _ _,
    isSome_overlay _ _, isSome_overlay _ _, fun path hpath => ?outline,
    fun segments hsegments => ?forces, fun labels hlabels => ?labels⟩
  case normals =>
    show (w.body.normals.toList.map Vec3.toSingle).length = g.size
    rw [List.length_map, Array.length_toList, inBounds.normals_size]
  case count =>
    show frame.indices.length / 3 = g.faces.size
    rw [hlength, Nat.mul_div_cancel_left _ (by decide)]
  case below =>
    intro index hindex
    exact hplaces ▸ toNat_lt_of_mem_indices_frame inBounds overlays wf hsize hindex
  case outline =>
    obtain rfl := eq_of_overlay_eq_some hpath
    rw [hfabric]
    exact map_some_outline_frame inBounds overlays wf
  case forces =>
    obtain rfl := eq_of_overlay_eq_some hsegments
    exact map_fst_forces_frame inBounds overlays _
  case labels =>
    obtain rfl := eq_of_overlay_eq_some hlabels
    rw [hfabric, List.map_map, List.map_map]
    exact ⟨wf.map_id_nodes, map_position_labels_frame inBounds overlays wf⟩

/-- A disc of four stitches that was moved, given time and paused: two triangles, an outline through
the three stitches of the round, and four labels. -/
theorem frame_matches_disc :
    ∃ (disc : Fabric) (v : View), disc.Reachable ∧ disc.size = 4 ∧ start disc [] {} = .ok v ∧
      let w := ((v.update 0.5).act (.advance 20000000)).act .pause
      let frame := w.frame { outline := true, labels := true }
      frame.positions.length = 4 ∧ frame.indices.length = 6 ∧ frame.triangleCount = 2 ∧
      frame.forces? = none ∧
      (∃ path, frame.outline? = some path ∧ path.map some = [1, 2, 3].map (frame.positions[·]?)) ∧
      ∃ labels, frame.labels? = some labels ∧ labels.map Label.node = [0, 1, 2, 3] := by
  have hreach := Fabric.Reachable.append ⟨[[.loop], [.single, .increase, .increase]]⟩ .empty
  generalize hdisc : Fabric.worked _ = disc at hreach
  have hsize : disc.size = 4 ∧ disc.faces.size = 2 ∧ disc.outline = [1, 2, 3] := by
    rw [← hdisc]
    decide +kernel
  obtain ⟨hsize, hfaces, houtline⟩ := hsize
  have hok : (start disc [] {}).isOk = true := by
    rw [← hdisc]
    decide +kernel
  cases hstart : start disc [] {} with
  | error fault =>
    rw [hstart] at hok
    cases hok
  | ok v =>
    obtain ⟨-, hplaces, -, -, -, hindices, hcount, -, hpath, hsegments, hmarks, outline, -,
        labels⟩ :=
      frame_matches hreach (hsize ▸ by decide) hstart
        (((Handled.untouched.update 0.5).act (.advance 20000000)).act .pause)
        { outline := true, labels := true }
    obtain ⟨path, hpath⟩ := Option.isSome_iff_exists.1 hpath
    obtain ⟨marks, hmarks⟩ := Option.isSome_iff_exists.1 hmarks
    rw [hsize] at hplaces
    rw [hfaces] at hindices hcount
    refine ⟨disc, v, hreach, hsize, hstart, hplaces, hindices, hcount,
      Option.isNone_iff_eq_none.1 (by simpa using hsegments), ⟨path, hpath, ?_⟩, marks, hmarks, ?_⟩
    · rw [outline path hpath, houtline]
    · rw [(labels marks hmarks).1, hsize]
      rfl

end View

end Crochet
