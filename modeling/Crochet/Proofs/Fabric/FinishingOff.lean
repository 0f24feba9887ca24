import Crochet.Proofs.Fabric.MeshSize
import Mathlib.Data.Nat.PSub

/-!
# Finishing off

Finishing off sews the live stitches together in pairs, the first to the last and so on inwards.
No stitch is live twice, so no pair is lost as a stitch sewn to itself, and every live stitch ends
up in one joint, but for the one in the middle of an odd number (`finishOff_pairs`).

* `sewInwards_eq`: `Fabric.workFinish` pairs the live stitches with themselves in reverse.
  `finishInwards` works with two fingers, one at either end, that move inwards until they meet.
  Neither ever leaves the stitches, and the joints are the same.
* `countP_endPairs`: in how many pairs a stitch is.
-/

namespace Crochet

namespace Fabric

/-! ## Two fingers -/

/-- Sews with a finger at `front` and one at `back`, which move inwards until they meet.  Fails
where a finger is not on a stitch or would have to move below the first. -/
def sewInwards (live : List Nat) (front back : Nat) (g : Fabric) : Option Fabric :=
  if front < back then
    match live[front]?, live[back]?, hinner : back.ppred with
    | some source, some target, some inner =>
      sewInwards live (front + 1) inner (g.addJoint source target)
    | _, _, _ => none
  else some g
termination_by back - front
decreasing_by
  have := Nat.ppred_eq_some.1 hinner
  omega

/-- Finishes off with two fingers.  Where nothing is live there is nothing to put them on. -/
def finishInwards (g : Fabric) : Option Fabric :=
  let bare := { g with outline := [], consumed := g.consumed + g.outline.length }
  let sewn? :=
    match g.outline.length.ppred with
    | none => some bare
    | some back => sewInwards g.outline 0 back bare
  sewn?.map fun h => { h with cursor := { h.cursor with anchorSpent := true, ringWorked := false } }

/-- The pairs are the stitches at the same distance from either end. -/
theorem getElem?_endPairs {live : List Nat} {k : Nat} (hk : k < live.length / 2) :
    (endPairs live)[k]? = some (live[k], live[live.length - 1 - k]) := by
  rw [List.getElem?_eq_getElem (by rwa [length_endPairs])]
  simp only [endPairs, List.getElem_take, List.getElem_zip, List.getElem_reverse]

/-- The next pair further in. -/
theorem drop_endPairs {live : List Nat} {k : Nat} (hk : k < live.length / 2) :
    (endPairs live).drop k =
      (live[k], live[live.length - 1 - k]) :: (endPairs live).drop (k + 1) := by
  have hlt : k < (endPairs live).length := by rwa [length_endPairs]
  have hpair := getElem?_endPairs hk
  rw [List.getElem?_eq_getElem hlt, Option.some.injEq] at hpair
  rw [List.drop_eq_getElem_cons hlt, hpair]

/-- Fingers at the same distance from either end sew the pairs from there on inwards. -/
theorem sewInwards_eq (live : List Nat) (front back : Nat) (g : Fabric)
    (h : front + back + 1 = live.length) :
    sewInwards live front back g =
      some (((endPairs live).drop front).foldl (fun h pair => h.addJoint pair.1 pair.2) g) := by
  fun_induction sewInwards live front back g with
  | case1 front back g hlt source target inner hinner htarget hsource ih =>
    have hback : inner + 1 = back := Nat.ppred_eq_some.1 hinner
    have houter : front < live.length / 2 := by omega
    have hmirror : live.length - 1 - front = back := by omega
    have hfirst : live[front] = source := (List.getElem?_eq_some_iff.1 hsource).2
    have hlast : live[live.length - 1 - front] = target := by
      obtain ⟨hlt', rfl⟩ := List.getElem?_eq_some_iff.1 htarget
      simp only [hmirror]
    rw [ih (by omega), drop_endPairs houter, List.foldl_cons, hfirst, hlast]
  | case2 front back g hlt hoff =>
    -- Both fingers are on stitches, and the one behind is not on the first.
    have hsource : live[front]? = some live[front] := List.getElem?_eq_getElem (by omega)
    have htarget : live[back]? = some live[back] := List.getElem?_eq_getElem (by omega)
    have hinner : back.ppred = some (back - 1) := Nat.ppred_eq_some.2 (by omega)
    exact (hoff _ _ _ hsource htarget hinner).elim
  | case3 front back g hmet =>
    have hnone : (endPairs live).length ≤ front := by
      rw [length_endPairs]
      omega
    rw [List.drop_eq_nil_of_le hnone, List.foldl_nil]

/-- **Two fingers finish off as `workFinish` does, and never leave the stitches.** -/
theorem finishInwards_eq (g : Fabric) : g.finishInwards = some g.workFinish := by
  cases hlive : g.outline with
  | nil => simp [finishInwards, workFinish, hlive, endPairs, Nat.ppred]
  | cons first rest =>
    have hlength : g.outline.length = rest.length + 1 := by rw [hlive, List.length_cons]
    have hback : g.outline.length.ppred = some rest.length := Nat.ppred_eq_some.2 hlength.symm
    have hsewn := sewInwards_eq g.outline 0 rest.length
      { g with outline := [], consumed := g.consumed + g.outline.length } (by omega)
    simp only [finishInwards, hback, hsewn, List.drop_zero, Option.map_some, workFinish,
      foldl_addJoint]

/-! ## The pairs of a stitch -/

theorem map_fst_endPairs (live : List Nat) :
    (endPairs live).map Prod.fst = live.take (live.length / 2) := by
  rw [endPairs, List.map_take, List.map_fst_zip (by simp)]

theorem map_snd_endPairs (live : List Nat) :
    (endPairs live).map Prod.snd =
      (live.drop (live.length - live.length / 2)).reverse := by
  rw [endPairs, List.map_take, List.map_snd_zip (by simp), List.take_reverse]

/-- A number is in as many pairs as it occurs first in and second in, if no pair holds it twice. -/
theorem countP_pairs {pairs : List (Nat × Nat)} (apart : ∀ pair ∈ pairs, pair.1 ≠ pair.2)
    (id : Nat) :
    pairs.countP (fun pair => pair.1 = id ∨ pair.2 = id) =
      (pairs.map Prod.fst).count id + (pairs.map Prod.snd).count id := by
  induction pairs with
  | nil => rfl
  | cons pair rest ih =>
    obtain ⟨hpair, hrest⟩ := List.forall_mem_cons.1 apart
    rw [List.countP_cons, ih hrest, List.map_cons, List.map_cons, List.count_cons, List.count_cons]
    by_cases hfirst : pair.1 = id
    · have hsecond : pair.2 ≠ id := fun h => hpair (hfirst.trans h.symm)
      simp [hfirst, hsecond, Nat.add_right_comm]
    · simp [hfirst, Nat.add_assoc]

/-- Where no number occurs twice, one occurs among the first ones if its place is among theirs. -/
theorem count_take {live : List Nat} (nodup : live.Nodup) {k : Nat} (hk : k < live.length)
    (count : Nat) : (live.take count).count live[k] = if k < count then 1 else 0 := by
  have hmem : live[k] ∈ live.take count ↔ k < count := by
    rw [List.mem_take_iff_getElem]
    constructor
    · rintro ⟨i, hi, hsame⟩
      have hik : i = k := (nodup.getElem_inj_iff).1 hsame
      omega
    · intro hlt
      exact ⟨k, by omega, rfl⟩
  simp only [(nodup.sublist (List.take_sublist count live)).count, hmem]

theorem count_drop {live : List Nat} (nodup : live.Nodup) {k : Nat} (hk : k < live.length)
    (count : Nat) : (live.drop count).count live[k] = if k < count then 0 else 1 := by
  have hall : live.count live[k] = 1 := List.count_eq_one_of_mem nodup (List.getElem_mem hk)
  have hsplit := congrArg (List.count live[k]) (List.take_append_drop count live)
  rw [List.count_append, count_take nodup hk, hall] at hsplit
  split at hsplit
  case isTrue hlt =>
    rw [if_pos hlt]
    omega
  case isFalse hle =>
    rw [if_neg hle]
    omega

/-- **Every stitch is in one pair, but for the one in the middle.** -/
theorem countP_endPairs {live : List Nat} (nodup : live.Nodup) {k : Nat} (hk : k < live.length) :
    (endPairs live).countP (fun pair => pair.1 = live[k] ∨ pair.2 = live[k]) =
      if 2 * k + 1 = live.length then 0 else 1 := by
  rw [countP_pairs fun pair => ne_of_mem_endPairs nodup, map_fst_endPairs, map_snd_endPairs,
    List.count_reverse, count_take nodup hk, count_drop nodup hk]
  split <;> split <;> split <;> omega

/-! ## Joints -/

/-- **Finishing off pairs the live stitches from both ends.**  The first is sewn to the last, the
second to the last but one, and so on, two fingers never leaving the stitches.  Every live stitch is
then in one new joint, but for the one in the middle of an odd number, and none is sewn to itself.
All of them are worked into and none is live any more; nodes, edges and faces stay as they are. -/
theorem finishOff_pairs {g : Fabric} (reach : g.Reachable) :
    ∃ (h : Fabric) (sewn : List Joint),
      g.apply .finishOff = .ok h ∧ g.finishInwards = some h ∧
      h.joints.toList = g.joints.toList ++ sewn ∧
      sewn.length = g.outline.length / 2 ∧
      (∀ k (_ : k < g.outline.length / 2),
        sewn[k]? = some ⟨g.outline[k], g.outline[g.outline.length - 1 - k]⟩) ∧
      (∀ k (_ : k < g.outline.length),
        sewn.countP (fun joint => joint.source = g.outline[k] ∨ joint.target = g.outline[k]) =
          if 2 * k + 1 = g.outline.length then 0 else 1) ∧
      (∀ joint ∈ sewn, joint.source ≠ joint.target) ∧
      h.outline = [] ∧ h.consumed = g.consumed + g.outline.length ∧
      h.nodes = g.nodes ∧ h.edges = g.edges ∧ h.faces = g.faces := by
  have nodup : g.outline.Nodup := reach.wellFormed.outline_ascending.imp Nat.ne_of_lt
  refine ⟨g.workFinish, (endPairs g.outline).map fun pair => ⟨pair.1, pair.2⟩, rfl,
    finishInwards_eq g, ?joints, ?length, fun k hk => ?pair, fun k hk => ?once, ?apart, ?rest⟩
  case joints => rw [joints_workFinish nodup, Array.toList_append]
  case length => rw [List.length_map, length_endPairs]
  case pair => rw [List.getElem?_map, getElem?_endPairs hk, Option.map_some]
  case once =>
    rw [List.countP_map]
    exact countP_endPairs nodup hk
  case apart =>
    intro joint hmem
    obtain ⟨pair, hpair, rfl⟩ := List.mem_map.1 hmem
    exact ne_of_mem_endPairs nodup hpair
  case rest =>
    rw [workFinish_eq]
    exact ⟨rfl, rfl, rfl, rfl, rfl⟩

/-- Of five live stitches the one in the middle stays alone. -/
theorem finishOff_pairs_five :
    ∃ g h : Fabric, g.Reachable ∧ g.outline = [1, 2, 3, 4, 5] ∧ g.apply .finishOff = .ok h ∧
      g.finishInwards = some h ∧ h.joints.toList = g.joints.toList ++ [⟨1, 5⟩, ⟨2, 4⟩] ∧
      h.outline = [] ∧ h.consumed = g.consumed + 5 := by
  have hreach := Reachable.append
    ⟨[[.loop], [.single, .increase, .increase, .increase, .increase]]⟩ .empty
  generalize hg : worked _ = g at hreach
  have hout : g.outline = [1, 2, 3, 4, 5] := by
    rw [← hg]
    decide +kernel
  obtain ⟨h, sewn, happly, hfingers, hjoints, hlength, hpair, -, -, hlive, hconsumed, -⟩ :=
    finishOff_pairs hreach
  have hsewn : sewn = [⟨1, 5⟩, ⟨2, 4⟩] := by
    have hfirst := hpair 0
    have hsecond := hpair 1
    simp only [hout] at hlength hfirst hsecond
    refine List.ext_getElem? fun k => ?_
    match k with
    | 0 => exact hfirst (by decide)
    | 1 => exact hsecond (by decide)
    | k + 2 => rw [List.getElem?_eq_none (by simp [hlength]), List.getElem?_eq_none (by simp)]
  refine ⟨g, h, hreach, hout, happly, hfingers, hsewn ▸ hjoints, hlive, ?_⟩
  rw [hconsumed, hout]
  rfl

end Fabric

end Crochet
