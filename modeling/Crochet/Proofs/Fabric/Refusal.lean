import Crochet.Proofs.Fabric.Counting
import Crochet.Proofs.Fabric.WellFormed

/-!
# When an instruction is refused

An instruction is refused if it needs live stitches that are not there, or if it names a node that
does not exist; `Refuses` lists the causes, and `apply_eq_error_iff` shows that there are no others.

`Fabric.apply` makes a new fabric, and so cannot spoil the old one.  `perform` works in place: it
counts the stitches that it needs beforehand, takes them one by one, and changes the fabric as it
goes along.  A ring anywhere in the outline counts as many stitches, though only the front of the
outline is ever taken, and a decrease counts once and takes twice.  Still no stitch is taken from an
empty outline, and where the work is refused the fabric is as it was (`run_perform`).
-/

namespace Crochet

namespace Fabric

variable {g h : Fabric}

/-! ## Causes of a refusal -/

/-- Whether there are fewer than `count` live stitches, none of them a ring, which never runs
out. -/
def Lacks (g : Fabric) (count : Nat) : Prop :=
  g.outline.length < count ∧ ∀ id ∈ g.outline, g.isRing id = false

instance (g : Fabric) (count : Nat) : Decidable (g.Lacks count) :=
  inferInstanceAs (Decidable (_ ∧ _))

/-- The instructions that cannot be worked on a fabric, with the fault that says why. -/
inductive Refuses (g : Fabric) : Instruction → Fault → Prop
  | single (nothing : g.outline = []) :
      Refuses g .single (.tooFewStitches .single 1 g.outline.length)
  | increase (nothing : g.outline = [])
      (moves : g.cursor.anchor? = none ∨ g.cursor.anchorSpent = true) :
      Refuses g .increase (.tooFewStitches .increase 1 g.outline.length)
  | decrease (few : g.outline.length < 2) (noRing : ∀ id ∈ g.outline, g.isRing id = false) :
      Refuses g .decrease (.tooFewStitches .decrease 2 g.outline.length)
  | slip (few : g.outline.length < 2) :
      Refuses g .slip (.tooFewStitches .slip 2 g.outline.length)
  | joinNode {node other : Nat} (beyond : g.size ≤ node) :
      Refuses g (.join node other) (.noSuchNode node g.size)
  | joinOther {node other : Nat} (exist : node < g.size) (beyond : g.size ≤ other) :
      Refuses g (.join node other) (.noSuchNode other g.size)

theorem take?_eq_none_iff : g.take? = none ↔ g.outline = [] := by
  unfold take?
  cases g.outline with
  | nil => simp
  | cons front rest =>
    by_cases hring : g.isRing front = true
    · simp [hring]
    · simp [hring]

theorem lacks_one_iff : g.Lacks 1 ↔ g.outline = [] := by
  constructor
  · rintro ⟨hfew, -⟩
    exact List.eq_nil_of_length_eq_zero (by omega)
  · intro hout
    simp [Lacks, hout]

/-- Two stitches can be taken one after the other exactly if there are two live stitches or a
ring. -/
theorem lacks_two_iff :
    g.Lacks 2 ↔ ∀ middle once, g.take? = some (middle, once) → once.take? = none := by
  constructor
  · rintro ⟨hfew, hnone⟩ middle once htake
    obtain ⟨hhead, hcases⟩ := take?_eq_some htake
    obtain ⟨rest, hout⟩ := List.head?_eq_some_iff.1 hhead
    have hring := hnone middle (List.mem_of_head? hhead)
    rcases hcases with ⟨hring', -⟩ | ⟨-, rfl⟩
    · simp [hring] at hring'
    · rw [hout, List.length_cons] at hfew
      have hrest : rest = [] := List.eq_nil_of_length_eq_zero (by omega)
      rw [take?_eq_none_iff, takeFront, hout, List.tail_cons, hrest]
  · intro hnone
    cases hout : g.outline with
    | nil => simp [Lacks, hout]
    | cons front rest =>
      by_cases hring : g.isRing front = true
      · have hsecond := hnone _ _ (take?_of_ring hout hring)
        have hout' : g.takeRing.outline = front :: rest := hout
        rw [take?_eq_none_iff, hout'] at hsecond
        simp at hsecond
      · have hfront : g.isRing front = false := by simpa using hring
        have hsecond := hnone _ _ (take?_of_not_ring hout hfront)
        have hrest : rest = [] := take?_eq_none_iff.1 hsecond
        simp [Lacks, hout, hrest, hfront]

theorem workNext_eq_error_iff {stitch : Stitch} {fault : Fault} :
    g.workNext stitch = .error fault ↔ g.outline = [] ∧ g.tooFew stitch 1 = fault := by
  rw [← take?_eq_none_iff, workNext]
  cases g.take? with
  | none => simp
  | some front => simp

theorem workDecrease_eq_error_iff {fault : Fault} :
    g.workDecrease = .error fault ↔ g.Lacks 2 ∧ g.tooFew .decrease 2 = fault := by
  rw [lacks_two_iff, workDecrease]
  cases hfirst : g.take? with
  | none => simp
  | some front =>
    obtain ⟨middle, once⟩ := front
    cases hsecond : once.take? with
    | none => simp [hsecond]
    | some next => simp [hsecond]

theorem workIncrease_eq_error_iff {fault : Fault} :
    g.workIncrease = .error fault ↔
      (g.outline = [] ∧ g.MovesOn) ∧ g.tooFew .increase 1 = fault := by
  by_cases moves : g.MovesOn
  · rw [workIncrease_of_movesOn moves, workNext_eq_error_iff]
    simp [moves]
  · obtain ⟨anchor, hshare⟩ := workIncrease_of_not_movesOn moves
    simp [hshare, moves]

/-- The oldest live stitch is the newest exactly if there are no two. -/
theorem workSlip_eq_error_iff (wf : g.WellFormed) {fault : Fault} :
    g.workSlip = .error fault ↔ g.outline.length < 2 ∧ g.tooFew .slip 2 = fault := by
  unfold workSlip
  match hout : g.outline with
  | [] => simp
  | [only] => simp
  | oldest :: second :: rest =>
    have hlast : (second :: rest).getLast? = some ((second :: rest).getLast (by simp)) :=
      List.getLast?_eq_some_getLast (by simp)
    have hsorted := wf.outline_ascending
    rw [hout, List.pairwise_cons] at hsorted
    have hapart := Nat.ne_of_gt (hsorted.1 _ (List.mem_of_getLast? hlast))
    have hmany : ¬(oldest :: second :: rest).length < 2 := by
      rw [List.length_cons, List.length_cons]
      omega
    rw [List.getLast?_cons_cons, hlast]
    simp only [List.head?_cons, if_neg hapart, reduceCtorEq, hmany, false_and]

theorem workJoin_eq_error_iff {node other : Nat} {fault : Fault} :
    g.workJoin node other = .error fault ↔
      (g.size ≤ node ∧ Fault.noSuchNode node g.size = fault) ∨
        node < g.size ∧ g.size ≤ other ∧ Fault.noSuchNode other g.size = fault := by
  unfold workJoin checkNode
  by_cases hnode : node < g.size
  · by_cases hother : other < g.size
    · simp [hnode, hother, Nat.not_le_of_lt]
    · simp [hnode, hother, Nat.not_le_of_lt, Nat.le_of_not_lt]
  · simp [hnode, Nat.le_of_not_lt]

/-- **The list of causes is complete.** -/
theorem apply_eq_error_iff (wf : g.WellFormed) {i : Instruction} {fault : Fault} :
    g.apply i = .error fault ↔ g.Refuses i fault := by
  constructor
  · intro happly
    cases i with
    | loop | chain | magicRing | finishOff => cases happly
    | single =>
      obtain ⟨hout, rfl⟩ := workNext_eq_error_iff.1 happly
      exact .single hout
    | increase =>
      obtain ⟨⟨hout, moves⟩, rfl⟩ := workIncrease_eq_error_iff.1 happly
      exact .increase hout moves
    | decrease =>
      obtain ⟨⟨hfew, hnone⟩, rfl⟩ := workDecrease_eq_error_iff.1 happly
      exact .decrease hfew hnone
    | slip =>
      obtain ⟨hfew, rfl⟩ := (workSlip_eq_error_iff wf).1 happly
      exact .slip hfew
    | join node other =>
      obtain ⟨hnode, rfl⟩ | ⟨hnode, hother, rfl⟩ := workJoin_eq_error_iff.1 happly
      · exact .joinNode hnode
      · exact .joinOther hnode hother
  · intro refuses
    cases refuses with
    | single hout => exact workNext_eq_error_iff.2 ⟨hout, rfl⟩
    | increase hout moves => exact workIncrease_eq_error_iff.2 ⟨⟨hout, moves⟩, rfl⟩
    | decrease hfew hnone => exact workDecrease_eq_error_iff.2 ⟨⟨hfew, hnone⟩, rfl⟩
    | slip hfew => exact (workSlip_eq_error_iff wf).2 ⟨hfew, rfl⟩
    | joinNode hnode => exact workJoin_eq_error_iff.2 (Or.inl ⟨hnode, rfl⟩)
    | joinOther hnode hother => exact workJoin_eq_error_iff.2 (Or.inr ⟨hnode, hother, rfl⟩)

/-! ## Working in place -/

/-- What stops work in place. -/
inductive Stop where
  | fault (fault : Fault)
  /-- A stitch is taken from an empty outline. -/
  | emptyOutline

/-- Work that changes a fabric in place.  Where it stops, the fabric is left with the changes made
up to there. -/
abbrev InPlace := ExceptT Stop (StateM Fabric)

/-- How many stitches there are to take, or none if there is a ring and so no limit. -/
def available? (g : Fabric) : Option Nat :=
  if g.outline.any g.isRing then none else some g.outline.length

/-- Stops if there are too few stitches to take. -/
def require (stitch : Stitch) (required : Nat) : InPlace Unit := do
  match (← get).available? with
  | none => pure ()
  | some available =>
    if available < required then throw (.fault (.tooFewStitches stitch required available))

/-- Takes the stitch at the front of the outline. -/
def takeNext : InPlace Nat := do
  match (← get).outline with
  | [] => throw .emptyOutline
  | front :: rest =>
    modify fun g => { g with consumed := g.consumed + 1 }
    if (← get).isRing front then
      modify fun g => { g with cursor := { g.cursor with ringWorked := true } }
    else
      modify fun g => { g with outline := rest }
    return front

/-- A stitch into the next live stitch. -/
def performNext (stitch : Stitch) : InPlace Unit := do
  require stitch 1
  let under ← takeNext
  let g ← get
  let anchor := g.cursor.anchor?.getD under
  modify fun h => h.pushNode stitch g.newest under
  modify fun h => h.addEdge g.size g.newest 1
  modify fun h => h.addEdge g.size under 1
  modify fun h => h.addEdge g.size anchor 1
  modify fun h => h.addFace g.size g.newest anchor
  modify fun h => h.addFace g.size anchor under
  modify fun h => h.finishStitch g.size under

/-- An increase, which only has to take a stitch if it moves on. -/
def performIncrease : InPlace Unit := do
  let g ← get
  match g.cursor.anchor?, g.cursor.anchorSpent with
  | some anchor, false =>
    if g.isRing anchor then
      modify fun h => { h with cursor := { h.cursor with ringWorked := true } }
    modify fun h => h.pushNode .increase g.newest anchor
    modify fun h => h.addEdge g.size g.newest 1
    modify fun h => h.addEdge g.size anchor 1
    modify fun h => h.addFace g.size g.newest anchor
    modify fun h => h.finishStitch g.size anchor
  | _, _ => performNext .increase

/-- A stitch over the next two live stitches, which are counted once and taken one by one. -/
def performDecrease : InPlace Unit := do
  require .decrease 2
  let middle ← takeNext
  let under ← takeNext
  let g ← get
  let anchor := g.cursor.anchor?.getD middle
  modify fun h => h.pushNode .decrease g.newest under
  modify fun h => h.addEdge g.size g.newest 1
  modify fun h => h.addEdge g.size anchor 1
  modify fun h => h.addEdge g.size middle 1
  modify fun h => h.addEdge g.size under 1
  modify fun h => h.addFace g.size g.newest anchor
  modify fun h => h.addFace g.size anchor middle
  modify fun h => h.addFace g.size middle under
  modify fun h => h.finishStitch g.size under

/-- A seam between the newest and the oldest live stitch. -/
def performSlip : InPlace Unit := do
  let g ← get
  match g.outline.getLast?, g.outline.head? with
  | some newest, some oldest =>
    if newest = oldest then throw (.fault (.tooFewStitches .slip 2 g.outline.length))
    modify fun h => h.addEdge newest oldest 0
  | _, _ => throw (.fault (.tooFewStitches .slip 2 g.outline.length))

/-- Stops if there is no node with a number. -/
def requireNode (id : Nat) : InPlace Nat := do
  match (← get).checkNode id with
  | .error fault => throw (.fault fault)
  | .ok id => return id

/-- An instruction worked in place. -/
def perform : Instruction → InPlace Unit
  | .loop => modify workLoop
  | .chain => pure ()
  | .single => performNext .single
  | .increase => performIncrease
  | .decrease => performDecrease
  | .magicRing => modify fun g => { g with cursor := { g.cursor with anchorSpent := false } }
  | .slip => performSlip
  | .join node other => do
    let node ← requireNode node
    let other ← requireNode other
    modify fun g => g.addJoint node other
  | .finishOff => modify workFinish

section Run

variable {α : Type}

theorem run_get_bind (rest : Fabric → InPlace α) :
    (get >>= rest).run.run g = (rest g).run.run g :=
  rfl

theorem run_modify_bind (change : Fabric → Fabric) (rest : Unit → InPlace α) :
    (modify change >>= rest).run.run g = (rest ()).run.run (change g) :=
  rfl

theorem run_modify (change : Fabric → Fabric) :
    (modify change : InPlace Unit).run.run g = (.ok (), change g) :=
  rfl

/-- What is counted beforehand is whether stitches are lacking. -/
theorem run_require_bind (stitch : Stitch) (required : Nat) (rest : Unit → InPlace α) :
    (require stitch required >>= rest).run.run g =
      if g.Lacks required then (.error (.fault (g.tooFew stitch required)), g)
      else (rest ()).run.run g := by
  by_cases hring : g.outline.any g.isRing = true
  · have hlimit : g.available? = none := by simp [available?, hring]
    have hplenty : ¬g.Lacks required := by
      rintro ⟨-, hnone⟩
      obtain ⟨id, hid, hid'⟩ := List.any_eq_true.1 hring
      simp [hnone id hid] at hid'
    rw [if_neg hplenty, require, bind_assoc, run_get_bind]
    simp only [hlimit]
    rfl
  · have hlimit : g.available? = some g.outline.length := by simp [available?, hring]
    have hnone : ∀ id ∈ g.outline, g.isRing id = false := by simpa using hring
    rw [require, bind_assoc, run_get_bind]
    simp only [hlimit]
    by_cases hfew : g.outline.length < required
    · have hlacks : g.Lacks required := ⟨hfew, hnone⟩
      rw [if_pos hlacks, if_pos hfew]
      rfl
    · have hplenty : ¬g.Lacks required := fun hlacks => hfew hlacks.1
      rw [if_neg hplenty, if_neg hfew]
      rfl

/-- Taking in place is taking, and stops only where nothing is live. -/
theorem run_takeNext_bind (rest : Nat → InPlace α) :
    (takeNext >>= rest).run.run g =
      match g.take? with
      | none => (.error .emptyOutline, g)
      | some (front, h) => (rest front).run.run h := by
  rw [takeNext, bind_assoc, run_get_bind, take?]
  cases hout : g.outline with
  | nil => rfl
  | cons front others =>
    simp only [bind_assoc, run_modify_bind, run_get_bind]
    have hkind : ({ g with consumed := g.consumed + 1 } : Fabric).isRing front = g.isRing front :=
      rfl
    rw [hkind]
    by_cases hring : g.isRing front = true
    · simp only [if_pos hring]
      rw [← hout]
      rfl
    · simp only [if_neg hring]
      rfl

theorem run_performNext (stitch : Stitch) :
    (performNext stitch).run.run g =
      match g.workNext stitch with
      | .error fault => (.error (.fault fault), g)
      | .ok h => (.ok (), h) := by
  rw [performNext, run_require_bind, workNext]
  simp only [lacks_one_iff, ← take?_eq_none_iff]
  cases htake : g.take? with
  | none => rfl
  | some front =>
    simp only [run_takeNext_bind, htake, run_get_bind, run_modify_bind, run_modify]
    rfl

theorem run_performIncrease :
    performIncrease.run.run g =
      match g.workIncrease with
      | .error fault => (.error (.fault fault), g)
      | .ok h => (.ok (), h) := by
  rw [performIncrease, run_get_bind, workIncrease]
  cases hanchor : g.cursor.anchor? with
  | none => exact run_performNext .increase
  | some anchor =>
    cases hspent : g.cursor.anchorSpent with
    | true => exact run_performNext .increase
    | false =>
      by_cases hring : g.isRing anchor = true
      · simp only [workAnchor, if_pos hring]
        rfl
      · simp only [workAnchor, if_neg hring]
        rfl

/-- Where two stitches are not lacking, both of them are there to be taken. -/
theorem run_performDecrease :
    performDecrease.run.run g =
      match g.workDecrease with
      | .error fault => (.error (.fault fault), g)
      | .ok h => (.ok (), h) := by
  rw [performDecrease, run_require_bind]
  by_cases hlacks : g.Lacks 2
  · rw [if_pos hlacks, workDecrease_eq_error_iff.2 ⟨hlacks, rfl⟩]
  · rw [if_neg hlacks, run_takeNext_bind, workDecrease]
    have hboth : ∃ middle once, g.take? = some (middle, once) ∧ once.take? ≠ none := by
      simpa [lacks_two_iff] using hlacks
    obtain ⟨middle, once, hfirst, hnext⟩ := hboth
    obtain ⟨⟨under, twice⟩, hsecond⟩ := Option.ne_none_iff_exists'.1 hnext
    simp only [hfirst, hsecond, run_takeNext_bind, run_get_bind, run_modify_bind, run_modify]

theorem run_performSlip :
    performSlip.run.run g =
      match g.workSlip with
      | .error fault => (.error (.fault fault), g)
      | .ok h => (.ok (), h) := by
  rw [performSlip, run_get_bind, workSlip]
  cases hlast : g.outline.getLast? with
  | none => rfl
  | some newest =>
    cases hfirst : g.outline.head? with
    | none => rfl
    | some oldest =>
      by_cases hsame : newest = oldest
      · simp only [if_pos hsame]
        rfl
      · simp only [if_neg hsame]
        rfl

/-- **Work in place that is refused changes nothing, and never finds the outline empty.**  Any other
work in place makes the fabric that the instruction makes. -/
theorem run_perform (i : Instruction) (g : Fabric) :
    (perform i).run.run g =
      match g.apply i with
      | .error fault => (.error (.fault fault), g)
      | .ok h => (.ok (), h) := by
  cases i with
  | loop | chain | magicRing | finishOff => rfl
  | single => exact run_performNext .single
  | increase => exact run_performIncrease
  | decrease => exact run_performDecrease
  | slip => exact run_performSlip
  | join node other =>
    simp only [perform, requireNode, apply, workJoin, bind_assoc, run_get_bind]
    cases hnode : g.checkNode node with
    | error fault => rfl
    | ok node =>
      simp only [pure_bind, run_get_bind]
      cases hother : g.checkNode other with
      | error fault => rfl
      | ok other => rfl

end Run

/-! ## Both together -/

/-- **An instruction is refused for a cause that can be named, and then nothing is changed.**  On a
reachable fabric an instruction fails exactly if it is refused, and with the fault that goes with
the cause.  Worked in place it then stops with that fault and leaves the fabric as it was, and
otherwise it comes to its end; it never takes a stitch from an empty outline. -/
theorem fails_iff_refused (reach : g.Reachable) (i : Instruction) :
    (∀ fault, g.apply i = .error fault ↔ g.Refuses i fault) ∧
    (∀ fault, g.Refuses i fault → (perform i).run.run g = (.error (.fault fault), g)) ∧
    ((∀ fault, ¬g.Refuses i fault) →
      ∃ h, g.apply i = .ok h ∧ (perform i).run.run g = (.ok (), h)) ∧
    ((perform i).run.run g).1 ≠ .error .emptyOutline := by
  have hrefused : ∀ fault, g.apply i = .error fault ↔ g.Refuses i fault := fun fault =>
    apply_eq_error_iff reach.wellFormed
  have hrun := run_perform i g
  refine ⟨hrefused, ?_, ?_, ?_⟩
  · intro fault refuses
    rw [hrun, (hrefused fault).2 refuses]
  · intro hnone
    cases happly : g.apply i with
    | error fault => exact absurd ((hrefused fault).1 happly) (hnone fault)
    | ok h =>
      rw [happly] at hrun
      exact ⟨h, rfl, hrun⟩
  · rw [hrun]
    cases g.apply i with
    | error fault => simp
    | ok h => simp

/-- One live stitch is too few for a decrease, and with a ring behind it there are enough. -/
theorem fails_iff_refused_lone : ∃ g, g.Reachable ∧ g.outline = [1] ∧
    (perform .decrease).run.run g = (.error (.fault (.tooFewStitches .decrease 2 1)), g) ∧
    g.workLoop.outline = [1, 2] ∧
    ∃ h, (perform .decrease).run.run g.workLoop = (.ok (), h) ∧ h.outline = [2, 3] := by
  let g := worked (empty.append ⟨[[.loop], [.increase]]⟩)
  have reach : g.Reachable := Reachable.append ⟨[[.loop], [.increase]]⟩ .empty
  have refuses : g.Refuses .decrease (.tooFewStitches .decrease 2 1) :=
    .decrease (by decide +kernel) (by decide +kernel)
  have accepts : ∀ fault, ¬g.workLoop.Refuses .decrease fault := by
    rintro fault ⟨⟩
    rename_i few _
    exact absurd few (by decide +kernel)
  obtain ⟨-, hstops, -⟩ := fails_iff_refused reach .decrease
  obtain ⟨-, -, hworks, -⟩ := fails_iff_refused (Reachable.apply (i := .loop) reach rfl) .decrease
  obtain ⟨h, happly, hrun⟩ := hworks accepts
  have hout : (worked (g.workLoop.applyAll [.decrease])).outline = [2, 3] := by decide +kernel
  rw [applyAll, happly] at hout
  exact ⟨g, reach, by decide +kernel, hstops _ refuses, by decide +kernel, h, hrun, hout⟩

end Fabric

end Crochet
