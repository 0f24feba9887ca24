import Crochet.Proofs.Fabric.Consistency
import Crochet.Proofs.Figure.Execution
import Mathlib.Control.Basic

/-!
# A part worked in two pieces

Rounds may be worked onto a part by one command or, cut into two, by two of them.

* `Fabric.append_append`: working two patterns one after the other is working the rounds of both.
  All that a fault in the second shows of the cut is the number of its round.
* `Figure.execute_append`: so one command does what two would do, once all items have a meaning.
* `Figure.execute_split`: two commands make what one would have made, or fail where it fails.
-/

namespace Crochet

/-! ## Counting rounds from further back -/

/-- A fault in a round, with `count` more rounds before it. -/
def Fault.later (count : Nat) : Fault → Fault
  | .inRound round instruction cause => .inRound (round + count) instruction cause
  | fault => fault

/-- Work that stopped, with `count` more rounds before it. -/
def Halt.later (count : Nat) (halt : Halt) : Halt := { halt with fault := halt.fault.later count }

namespace Fabric

variable {g : Fabric} {index : Nat}

theorem workRound_add (g : Fabric) (index count : Nat) (round : Round) :
    g.workRound (index + count) round = (g.workRound index round).mapError (Halt.later count) := by
  rw [workRound, workRound]
  cases (g.beginRound round.length).applyAll round <;> rfl

/-- The number that the first round has shows in faults alone. -/
theorem workRounds_add (g : Fabric) (index count : Nat) (rounds : List Round) :
    g.workRounds (index + count) rounds =
      (g.workRounds index rounds).mapError (Halt.later count) := by
  induction rounds generalizing g index with
  | nil => rfl
  | cons round rest ih =>
    rw [workRounds, workRounds, workRound_add]
    cases g.workRound index round with
    | error halt => rfl
    | ok h =>
      have hindex : index + count + 1 = index + 1 + count := by omega
      simp only [Except.mapError, hindex]
      exact ih h (index + 1)

theorem exists_of_workRound_eq_error {round : Round} {halt : Halt}
    (h : g.workRound index round = .error halt) :
    ∃ instruction cause, halt.fault = .inRound index instruction cause := by
  rw [workRound] at h
  cases hall : (g.beginRound round.length).applyAll round with
  | ok k => simp [hall] at h
  | error stop =>
    rw [hall] at h
    obtain rfl := Except.error.inj h
    exact ⟨stop.done, stop.fault, rfl⟩

/-- Work stops in a round, and it is one of those that are worked. -/
theorem exists_of_workRounds_eq_error {rounds : List Round} {halt : Halt}
    (h : g.workRounds index rounds = .error halt) :
    ∃ round instruction cause, halt.fault = .inRound round instruction cause ∧
      index ≤ round ∧ round < index + rounds.length := by
  induction rounds generalizing g index with
  | nil => cases h
  | cons round rest ih =>
    rw [workRounds] at h
    cases hround : g.workRound index round with
    | error stop =>
      rw [hround] at h
      obtain rfl := Except.error.inj h
      obtain ⟨instruction, cause, hfault⟩ := exists_of_workRound_eq_error hround
      exact ⟨index, instruction, cause, hfault, Nat.le_refl _, by simp⟩
    | ok k =>
      rw [hround] at h
      obtain ⟨number, instruction, cause, hfault, hle, hlt⟩ := ih h
      refine ⟨number, instruction, cause, hfault, by omega, ?_⟩
      rw [List.length_cons]
      omega

/-- **Working two patterns one after the other is working the rounds of both.** -/
theorem append_append (g : Fabric) (rounds more : List Round) :
    g.append ⟨rounds ++ more⟩ =
      (g.append ⟨rounds⟩).bind fun h => (h.append ⟨more⟩).mapError (Halt.later rounds.length) := by
  have hmore (h : Fabric) : h.workRounds (0 + rounds.length) more =
      (h.append ⟨more⟩).mapError (Halt.later rounds.length) := workRounds_add h 0 _ more
  simp only [append, workRounds_append, hmore]

end Fabric

/-! ## Meanings of rounds -/

/-- The rounds of two lists, one after the other. -/
theorem Round.allOfItems_append (first second : List (List Item)) :
    Round.allOfItems (first ++ second) = (Round.allOfItems first).bind fun rounds =>
      (Round.allOfItems second).map (rounds ++ ·) := by
  induction first with
  | nil => cases h : Round.allOfItems second <;> simp [Round.allOfItems, Except.bind, Except.map, h]
  | cons items rest ih =>
    rw [List.cons_append, Round.allOfItems, Round.allOfItems, ih]
    cases Round.ofItems items with
    | error fault => rfl
    | ok round =>
      cases Round.allOfItems rest with
      | error fault => rfl
      | ok rounds => cases Round.allOfItems second <;> rfl

/-- A list of items means one round. -/
theorem Round.length_allOfItems {items : List (List Item)} {rounds : List Round}
    (h : Round.allOfItems items = .ok rounds) : rounds.length = items.length := by
  induction items generalizing rounds with
  | nil => cases h; rfl
  | cons first rest ih =>
    rw [Round.allOfItems] at h
    cases hfirst : Round.ofItems first with
    | error fault => simp [hfirst] at h
    | ok round =>
      cases hrest : Round.allOfItems rest with
      | error fault => simp [hfirst, hrest] at h
      | ok others =>
        rw [hfirst, hrest] at h
        cases h
        rw [List.length_cons, List.length_cons, ih hrest]

namespace Pattern

variable {items first second : List (List Item)} {pattern : Pattern}

theorem ofItems_eq_ok_iff :
    ofItems items = .ok pattern ↔ Round.allOfItems items = .ok pattern.rounds := by
  obtain ⟨rounds⟩ := pattern
  rw [ofItems]
  cases Round.allOfItems items <;> simp

/-- Items have a meaning if those of both pieces have one. -/
theorem ofItems_append_eq_ok_iff :
    ofItems (first ++ second) = .ok pattern ↔
      ∃ rounds more, ofItems first = .ok ⟨rounds⟩ ∧ ofItems second = .ok ⟨more⟩ ∧
        pattern = ⟨rounds ++ more⟩ := by
  obtain ⟨rounds⟩ := pattern
  simp only [ofItems_eq_ok_iff, Round.allOfItems_append]
  cases Round.allOfItems first with
  | error fault => simp [Except.bind]
  | ok rounds => cases Round.allOfItems second <;> simp [Except.bind, Except.map, eq_comm]

end Pattern

/-! ## One command or two -/

namespace Figure

@[simp] theorem put_put (f : Figure) (id : Nat) (before after : Fabric) :
    (f.put id before).put id after = f.put id after := by
  rw [put, put, put, Index.insert_insert]

variable {f : Figure} {id : Nat} {rounds first second : List (List Item)}

/-- What a command does to a part once its items have a meaning. -/
theorem execute_pattern {pattern : Pattern} (meaning : Pattern.ofItems rounds = .ok pattern) :
    f.execute (.pattern (some id) rounds) =
      match ((f.part? id).getD .empty).append pattern with
      | .error halt => .error halt.fault
      | .ok fabric => .ok (f.put id fabric) := by
  cases happend : ((f.part? id).getD .empty).append pattern <;>
    simp only [execute, workPattern, meaning, happend]

/-- A command whose items have a meaning can only fail in one of its rounds. -/
theorem exists_of_execute_eq_error {pattern : Pattern} {fault : Fault}
    (meaning : Pattern.ofItems rounds = .ok pattern)
    (h : f.execute (.pattern (some id) rounds) = .error fault) :
    ∃ round instruction cause, fault = .inRound round instruction cause ∧
      round < rounds.length := by
  rw [execute_pattern meaning] at h
  cases happend : ((f.part? id).getD .empty).append pattern with
  | ok fabric => simp [happend] at h
  | error halt =>
    rw [happend] at h
    obtain rfl := Except.error.inj h
    obtain ⟨round, instruction, cause, hfault, -, hlt⟩ :=
      Fabric.exists_of_workRounds_eq_error happend
    rw [Nat.zero_add, Round.length_allOfItems (Pattern.ofItems_eq_ok_iff.1 meaning)] at hlt
    exact ⟨round, instruction, cause, hfault, hlt⟩

/-- One command does what two would do, and counts the rounds of the second from further back. -/
theorem execute_append {p q : Pattern} (hfirst : Pattern.ofItems first = .ok p)
    (hsecond : Pattern.ofItems second = .ok q) :
    f.execute (.pattern (some id) (first ++ second)) =
      (f.execute (.pattern (some id) first)).bind fun m =>
        (m.execute (.pattern (some id) second)).mapError (Fault.later first.length) := by
  have hboth := Pattern.ofItems_append_eq_ok_iff.2 ⟨p.rounds, q.rounds, hfirst, hsecond, rfl⟩
  have hlength := Round.length_allOfItems (Pattern.ofItems_eq_ok_iff.1 hfirst)
  rw [execute_pattern hboth, execute_pattern hfirst, Fabric.append_append, hlength]
  cases ((f.part? id).getD .empty).append p with
  | error halt => rfl
  | ok middle =>
    simp only [Except.bind]
    rw [execute_pattern hsecond, part?_put_self, Option.getD_some]
    cases middle.append q with
    | error halt => rfl
    | ok fabric => simp only [Except.mapError, put_put]

theorem exists_meaning {g : Figure} (h : f.execute (.pattern (some id) rounds) = .ok g) :
    ∃ pattern, Pattern.ofItems rounds = .ok pattern := by
  obtain ⟨pattern, _, meaning, _⟩ := workPattern_eq_ok_iff.1 h
  exact ⟨pattern, meaning⟩

/-- **Rounds may be worked by one command or by two.**  Both ways make the same figure, and a fault
of a stitch is the same as well, but for the number that its round has in its own command. -/
theorem execute_split (f : Figure) (id : Nat) (first second : List (List Item)) :
    (∀ g, f.execute (.pattern (some id) (first ++ second)) = .ok g ↔
      ∃ m, f.execute (.pattern (some id) first) = .ok m ∧
        m.execute (.pattern (some id) second) = .ok g) ∧
    ∀ pattern fault, Pattern.ofItems (first ++ second) = .ok pattern →
      f.execute (.pattern (some id) (first ++ second)) = .error fault →
      ∃ round instruction cause, fault = .inRound round instruction cause ∧
        if round < first.length then
          f.execute (.pattern (some id) first) = .error (.inRound round instruction cause)
        else
          ∃ m, f.execute (.pattern (some id) first) = .ok m ∧
            m.execute (.pattern (some id) second) =
              .error (.inRound (round - first.length) instruction cause) := by
  refine ⟨fun g => ⟨fun h => ?join, ?cut⟩, fun pattern fault meaning h => ?fails⟩
  case join =>
    obtain ⟨pattern, meaning⟩ := exists_meaning h
    obtain ⟨rounds, more, hfirst, hsecond, -⟩ := Pattern.ofItems_append_eq_ok_iff.1 meaning
    rw [execute_append hfirst hsecond] at h
    cases hm : f.execute (.pattern (some id) first) with
    | error fault => simp [hm, Except.bind] at h
    | ok m =>
      cases hg : m.execute (.pattern (some id) second) with
      | error fault => simp [hm, hg, Except.bind, Except.mapError] at h
      | ok k => exact ⟨m, rfl, by simpa [hm, hg, Except.bind, Except.mapError] using h⟩
  case cut =>
    rintro ⟨m, hm, hg⟩
    obtain ⟨p, hfirst⟩ := exists_meaning hm
    obtain ⟨q, hsecond⟩ := exists_meaning hg
    simp only [execute_append hfirst hsecond, hm, hg, Except.bind, Except.mapError]
  case fails =>
    obtain ⟨rounds, more, hfirst, hsecond, -⟩ := Pattern.ofItems_append_eq_ok_iff.1 meaning
    rw [execute_append hfirst hsecond] at h
    cases hm : f.execute (.pattern (some id) first) with
    | error cause =>
      obtain rfl : cause = fault := by simpa [hm, Except.bind] using h
      obtain ⟨round, instruction, source, rfl, hlt⟩ := exists_of_execute_eq_error hfirst hm
      exact ⟨round, instruction, source, rfl, by rw [if_pos hlt]⟩
    | ok m =>
      cases hg : m.execute (.pattern (some id) second) with
      | ok k => simp [hm, hg, Except.bind, Except.mapError] at h
      | error cause =>
        obtain ⟨round, instruction, source, rfl, -⟩ := exists_of_execute_eq_error hsecond hg
        have hfault : Fault.inRound (round + first.length) instruction source = fault := by
          simpa [hm, hg, Except.bind, Except.mapError, Fault.later] using h
        refine ⟨round + first.length, instruction, source, hfault.symm, ?_⟩
        rw [if_neg (by omega), Nat.add_sub_cancel]
        exact ⟨m, rfl, hg⟩

/-- Decreases run out of stitches in round 2, or in round 1 of a second command. -/
theorem execute_split_decreases :
    ∃ (m : Figure) (ring stitches closing : List Item),
      empty.execute (.pattern (some 7) [ring, stitches, closing]) =
        .error (.inRound 2 2 (.tooFewStitches .decrease 2 1)) ∧
      empty.execute (.pattern (some 7) [ring]) = .ok m ∧
      m.execute (.pattern (some 7) [stitches, closing]) =
        .error (.inRound 1 2 (.tooFewStitches .decrease 2 1)) := by
  let ring : List Item := [{ name? := some "LP" }]
  let stitches : List Item := [{ name? := some "INC", count? := some 3 }]
  let closing : List Item := [{ name? := some "DEC", count? := some 3 }]
  have meaning : Pattern.ofItems ([ring] ++ [stitches, closing]) =
      .ok ⟨[[.loop], .replicate 3 .increase, .replicate 3 .decrease]⟩ := rfl
  have hfails : empty.execute (.pattern (some 7) ([ring] ++ [stitches, closing])) =
      .error (.inRound 2 2 (.tooFewStitches .decrease 2 1)) := rfl
  obtain ⟨round, instruction, cause, hfault, hcut⟩ :=
    (execute_split empty 7 [ring] [stitches, closing]).2 _ _ meaning hfails
  obtain ⟨rfl, rfl, rfl⟩ := Fault.inRound.inj hfault
  obtain ⟨m, hm, hrest⟩ := hcut
  exact ⟨m, ring, stitches, closing, hfails, hm, hrest⟩

end Figure

end Crochet
