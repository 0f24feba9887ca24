import Crochet.Fabric.Join
import Crochet.Fabric.Work

/-!
# Reachable fabrics

A fabric is `Reachable` if it can be made from nothing by working instructions and patterns onto it,
whether they succeed or fail, and by putting reachable fabrics beside each other.

Most laws of fabrics are invariants of single instructions and of the two ends of a round.  `Kept`
says so of a property, and `Reachable.of_kept` carries it to every reachable fabric; the inductions
over instructions, rounds and histories are done here once.
-/

namespace Crochet

namespace Fabric

/-- The fabric that work ends with, also if it was stopped by a fault. -/
def worked : Except Halt Fabric → Fabric
  | .ok g => g
  | .error halt => halt.fabric

@[simp] theorem worked_ok (g : Fabric) : worked (.ok g) = g := rfl

@[simp] theorem worked_error (halt : Halt) : worked (.error halt) = halt.fabric := rfl

theorem eq_ok_worked {work : Except Halt Fabric} (h : work.isOk = true) :
    work = .ok (worked work) := by
  cases work with
  | error halt => exact absurd h Bool.false_ne_true
  | ok g => rfl

/-- The fabrics that can be made from nothing.  An instruction that fails leaves no trace; a pattern
that fails leaves what was worked before the fault. -/
inductive Reachable : Fabric → Prop
  | empty : Reachable empty
  | apply {g h : Fabric} {i : Instruction} (reach : Reachable g) (works : g.apply i = .ok h) :
      Reachable h
  | append {g : Fabric} (pattern : Pattern) (reach : Reachable g) :
      Reachable (worked (g.append pattern))
  | join {g other : Fabric} (reach : Reachable g) (reachOther : Reachable other) :
      Reachable (g.join other)

theorem Reachable.of_append {g h : Fabric} {pattern : Pattern} (reach : g.Reachable)
    (works : g.append pattern = .ok h) : h.Reachable := by
  have := Reachable.append pattern reach
  rwa [works] at this

theorem Reachable.of_ofPattern {g : Fabric} {pattern : Pattern}
    (works : ofPattern pattern = .ok g) : g.Reachable :=
  Reachable.of_append .empty works

/-! ## Properties that work keeps -/

/-- A property that instructions and the two ends of a round keep. -/
structure Kept (P : Fabric → Prop) : Prop where
  apply : ∀ {g h : Fabric} {i : Instruction}, P g → g.apply i = .ok h → P h
  beginRound : ∀ {g : Fabric} (length : Nat), P g → P (g.beginRound length)
  endRound : ∀ {g : Fabric}, P g → P g.endRound

namespace Kept

variable {P : Fabric → Prop}

theorem applyAll (kept : Kept P) {g : Fabric} (hg : P g) (instructions : List Instruction) :
    P (worked (g.applyAll instructions)) := by
  induction instructions generalizing g with
  | nil => exact hg
  | cons i rest ih =>
    cases happly : g.apply i with
    | error fault => simpa [Fabric.applyAll, happly] using hg
    | ok h =>
      have hrest := ih (kept.apply hg happly)
      cases hall : h.applyAll rest with
      | error halt => simpa [Fabric.applyAll, happly, hall] using hrest
      | ok k => simpa [Fabric.applyAll, happly, hall] using hrest

theorem workRound (kept : Kept P) {g : Fabric} (hg : P g) (index : Nat) (round : Round) :
    P (worked (g.workRound index round)) := by
  have hround := kept.applyAll (kept.beginRound round.length hg) round
  cases hall : (g.beginRound round.length).applyAll round with
  | error halt => simpa [Fabric.workRound, hall] using hround
  | ok h =>
    rw [hall] at hround
    simpa [Fabric.workRound, hall] using kept.endRound hround

theorem workRounds (kept : Kept P) {g : Fabric} (hg : P g) (index : Nat) (rounds : List Round) :
    P (worked (g.workRounds index rounds)) := by
  induction rounds generalizing g index with
  | nil => exact hg
  | cons round rest ih =>
    have hround := kept.workRound hg index round
    cases hwork : g.workRound index round with
    | error halt => simpa [Fabric.workRounds, hwork] using hround
    | ok h =>
      rw [hwork] at hround
      simpa [Fabric.workRounds, hwork] using ih hround (index + 1)

end Kept

/-- A property of the empty fabric that work and joining keep holds of every reachable fabric. -/
theorem Reachable.of_kept {P : Fabric → Prop} (kept : Kept P) (hempty : P .empty)
    (hjoin : ∀ {g other : Fabric}, P g → P other → P (g.join other)) {g : Fabric}
    (reach : g.Reachable) : P g := by
  induction reach with
  | empty => exact hempty
  | apply _ works ih => exact kept.apply ih works
  | append pattern _ ih => exact kept.workRounds ih 0 pattern.rounds
  | join _ _ ih ihOther => exact hjoin ih ihOther

end Fabric

end Crochet
