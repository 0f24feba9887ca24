import Crochet.Proofs.Fabric.Counting

/-!
# Fabrics worked without a fault

`WorkedBy instructions g` says that `g` was made from nothing by single instructions and whole
patterns, each of which succeeded, and lists the instructions in the order in which they were
worked.  Nothing was joined.

An invariant may lean on what has been worked so far.  `WorkedBy.of_steps` reduces it to single
instructions and the two ends of a round; the inductions over rounds and patterns are done here
once.
-/

namespace Crochet

/-- The instructions of a pattern, in order. -/
def Pattern.instructions (p : Pattern) : List Instruction := p.rounds.flatten

namespace Fabric

/-- The fabrics that instructions and patterns make from nothing, with the instructions worked. -/
inductive WorkedBy : List Instruction → Fabric → Prop
  | empty : WorkedBy [] empty
  | apply {done : List Instruction} {g h : Fabric} {i : Instruction} (worked : WorkedBy done g)
      (works : g.apply i = .ok h) : WorkedBy (done ++ [i]) h
  | append {done : List Instruction} {g h : Fabric} {pattern : Pattern} (worked : WorkedBy done g)
      (works : g.append pattern = .ok h) : WorkedBy (done ++ pattern.instructions) h

theorem WorkedBy.of_ofPattern {g : Fabric} {pattern : Pattern} (works : ofPattern pattern = .ok g) :
    WorkedBy pattern.instructions g := by
  have := WorkedBy.empty.append works
  rwa [List.nil_append] at this

theorem WorkedBy.reachable {done : List Instruction} {g : Fabric} (worked : WorkedBy done g) :
    g.Reachable := by
  induction worked with
  | empty => exact .empty
  | apply _ works ih => exact .apply ih works
  | append _ works ih => exact .of_append ih works

/-! ## Invariants -/

/-- What single instructions and the two ends of a round keep of a fabric, given what has been
worked before. -/
structure Steps (P : List Instruction → Fabric → Prop) : Prop where
  apply : ∀ {done : List Instruction} {g h : Fabric} {i : Instruction}, P done g →
    g.apply i = .ok h → P (done ++ [i]) h
  beginRound : ∀ {done : List Instruction} {g : Fabric} (length : Nat), P done g →
    P done (g.beginRound length)
  endRound : ∀ {done : List Instruction} {g : Fabric}, P done g → P done g.endRound

namespace Steps

variable {P : List Instruction → Fabric → Prop}

theorem applyAll (steps : Steps P) {instructions done : List Instruction} {g h : Fabric}
    (hg : P done g) (hall : g.applyAll instructions = .ok h) : P (done ++ instructions) h := by
  induction instructions generalizing done g with
  | nil =>
    obtain rfl := Except.ok.inj hall
    simpa using hg
  | cons i rest ih =>
    obtain ⟨middle, happly, hrest⟩ := exists_of_applyAll_cons hall
    have hlast := ih (steps.apply hg happly) hrest
    simpa using hlast

theorem workRound (steps : Steps P) {done : List Instruction} {g h : Fabric} {index : Nat}
    {round : Round} (hg : P done g) (hwork : g.workRound index round = .ok h) :
    P (done ++ round) h := by
  obtain ⟨k, hall, rfl⟩ := exists_of_workRound hwork
  exact steps.endRound (steps.applyAll (steps.beginRound round.length hg) hall)

theorem workRounds (steps : Steps P) {rounds : List Round} {done : List Instruction} {g h : Fabric}
    {index : Nat} (hg : P done g) (hwork : g.workRounds index rounds = .ok h) :
    P (done ++ rounds.flatten) h := by
  induction rounds generalizing done g index with
  | nil =>
    obtain rfl := Except.ok.inj hwork
    simpa using hg
  | cons round rest ih =>
    obtain ⟨middle, hround, hrest⟩ := exists_of_workRounds_cons hwork
    have hlast := ih (steps.workRound hg hround) hrest
    simpa using hlast

end Steps

/-- A property that holds of the empty fabric and of all that steps make of it holds of every fabric
that was worked. -/
theorem WorkedBy.of_steps {P : List Instruction → Fabric → Prop} (steps : Steps P)
    (hempty : P [] .empty) {done : List Instruction} {g : Fabric} (worked : WorkedBy done g) :
    P done g := by
  induction worked with
  | empty => exact hempty
  | apply _ works ih => exact steps.apply ih works
  | append _ works ih => exact steps.workRounds ih works

end Fabric

end Crochet
