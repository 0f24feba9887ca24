import Crochet.Proofs.Fabric.Reachable

/-!
# Histories

A fabric that was never joined is made by calls: single instructions and whole patterns, each of
which may succeed or fail.  `after calls` is the fabric they leave, and `history calls` is the
record of what was done: every instruction that succeeded, in order, with the fabric it was worked
on.

Most laws about a whole run speak of a fabric and of all that was done before it.  `Recorded` says
that such a law is kept by single instructions and by the two ends of a round, and
`Recorded.history` carries it to every run; the inductions over instructions, rounds and calls are
done here once.
-/

namespace Crochet

/-- One call on a fabric. -/
inductive Call where
  | apply (i : Instruction)
  | append (pattern : Pattern)
  deriving DecidableEq, Repr

/-- An instruction that succeeded, and the fabric it was worked on. -/
structure Deed where
  fabric : Fabric
  instruction : Instruction

namespace Fabric

/-! ## Calls and what they did -/

/-- The fabric after a call.  An instruction that fails leaves no trace; a pattern that fails leaves
what was worked before the fault. -/
def call (g : Fabric) : Call → Fabric
  | .apply i =>
    match g.apply i with
    | .error _ => g
    | .ok h => h
  | .append pattern => worked (g.append pattern)

/-- The fabric that calls make from nothing. -/
def after (calls : List Call) : Fabric := calls.foldl call empty

/-- What is done when instructions are worked up to the first fault. -/
def deedsOfAll (g : Fabric) : List Instruction → List Deed
  | [] => []
  | i :: rest =>
    match g.apply i with
    | .error _ => []
    | .ok h => ⟨g, i⟩ :: h.deedsOfAll rest

/-- What is done when rounds are worked up to the first fault. -/
def deedsOfRounds (g : Fabric) : List Round → List Deed
  | [] => []
  | round :: rest =>
    let begun := g.beginRound round.length
    match begun.applyAll round with
    | .error _ => begun.deedsOfAll round
    | .ok h => begun.deedsOfAll round ++ h.endRound.deedsOfRounds rest

/-- What a call does. -/
def deedsOf (g : Fabric) : Call → List Deed
  | .apply i => g.deedsOfAll [i]
  | .append pattern => g.deedsOfRounds pattern.rounds

/-- What calls do, one after another. -/
def deedsOfCalls (g : Fabric) : List Call → List Deed
  | [] => []
  | c :: rest => g.deedsOf c ++ (g.call c).deedsOfCalls rest

/-- All that was done by calls that start from nothing. -/
def history (calls : List Call) : List Deed := empty.deedsOfCalls calls

/-! ## Laws about all that was done -/

/-- What single instructions and the two ends of a round keep of a fabric, given all that was done
before. -/
structure Recorded (P : List Deed → Fabric → Prop) : Prop where
  apply : ∀ {done : List Deed} {g h : Fabric} {i : Instruction}, P done g → g.apply i = .ok h →
    P (done ++ [⟨g, i⟩]) h
  beginRound : ∀ {done : List Deed} {g : Fabric} (length : Nat), P done g →
    P done (g.beginRound length)
  endRound : ∀ {done : List Deed} {g : Fabric}, P done g → P done g.endRound

namespace Recorded

variable {P : List Deed → Fabric → Prop}

theorem applyAll (recorded : Recorded P) :
    ∀ (instructions : List Instruction) {done : List Deed} {g : Fabric}, P done g →
      P (done ++ g.deedsOfAll instructions) (worked (g.applyAll instructions)) := by
  intro instructions
  induction instructions with
  | nil =>
    intro done g hg
    simpa [deedsOfAll, Fabric.applyAll] using hg
  | cons i rest ih =>
    intro done g hg
    cases happly : g.apply i with
    | error fault => simpa [deedsOfAll, Fabric.applyAll, happly] using hg
    | ok h =>
      have hrest := ih (recorded.apply hg happly)
      cases hall : h.applyAll rest with
      | error halt => simpa [deedsOfAll, Fabric.applyAll, happly, hall] using hrest
      | ok k => simpa [deedsOfAll, Fabric.applyAll, happly, hall] using hrest

theorem workRounds (recorded : Recorded P) :
    ∀ (rounds : List Round) {done : List Deed} {g : Fabric} (index : Nat), P done g →
      P (done ++ g.deedsOfRounds rounds) (worked (g.workRounds index rounds)) := by
  intro rounds
  induction rounds with
  | nil =>
    intro done g index hg
    simpa [deedsOfRounds, Fabric.workRounds] using hg
  | cons round rest ih =>
    intro done g index hg
    have hround := recorded.applyAll round (recorded.beginRound round.length hg)
    cases hall : (g.beginRound round.length).applyAll round with
    | error halt =>
      rw [hall] at hround
      simpa [deedsOfRounds, Fabric.workRounds, Fabric.workRound, hall] using hround
    | ok h =>
      rw [hall] at hround
      have hrest := ih (index + 1) (recorded.endRound hround)
      simpa [deedsOfRounds, Fabric.workRounds, Fabric.workRound, hall] using hrest

theorem call (recorded : Recorded P) (c : Call) {done : List Deed} {g : Fabric} (hg : P done g) :
    P (done ++ g.deedsOf c) (g.call c) := by
  cases c with
  | apply i =>
    have hi := recorded.applyAll [i] hg
    cases happly : g.apply i with
    | error fault => simpa [Fabric.call, deedsOf, Fabric.applyAll, happly] using hi
    | ok h => simpa [Fabric.call, deedsOf, Fabric.applyAll, happly] using hi
  | append pattern => exact recorded.workRounds pattern.rounds 0 hg

/-- **A law that holds of nothing and is kept by every step holds of every run.** -/
theorem history (recorded : Recorded P) (hempty : P [] .empty) (calls : List Call) :
    P (history calls) (after calls) := by
  have hcalls : ∀ (calls : List Call) {done : List Deed} {g : Fabric}, P done g →
      P (done ++ g.deedsOfCalls calls) (calls.foldl Fabric.call g) := by
    intro calls
    induction calls with
    | nil =>
      intro done g hg
      simpa [deedsOfCalls] using hg
    | cons c rest ih =>
      intro done g hg
      simpa [deedsOfCalls] using ih (recorded.call c hg)
  simpa [Fabric.history, after] using hcalls calls hempty

end Recorded

end Fabric

end Crochet
