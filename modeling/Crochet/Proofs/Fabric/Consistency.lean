import Crochet.Proofs.Fabric.Counting

/-!
# Consistent patterns

`Pattern.isConsistent` counts what each round takes up, and never works a stitch.  For patterns that
start with a ring and go on with rounds of plain stitches, the advice is exact: a pattern is
consistent exactly if it can be worked to its end and every round takes up as many stitches as the
round below it made, and then the stitches of the last round are all that is live
(`isConsistent_iff_fits`).
-/

namespace Crochet

/-! ## Counting, round by round -/

namespace Pattern

/-- The demands of all rounds but the first are met exactly if each is by the round before it. -/
theorem chained_iff {rounds : List Round} :
    chained rounds = true ↔ ∀ k previous round, rounds[k]? = some previous →
      rounds[k + 1]? = some round → Round.follows previous round = true := by
  induction rounds with
  | nil => simp [chained]
  | cons first rest ih =>
    cases rest with
    | nil => simp [chained]
    | cons second rest =>
      rw [chained, Bool.and_eq_true, ih]
      constructor
      · rintro ⟨hfirst, hrest⟩ k previous round hprevious hround
        cases k with
        | zero =>
          obtain rfl := Option.some.inj hprevious
          obtain rfl := Option.some.inj hround
          exact hfirst
        | succ k => exact hrest k previous round hprevious hround
      · intro h
        exact ⟨h 0 first second rfl rfl, fun k previous round hprevious hround =>
          h (k + 1) previous round hprevious hround⟩

end Pattern

/-- A plain round is not free of demands, and so follows exactly the rounds of the right length. -/
theorem Round.follows_iff {previous round : Round} (hne : round ≠ [])
    (plain : ∀ i ∈ round, i.isPlain = true) :
    Round.follows previous round = true ↔ Round.demand round = previous.length := by
  have hfree : Round.isFree round = false := by
    cases round with
    | nil => exact absurd rfl hne
    | cons i rest =>
      have hplain := plain i (List.mem_cons_self ..)
      have hneeds : i.needs?.isNone = false := by
        cases i with
        | single | increase | decrease => rfl
        | loop | chain | magicRing | slip | join | finishOff =>
          simp [Instruction.isPlain] at hplain
      simp [Round.isFree, hneeds]
  rw [Round.follows, hfree, Bool.false_or, beq_iff_eq]

namespace Fabric

/-! ## Working, round by round -/

/-- The fabric once the first `n` rounds of a pattern are worked. -/
def afterRounds (p : Pattern) (n : Nat) : Except Halt Fabric := ofPattern ⟨p.rounds.take n⟩

theorem workRounds_append (g : Fabric) (index : Nat) (rounds more : List Round) :
    g.workRounds index (rounds ++ more) =
      (g.workRounds index rounds).bind fun h => h.workRounds (index + rounds.length) more := by
  induction rounds generalizing g index with
  | nil => rfl
  | cons round rest ih =>
    cases hround : g.workRound index round with
    | error halt => simp [workRounds, hround, Except.bind]
    | ok h =>
      have hindex : index + 1 + rest.length = index + (rest.length + 1) := by omega
      simp [workRounds, hround, ih, hindex]

theorem afterRounds_succ {p : Pattern} {n : Nat} {round : Round}
    (hround : p.rounds[n]? = some round) :
    afterRounds p (n + 1) = (afterRounds p n).bind fun g => g.workRound n round := by
  have hlen : (p.rounds.take n).length = n := by
    have := (List.getElem?_eq_some_iff.1 hround).1
    rw [List.length_take]
    omega
  rw [afterRounds, afterRounds, ofPattern, append, List.take_add_one, hround, workRounds_append,
    hlen]
  congr 1
  funext g
  simp only [Nat.zero_add, Option.toList_some, workRounds]
  cases g.workRound n round <;> rfl

/-- Round `k + 1` of a pattern is worked to its end and takes up exactly as many stitches as round
`k` made. -/
def Fits (p : Pattern) (k : Nat) : Prop :=
  ∃ before below above, afterRounds p k = .ok before ∧ afterRounds p (k + 1) = .ok below ∧
    afterRounds p (k + 2) = .ok above ∧
    above.consumed = below.consumed + (below.size - before.size)

section Started

variable {rounds : List Round}

theorem afterRounds_one (rounds : List Round) :
    ∃ g, afterRounds (.startingWithLoop rounds) 1 = .ok g ∧ g.size = 1 ∧ g.outline = [0] ∧
      g.isRing 0 = true :=
  ⟨_, rfl, rfl, rfl, rfl⟩

theorem afterRounds_above {k : Nat} {round : Round} (hround : rounds[k]? = some round)
    {below : Fabric} (hbelow : afterRounds (.startingWithLoop rounds) (k + 1) = .ok below) :
    afterRounds (.startingWithLoop rounds) (k + 2) = below.workRound (k + 1) round := by
  have hround' : (Pattern.startingWithLoop rounds).rounds[k + 1]? = some round := hround
  rw [afterRounds_succ hround', hbelow]
  rfl

/-- A round after the first makes as many nodes as it has stitches, and takes up what it demands. -/
theorem counts_of_afterRounds (plain : ∀ round ∈ rounds, ∀ i ∈ round, i.isPlain = true)
    {k : Nat} {round : Round} (hround : rounds[k]? = some round) {below above : Fabric}
    (hbelow : afterRounds (.startingWithLoop rounds) (k + 1) = .ok below)
    (habove : afterRounds (.startingWithLoop rounds) (k + 2) = .ok above) :
    above.size = below.size + round.length ∧
      above.consumed = below.consumed + Round.demand round := by
  rw [afterRounds_above hround hbelow] at habove
  exact counts_of_workRound (plain round (List.mem_of_getElem? hround)) habove

/-- Every round makes as many nodes as it has instructions, also the ring of the first one. -/
theorem size_afterRounds (plain : ∀ round ∈ rounds, ∀ i ∈ round, i.isPlain = true)
    {n : Nat} {round : Round}
    (hround : (Pattern.startingWithLoop rounds).rounds[n]? = some round) {before below : Fabric}
    (hbefore : afterRounds (.startingWithLoop rounds) n = .ok before)
    (hbelow : afterRounds (.startingWithLoop rounds) (n + 1) = .ok below) :
    below.size = before.size + round.length := by
  cases n with
  | zero =>
    obtain ⟨g, hg, hsize, -⟩ := afterRounds_one rounds
    have hempty : afterRounds (.startingWithLoop rounds) 0 = .ok empty := rfl
    obtain rfl := Except.ok.inj (hempty.symm.trans hbefore)
    obtain rfl := Except.ok.inj (hg.symm.trans hbelow)
    obtain rfl := Option.some.inj hround
    exact hsize
  | succ k => exact (counts_of_afterRounds plain hround hbefore hbelow).1

/-- In a consistent pattern every round demands the stitches of the round before it. -/
theorem demand_of_isConsistent (plain : ∀ round ∈ rounds, ∀ i ∈ round, i.isPlain = true)
    (nonempty : ∀ round ∈ rounds, round ≠ [])
    (consistent : (Pattern.startingWithLoop rounds).isConsistent = true) {k : Nat}
    {previous round : Round}
    (hprevious : (Pattern.startingWithLoop rounds).rounds[k]? = some previous)
    (hround : rounds[k]? = some round) : Round.demand round = previous.length := by
  have hmem := List.mem_of_getElem? hround
  have hfollows := Pattern.chained_iff.1 consistent k previous round hprevious hround
  exact (Round.follows_iff (nonempty round hmem) (plain round hmem)).1 hfollows

/-- In a consistent pattern every round can be worked, and leaves exactly its own stitches live. -/
theorem exists_afterRounds (plain : ∀ round ∈ rounds, ∀ i ∈ round, i.isPlain = true)
    (nonempty : ∀ round ∈ rounds, round ≠ [])
    (consistent : (Pattern.startingWithLoop rounds).isConsistent = true) {k : Nat} {round : Round}
    (hround : rounds[k]? = some round) :
    ∃ below above, afterRounds (.startingWithLoop rounds) (k + 1) = .ok below ∧
      afterRounds (.startingWithLoop rounds) (k + 2) = .ok above ∧
      above.OnlyLive below.size round.length := by
  induction k generalizing round with
  | zero =>
    obtain ⟨below, hbelow, -, hout, hring⟩ := afterRounds_one rounds
    have hfirst : (Pattern.startingWithLoop rounds).rounds[0]? = some [.loop] := rfl
    have hdemand : Round.demand round = 1 :=
      demand_of_isConsistent plain nonempty consistent hfirst hround
    obtain ⟨above, habove, hlive⟩ := exists_workRound_of_ring 1
      (plain round (List.mem_of_getElem? hround)) hdemand hout hring
    exact ⟨below, above, hbelow, (afterRounds_above hround hbelow).trans habove, hlive⟩
  | succ k ih =>
    have hlt : k < rounds.length := by
      have := (List.getElem?_eq_some_iff.1 hround).1
      omega
    have hprevious : rounds[k]? = some rounds[k] := List.getElem?_eq_getElem hlt
    obtain ⟨_, below, -, hbelow, hlive⟩ := ih hprevious
    have hdemand : Round.demand round = rounds[k].length :=
      demand_of_isConsistent plain nonempty consistent hprevious hround
    rw [← hdemand] at hlive
    obtain ⟨above, habove, hlive'⟩ := exists_workRound (k + 2)
      (plain round (List.mem_of_getElem? hround)) hlive
    exact ⟨below, above, hbelow, (afterRounds_above hround hbelow).trans habove, hlive'⟩

/-- In a consistent pattern every round fits. -/
theorem fits_of_isConsistent (plain : ∀ round ∈ rounds, ∀ i ∈ round, i.isPlain = true)
    (nonempty : ∀ round ∈ rounds, round ≠ [])
    (consistent : (Pattern.startingWithLoop rounds).isConsistent = true) {k : Nat}
    (hk : k < rounds.length) : Fits (.startingWithLoop rounds) k := by
  have hround : rounds[k]? = some rounds[k] := List.getElem?_eq_getElem hk
  obtain ⟨below, above, hbelow, habove, -⟩ := exists_afterRounds plain nonempty consistent hround
  have hlt : k < (Pattern.startingWithLoop rounds).rounds.length := Nat.lt_succ_of_lt hk
  have hprevious := List.getElem?_eq_getElem hlt
  rw [afterRounds_succ hprevious] at hbelow
  cases hbefore : afterRounds (.startingWithLoop rounds) k with
  | error halt => simp [hbefore, Except.bind] at hbelow
  | ok before =>
    rw [← afterRounds_succ hprevious] at hbelow
    have hsize := size_afterRounds plain hprevious hbefore hbelow
    obtain ⟨-, hconsumed⟩ := counts_of_afterRounds plain hround hbelow habove
    have hdemand := demand_of_isConsistent plain nonempty consistent hprevious hround
    exact ⟨before, below, above, hbefore, hbelow, habove, by omega⟩

/-- A pattern in which every round fits is consistent. -/
theorem isConsistent_of_fits (plain : ∀ round ∈ rounds, ∀ i ∈ round, i.isPlain = true)
    (nonempty : ∀ round ∈ rounds, round ≠ [])
    (fits : ∀ k < rounds.length, Fits (.startingWithLoop rounds) k) :
    (Pattern.startingWithLoop rounds).isConsistent = true := by
  refine Pattern.chained_iff.2 fun k previous round hprevious hround => ?_
  have hround' : rounds[k]? = some round := hround
  have hmem := List.mem_of_getElem? hround'
  obtain ⟨before, below, above, hbefore, hbelow, habove, hconsumed⟩ :=
    fits k (List.getElem?_eq_some_iff.1 hround').1
  have hsize := size_afterRounds plain hprevious hbefore hbelow
  obtain ⟨-, hdemand⟩ := counts_of_afterRounds plain hround' hbelow habove
  exact (Round.follows_iff (nonempty round hmem) (plain round hmem)).2 (by omega)

theorem ofPattern_eq_afterRounds (p : Pattern) : ofPattern p = afterRounds p p.rounds.length := by
  rw [afterRounds, List.take_length]

/-- **The advice about a pattern is exact.**  A pattern that starts with a ring and goes on with
rounds of plain stitches is consistent exactly if it can be worked and every round takes up as many
stitches as the round below it made.  After each round the stitches of that round, in the order of
making, are then all that is live. -/
theorem isConsistent_iff_fits (rounds : List Round) (nonempty : ∀ round ∈ rounds, round ≠ [])
    (plain : ∀ round ∈ rounds, ∀ i ∈ round, i.isPlain = true) :
    ((Pattern.startingWithLoop rounds).isConsistent = true ↔
      (∃ g, ofPattern (.startingWithLoop rounds) = .ok g) ∧
        ∀ k < rounds.length, Fits (.startingWithLoop rounds) k) ∧
    ((Pattern.startingWithLoop rounds).isConsistent = true → ∀ k < rounds.length,
      ∃ below above, afterRounds (.startingWithLoop rounds) (k + 1) = .ok below ∧
        afterRounds (.startingWithLoop rounds) (k + 2) = .ok above ∧
        above.outline = List.range' below.size (above.size - below.size)) := by
  refine ⟨⟨fun consistent => ⟨?_, fun k => fits_of_isConsistent plain nonempty consistent⟩,
    fun h => isConsistent_of_fits plain nonempty h.2⟩, fun consistent k hk => ?_⟩
  · rw [ofPattern_eq_afterRounds]
    show ∃ g, afterRounds (.startingWithLoop rounds) (rounds.length + 1) = .ok g
    cases hlast : rounds.length with
    | zero =>
      obtain ⟨g, hg, -⟩ := afterRounds_one rounds
      exact ⟨g, hg⟩
    | succ n =>
      have hround : rounds[n]? = some rounds[n] := List.getElem?_eq_getElem (by omega)
      obtain ⟨_, above, -, habove, -⟩ := exists_afterRounds plain nonempty consistent hround
      exact ⟨above, habove⟩
  · have hround : rounds[k]? = some rounds[k] := List.getElem?_eq_getElem hk
    obtain ⟨below, above, hbelow, habove, hout, hsize, -⟩ :=
      exists_afterRounds plain nonempty consistent hround
    refine ⟨below, above, hbelow, habove, ?_⟩
    rw [hout, hsize, Nat.add_sub_cancel_left]

/-- A disc of three stitches, and around it one of each plain stitch. -/
theorem isConsistent_iff_fits_disc : Fits (.startingWithLoop
    [[.increase, .increase, .increase], [.single, .increase, .decrease]]) 1 := by
  have hexact := isConsistent_iff_fits
    [[.increase, .increase, .increase], [.single, .increase, .decrease]] (by decide) (by decide)
  exact (hexact.1.1 (by decide)).2 1 (by decide)

end Started

end Fabric

end Crochet
