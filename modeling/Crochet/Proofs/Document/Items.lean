import Crochet.Document.Basic
import Crochet.Proofs.Text
import Mathlib.Data.List.Basic
import Mathlib.Tactic.Choose

/-!
# What items mean

The rounds of a document are lists of counted items.  An item asks for an instruction if its text
names a stitch and, for a stitch that sews, if both nodes are given; otherwise it has one fault.

* `Stitch.read?_eq_some_iff`: the stitch that is read off a text is the one that the text names.
* `Item.instruction_eq_ok_iff`, `Item.instruction_eq_error_iff`: an item is resolved to what it asks
  for, or fails with what is wrong with it.
* `Round.allOfItems_eq`: rounds fail with the first fault in them, and otherwise every item is
  written out in its place.
* `Pattern.ofItems_resolves`: so a pattern is made of what the items ask for.
-/

namespace Crochet

/-! ## Names of stitches -/

namespace Stitch

/-- A text names a stitch if it is, but for blanks around it, the abbreviation of the stitch in any
ASCII case. -/
def NamedBy (s : Stitch) (text : List Char) : Prop :=
  ∃ word, Text.Trims text word ∧ Text.upper word = Text.upper s.mnemonic.toList

variable {s : Stitch} {text : List Char}

/-- Abbreviations are written in upper case. -/
theorem upper_mnemonic (s : Stitch) : Text.upper s.mnemonic.toList = s.mnemonic.toList := by
  cases s <;> decide

theorem namedBy_iff : s.NamedBy text ↔ Text.upper (Text.trim text) = s.mnemonic.toList := by
  simp only [NamedBy, ← Text.trim_eq_iff, exists_eq_left', upper_mnemonic]

theorem namedBy_of_read? (h : read? text = some s) : s.NamedBy text := by
  rw [read?] at h
  have hs := List.find?_some h
  rw [beq_iff_eq] at hs
  exact namedBy_iff.2 hs.symm

/-- **The stitch read off a text is the one that the text names.** -/
theorem read?_eq_some_iff : read? text = some s ↔ s.NamedBy text := by
  refine ⟨namedBy_of_read?, fun named => ?_⟩
  cases hread : read? text with
  | none =>
    rw [read?, List.find?_eq_none] at hread
    simpa [namedBy_iff.1 named] using hread s (mem_all s)
  | some t =>
    have ht := namedBy_iff.1 (namedBy_of_read? hread)
    rw [namedBy_iff.1 named] at ht
    rw [mnemonic_injective (String.toList_injective ht)]

theorem read?_eq_none_iff : read? text = none ↔ ∀ s : Stitch, ¬s.NamedBy text := by
  simp only [Option.eq_none_iff_forall_ne_some, ne_eq, read?_eq_some_iff]

end Stitch

/-! ## One item -/

/-- An instruction as it is worked in a round: increases stand for a magic ring. -/
def Instruction.writtenOut : Instruction → Instruction
  | .magicRing => .increase
  | i => i

theorem Instruction.times_eq (count : Nat) (i : Instruction) :
    i.times count = List.replicate count i.writtenOut := by
  cases i <;> rfl

/-- There is an instruction for every kind of stitch. -/
theorem Instruction.exists_stitch_eq (s : Stitch) : ∃ i : Instruction, i.stitch = s := by
  cases h : ofStitch s (some 0) (some 0) with
  | ok i => exact ⟨i, stitch_ofStitch h⟩
  | error fault => cases s <;> cases h

namespace Item

/-- An item asks for an instruction. -/
inductive Asks (item : Item) : Instruction → Prop
  | plain {name : String} {i : Instruction} (hname : item.name? = some name)
      (named : i.stitch.NamedBy name.toList) (hplain : i.stitch ≠ .join) : Asks item i
  | join {name : String} {node other : Nat} (hname : item.name? = some name)
      (named : Stitch.join.NamedBy name.toList) (hnode : item.node? = some node)
      (hother : item.other? = some other) : Asks item (.join node other)

/-- What is wrong with an item.  A cause is looked at only if those before it are ruled out. -/
inductive Misfit (item : Item) : Fault → Prop
  | noName (hname : item.name? = none) : Misfit item (.missingField .instruction "op")
  | unknown {name : String} (hname : item.name? = some name)
      (unnamed : ∀ s : Stitch, ¬s.NamedBy name.toList) : Misfit item (.unknownStitch name)
  | noNode {name : String} (hname : item.name? = some name)
      (named : Stitch.join.NamedBy name.toList) (hnode : item.node? = none) :
      Misfit item (.missingField .joinInstruction "node")
  | noOther {name : String} {node : Nat} (hname : item.name? = some name)
      (named : Stitch.join.NamedBy name.toList) (hnode : item.node? = some node)
      (hother : item.other? = none) : Misfit item (.missingField .joinInstruction "with")

/-- An item that can be resolved: its text names a stitch, and if that is for sewing, both nodes are
given. -/
def IsResolvable (item : Item) : Prop :=
  ∃ name s, item.name? = some name ∧ Stitch.NamedBy s name.toList ∧
    (s = .join → item.node?.isSome ∧ item.other?.isSome)

variable {item : Item} {i : Instruction} {fault : Fault}

theorem instruction_of_asks (asks : item.Asks i) : item.instruction = .ok i := by
  cases asks with
  | plain hname named hplain =>
    simp only [instruction, hname, Stitch.read?_eq_some_iff.2 named]
    cases i with
    | join node other => exact absurd rfl hplain
    | _ => rfl
  | join hname named hnode hother =>
    simp only [instruction, hname, Stitch.read?_eq_some_iff.2 named, hnode, hother]
    rfl

theorem instruction_of_misfit (misfit : item.Misfit fault) : item.instruction = .error fault := by
  cases misfit with
  | noName hname => simp only [instruction, hname]
  | unknown hname unnamed => simp only [instruction, hname, Stitch.read?_eq_none_iff.2 unnamed]
  | noNode hname named hnode =>
    simp only [instruction, hname, Stitch.read?_eq_some_iff.2 named, hnode]
    rfl
  | noOther hname named hnode hother =>
    simp only [instruction, hname, Stitch.read?_eq_some_iff.2 named, hnode, hother]
    rfl

/-- An item can be resolved exactly if there is an instruction that it asks for. -/
theorem isResolvable_iff : item.IsResolvable ↔ ∃ i, item.Asks i := by
  constructor
  · rintro ⟨name, s, hname, named, hjoin⟩
    by_cases hs : s = .join
    · subst hs
      obtain ⟨hnode, hother⟩ := hjoin rfl
      obtain ⟨node, hnode⟩ := Option.isSome_iff_exists.1 hnode
      obtain ⟨other, hother⟩ := Option.isSome_iff_exists.1 hother
      exact ⟨_, .join hname named hnode hother⟩
    · obtain ⟨i, rfl⟩ := Instruction.exists_stitch_eq s
      exact ⟨i, .plain hname named hs⟩
  · rintro ⟨i, asks⟩
    cases asks with
    | plain hname named hplain => exact ⟨_, _, hname, named, fun hjoin => absurd hjoin hplain⟩
    | join hname named hnode hother =>
      exact ⟨_, _, hname, named, fun _ => by rw [hnode, hother]; exact ⟨rfl, rfl⟩⟩

/-- An item that cannot be resolved has something wrong with it. -/
theorem exists_misfit (h : ¬item.IsResolvable) : ∃ fault, item.Misfit fault := by
  cases hname : item.name? with
  | none => exact ⟨_, .noName hname⟩
  | some name =>
    by_cases hnamed : ∃ s : Stitch, s.NamedBy name.toList
    · obtain ⟨s, named⟩ := hnamed
      have hs : s = .join ∧ ¬(item.node?.isSome ∧ item.other?.isSome) := by
        by_contra hboth
        exact h ⟨name, s, hname, named, fun hs => by_contra fun hnone => hboth ⟨hs, hnone⟩⟩
      obtain ⟨rfl, hnone⟩ := hs
      cases hnode : item.node? with
      | none => exact ⟨_, .noNode hname named hnode⟩
      | some node =>
        cases hother : item.other? with
        | none => exact ⟨_, .noOther hname named hnode hother⟩
        | some other => simp [hnode, hother] at hnone
    · exact ⟨_, .unknown hname (not_exists.1 hnamed)⟩

/-- **An item is resolved to what it asks for.** -/
theorem instruction_eq_ok_iff : item.instruction = .ok i ↔ item.Asks i := by
  refine ⟨fun h => ?_, instruction_of_asks⟩
  by_cases hitem : item.IsResolvable
  · obtain ⟨j, asks⟩ := isResolvable_iff.1 hitem
    obtain rfl : j = i := Except.ok.inj ((instruction_of_asks asks).symm.trans h)
    exact asks
  · obtain ⟨fault, misfit⟩ := exists_misfit hitem
    rw [instruction_of_misfit misfit] at h
    cases h

/-- **An item that is not resolved fails with what is wrong with it.** -/
theorem instruction_eq_error_iff : item.instruction = .error fault ↔ item.Misfit fault := by
  refine ⟨fun h => ?_, instruction_of_misfit⟩
  by_cases hitem : item.IsResolvable
  · obtain ⟨i, asks⟩ := isResolvable_iff.1 hitem
    rw [instruction_of_asks asks] at h
    cases h
  · obtain ⟨cause, misfit⟩ := exists_misfit hitem
    obtain rfl : cause = fault := Except.error.inj ((instruction_of_misfit misfit).symm.trans h)
    exact misfit

/-- What is wrong with an item, if anything is. -/
def fault? (item : Item) : Option Fault :=
  match item.instruction with
  | .error fault => some fault
  | .ok _ => none

/-- What an item comes to in its round; nothing if it cannot be resolved. -/
def steps (item : Item) : List Instruction :=
  match item.instructions with
  | .error _ => []
  | .ok steps => steps

theorem fault?_eq_some_iff : item.fault? = some fault ↔ item.Misfit fault := by
  rw [← instruction_eq_error_iff, fault?]
  cases item.instruction <;> simp

theorem fault?_eq_none_iff : item.fault? = none ↔ item.IsResolvable := by
  simp only [isResolvable_iff, ← instruction_eq_ok_iff, fault?]
  cases item.instruction <;> simp

theorem instructions_eq (item : Item) :
    item.instructions =
      match item.fault? with
      | some fault => .error fault
      | none => .ok item.steps := by
  rw [steps, instructions, fault?]
  cases item.instruction <;> rfl

/-- An item comes to as many copies of its instruction as it counts, or to one. -/
theorem steps_of_asks (asks : item.Asks i) :
    item.steps = List.replicate (item.count?.getD 1) i.writtenOut := by
  simp only [steps, instructions, instruction_of_asks asks, Instruction.times_eq]

end Item

/-! ## Rounds of items -/

/-- A round fails with the first fault of its items, or has all of them written out. -/
theorem Round.ofItems_eq (items : List Item) :
    Round.ofItems items =
      match items.findSome? Item.fault? with
      | some fault => .error fault
      | none => .ok (items.flatMap Item.steps) := by
  induction items with
  | nil => rfl
  | cons item rest ih =>
    rw [Round.ofItems, Item.instructions_eq, List.findSome?_cons, ih]
    cases item.fault? with
    | some fault => rfl
    | none => cases rest.findSome? Item.fault? <;> rfl

/-- **Rounds fail with the first fault in any of them, or are written out one by one.** -/
theorem Round.allOfItems_eq (rounds : List (List Item)) :
    Round.allOfItems rounds =
      match rounds.flatten.findSome? Item.fault? with
      | some fault => .error fault
      | none => .ok (rounds.map (·.flatMap Item.steps)) := by
  induction rounds with
  | nil => rfl
  | cons items rest ih =>
    rw [Round.allOfItems, Round.ofItems_eq, List.flatten_cons, List.findSome?_append, ih]
    cases items.findSome? Item.fault? with
    | some fault => rfl
    | none => cases rest.flatten.findSome? Item.fault? <;> rfl

theorem Pattern.ofItems_eq (rounds : List (List Item)) :
    Pattern.ofItems rounds =
      match rounds.flatten.findSome? Item.fault? with
      | some fault => .error fault
      | none => .ok ⟨rounds.map (·.flatMap Item.steps)⟩ := by
  rw [Pattern.ofItems, Round.allOfItems_eq]
  cases rounds.flatten.findSome? Item.fault? <;> rfl

/-- **A pattern is made of what the items of a document ask for.**  It is made if all of them can be
resolved, whatever they count.  Then each round of items is one round of the pattern, in which every
item stands as often as it counts.  Otherwise the first item that cannot be resolved is at fault.
Lists have no largest length here: a count of more stitches than memory can hold, for which no
pattern can be built in practice, is outside of what is described. -/
theorem Pattern.ofItems_resolves (rounds : List (List Item)) :
    ((∃ pattern, ofItems rounds = .ok pattern) ↔
        ∀ items ∈ rounds, ∀ item ∈ items, item.IsResolvable) ∧
      (∀ pattern, ofItems rounds = .ok pattern →
        pattern.rounds.length = rounds.length ∧
          ∃ asked : Item → Instruction,
            (∀ items ∈ rounds, ∀ item ∈ items, item.Asks (asked item)) ∧
            pattern.rounds = rounds.map fun items => items.flatMap fun item =>
              List.replicate (item.count?.getD 1) (asked item).writtenOut) ∧
      ∀ fault, ofItems rounds = .error fault ↔
        ∃ before item after, rounds.flatten = before ++ item :: after ∧
          (∀ other ∈ before, other.IsResolvable) ∧ item.Misfit fault := by
  have hall : rounds.flatten.findSome? Item.fault? = none ↔
      ∀ items ∈ rounds, ∀ item ∈ items, item.IsResolvable := by
    simp only [List.findSome?_eq_none_iff, List.forall_mem_flatten, Item.fault?_eq_none_iff]
  have hfirst (fault : Fault) : rounds.flatten.findSome? Item.fault? = some fault ↔
      ∃ before item after, rounds.flatten = before ++ item :: after ∧
        (∀ other ∈ before, other.IsResolvable) ∧ item.Misfit fault := by
    simp only [List.findSome?_eq_some_iff, Item.fault?_eq_some_iff, Item.fault?_eq_none_iff,
      and_comm]
  simp only [ofItems_eq, ← hall, ← hfirst]
  cases hfault : rounds.flatten.findSome? Item.fault? with
  | some fault => simp
  | none =>
    refine ⟨by simp, ?_, by simp⟩
    rintro _ ⟨⟩
    have hasks : ∀ item ∈ rounds.flatten, ∃ i, item.Asks i := by
      simpa only [List.forall_mem_flatten, Item.isResolvable_iff] using hall.1 hfault
    choose! asked hasked using hasks
    refine ⟨List.length_map _, asked, List.forall_mem_flatten.1 hasked, ?_⟩
    refine List.map_congr_left fun items hitems => List.flatMap_congr fun item hitem => ?_
    exact Item.steps_of_asks (hasked item (List.mem_flatten_of_mem hitems hitem))

/-- A ring and a round into it, with blanks, small letters and a seam that is counted out.  Without
its second node the seam is at fault, though it is counted out and another item is unknown. -/
theorem Pattern.ofItems_resolves_seam :
    ∃ (ring stitches seam sewn : Item) (asked : Item → Instruction),
      ring.name? = some " Lp\t" ∧ seam.count? = some 0 ∧ sewn = { seam with other? := some 1 } ∧
      ofItems [[ring], [stitches, sewn]] = .ok ⟨[[.loop], [.increase, .increase]]⟩ ∧
      stitches.Asks (asked stitches) ∧
      [.increase, .increase] = List.replicate 2 (asked stitches).writtenOut ∧
      ofItems [[ring], [stitches, seam, { name? := some "HDC " }]] =
        .error (.missingField .joinInstruction "with") := by
  let ring : Item := { name? := some " Lp\t" }
  let stitches : Item := { name? := some "mr", count? := some 2 }
  let seam : Item := { name? := some "JOIN", count? := some 0, node? := some 0 }
  let sewn : Item := { seam with other? := some 1 }
  have hmade : ofItems [[ring], [stitches, sewn]] = .ok ⟨[[.loop], [.increase, .increase]]⟩ := rfl
  obtain ⟨-, asked, hasked, hrounds⟩ := (ofItems_resolves _).2.1 _ hmade
  have hstitches := hasked [stitches, sewn] (by simp) stitches List.mem_cons_self
  have hround := congrArg (·[1]?) hrounds
  have hbefore : ∀ other ∈ [ring, stitches], other.IsResolvable := by
    simp only [List.forall_mem_cons, Item.isResolvable_iff, ← Item.instruction_eq_ok_iff]
    exact ⟨⟨_, rfl⟩, ⟨_, rfl⟩, List.forall_mem_nil _⟩
  have hseam : seam.Misfit (.missingField .joinInstruction "with") :=
    Item.instruction_eq_error_iff.1 rfl
  have hfails := ((ofItems_resolves [[ring], [stitches, seam, { name? := some "HDC " }]]).2.2 _).2
    ⟨[ring, stitches], seam, [{ name? := some "HDC " }], rfl, hbefore, hseam⟩
  exact ⟨ring, stitches, seam, sewn, asked, rfl, rfl, rfl, hmade, hstitches,
    by simpa [stitches, sewn, seam] using hround, hfails⟩

end Crochet
