import Crochet.Figure

/-!
# Commands change one part or none

* `execute_eq_ok_iff`: a command succeeds exactly if it makes something (`Makes`), and then makes it
  the part of its number and the current one.
* `run_perform`: a command that changes the figure in place, step by step, does the same, and leaves
  the figure alone if it fails.
* `executeAll_cases`: a list of commands stops at the first one that fails.
* `execute_changes_one_part_or_none`: the three together, for a document as a whole.
-/

namespace Crochet

namespace Figure

/-! ## What a command makes -/

/-- What a command makes of the parts there are: the number of a part, and the fabric that is to be
that part. -/
inductive Makes (f : Figure) : Command → Nat → Fabric → Prop
  | pattern {id : Nat} {rounds : List (List Item)} {pattern : Pattern} {fabric : Fabric}
      (meaning : Pattern.ofItems rounds = .ok pattern)
      (works : ((f.part? id).getD .empty).append pattern = .ok fabric) :
      Makes f (.pattern (some id) rounds) id fabric
  | join {first second made : Nat} {a b : Fabric} (hfirst : f.part? first = some a)
      (hsecond : f.part? second = some b) :
      Makes f (.join (some first) (some second) (some made)) made (a.join b)

variable {f g : Figure}

theorem part?_put (f : Figure) (id other : Nat) (fabric : Fabric) :
    (f.put id fabric).part? other = if other = id then some fabric else f.part? other :=
  Index.find?_insert f.parts id other fabric

@[simp] theorem part?_put_self (f : Figure) (id : Nat) (fabric : Fabric) :
    (f.put id fabric).part? id = some fabric := by
  rw [part?_put, if_pos rfl]

theorem needPart_eq_ok_iff {id : Nat} {fabric : Fabric} :
    f.needPart id = .ok fabric ↔ f.part? id = some fabric := by
  rw [needPart]
  cases f.part? id <;> simp

theorem workPattern_eq_ok_iff {id : Nat} {rounds : List (List Item)} :
    f.workPattern (some id) rounds = .ok g ↔
      ∃ pattern fabric, Pattern.ofItems rounds = .ok pattern ∧
        ((f.part? id).getD .empty).append pattern = .ok fabric ∧ g = f.put id fabric := by
  rw [workPattern]
  cases Pattern.ofItems rounds with
  | error fault => simp
  | ok pattern =>
    cases happend : ((f.part? id).getD .empty).append pattern with
    | error halt => simp [happend]
    | ok fabric => simpa [happend] using eq_comm

theorem joinParts_eq_ok_iff {first second made : Nat} :
    f.joinParts first second made = .ok g ↔ ∃ a b, f.part? first = some a ∧
      f.part? second = some b ∧ g = f.put made (a.join b) := by
  rw [joinParts]
  cases hfirst : f.needPart first with
  | error fault => simp [← needPart_eq_ok_iff, hfirst]
  | ok a =>
    cases hsecond : f.needPart second with
    | error fault => simp [← needPart_eq_ok_iff, hfirst, hsecond]
    | ok b => simpa [← needPart_eq_ok_iff, hfirst, hsecond] using eq_comm

/-- **A command succeeds exactly if it makes something.** -/
theorem execute_eq_ok_iff {command : Command} :
    f.execute command = .ok g ↔ ∃ id fabric, f.Makes command id fabric ∧ g = f.put id fabric := by
  constructor
  · intro h
    match command, h with
    | .pattern none _, h => cases h
    | .pattern (some id) rounds, h =>
      obtain ⟨pattern, fabric, meaning, works, rfl⟩ := workPattern_eq_ok_iff.1 h
      exact ⟨id, fabric, .pattern meaning works, rfl⟩
    | .join none _ _, h => cases h
    | .join (some _) none _, h => cases h
    | .join (some _) (some _) none, h => cases h
    | .join (some first) (some second) (some made), h =>
      obtain ⟨a, b, hfirst, hsecond, rfl⟩ := joinParts_eq_ok_iff.1 h
      exact ⟨made, a.join b, .join hfirst hsecond, rfl⟩
  · rintro ⟨id, fabric, makes, rfl⟩
    cases makes with
    | pattern meaning works => exact workPattern_eq_ok_iff.2 ⟨_, _, meaning, works, rfl⟩
    | join hfirst hsecond => exact joinParts_eq_ok_iff.2 ⟨_, _, hfirst, hsecond, rfl⟩

/-! ## Changing a figure in place -/

/-- A field that a command must have. -/
def needField (entry : Entry) (field : String) : Option Nat → Except Fault Nat
  | none => .error (.missingField entry field)
  | some id => .ok id

/-- The fabric with a pattern worked onto it, or the fault that stops the work. -/
def workOnto (fabric : Fabric) (pattern : Pattern) : Except Fault Fabric :=
  match fabric.append pattern with
  | .error halt => .error halt.fault
  | .ok fabric => .ok fabric

/-- A command that changes a figure in place.  Where it fails it stops, and the figure is left with
the changes made up to there. -/
def perform : Command → ExceptT Fault (StateM Figure) Unit
  | .pattern id? rounds => do
    let id ← needField .patternCommand "id" id?
    let pattern ← Pattern.ofItems rounds
    let fabric ← workOnto (((← get).part? id).getD .empty) pattern
    modify fun f => { f with parts := f.parts.insert id fabric }
    modify fun f => { f with current? := some id }
  | .join first? second? made? => do
    let first ← needField .joinCommand "pattern" first?
    let second ← needField .joinCommand "with" second?
    let made ← needField .joinCommand "make" made?
    let a ← (← get).needPart first
    let b ← (← get).needPart second
    modify fun f => { f with parts := f.parts.insert made (a.join b) }
    modify fun f => { f with current? := some made }

section Run

variable {α β : Type} (f : Figure)

/-- A step that only looks passes its fault or its result on, with the figure as it was. -/
theorem run_liftM_bind (step : Except Fault α) (rest : α → ExceptT Fault (StateM Figure) β) :
    (liftM step >>= rest : ExceptT Fault (StateM Figure) β).run.run f =
      match step with
      | .error fault => (.error fault, f)
      | .ok a => (rest a).run.run f := by
  cases step <;> rfl

theorem run_get_bind (rest : Figure → ExceptT Fault (StateM Figure) β) :
    (get >>= rest : ExceptT Fault (StateM Figure) β).run.run f = (rest f).run.run f :=
  rfl

theorem run_modify_modify (change further : Figure → Figure) :
    (do modify change; modify further : ExceptT Fault (StateM Figure) Unit).run.run f =
      (.ok (), further (change f)) :=
  rfl

end Run

/-- **A command that fails leaves the figure it works on as it was.**  Everything that can fail
comes before the first change. -/
theorem run_perform (command : Command) (f : Figure) :
    (perform command).run.run f =
      match f.execute command with
      | .error fault => (.error fault, f)
      | .ok g => (.ok (), g) := by
  match command with
  | .pattern none _ => rfl
  | .pattern (some id) rounds =>
    simp only [perform, needField, run_liftM_bind, run_get_bind, run_modify_modify, execute,
      workPattern]
    cases Pattern.ofItems rounds with
    | error fault => rfl
    | ok pattern =>
      cases happend : ((f.part? id).getD .empty).append pattern with
      | error halt => simp only [workOnto, happend]
      | ok fabric => simp only [workOnto, happend, put]
  | .join none _ _ => rfl
  | .join (some _) none _ => rfl
  | .join (some _) (some _) none => rfl
  | .join (some first) (some second) (some made) =>
    simp only [perform, needField, run_liftM_bind, run_get_bind, run_modify_modify, execute,
      joinParts]
    cases f.needPart first with
    | error fault => rfl
    | ok a =>
      cases f.needPart second with
      | error fault => rfl
      | ok b => rfl

/-! ## Documents -/

theorem foldlM_execute_cons (f : Figure) (command : Command) (rest : List Command) :
    (command :: rest).foldlM execute f =
      match f.execute command with
      | .error fault => .error fault
      | .ok g => rest.foldlM execute g := by
  rw [List.foldlM_cons]
  cases f.execute command <;> rfl

/-- A list of commands carries them all out, or stops at the first one that fails on what those
before it have made. -/
theorem executeAll_cases (f : Figure) (index : Nat) (commands : List Command) :
    (∃ g, commands.foldlM execute f = .ok g ∧ f.executeAll index commands = .ok g) ∨
      ∃ before command after g fault, commands = before ++ command :: after ∧
        before.foldlM execute f = .ok g ∧ g.execute command = .error fault ∧
        f.executeAll index commands = .error (.inCommand (index + before.length) fault) := by
  induction commands generalizing f index with
  | nil => exact .inl ⟨f, rfl, rfl⟩
  | cons command rest ih =>
    cases hexecute : f.execute command with
    | error fault =>
      exact .inr ⟨[], command, rest, f, fault, rfl, rfl, hexecute, by simp [executeAll, hexecute]⟩
    | ok g =>
      -- The rest starts from what the first command has made.
      have hall : f.executeAll index (command :: rest) = g.executeAll (index + 1) rest := by
        rw [executeAll, hexecute]
      have hfold (commands : List Command) :
          (command :: commands).foldlM execute f = commands.foldlM execute g := by
        rw [foldlM_execute_cons, hexecute]
      rcases ih g (index + 1) with
        ⟨h, hrest, hdone⟩ | ⟨before, failed, after, h, fault, rfl, hbefore, hfault, hstop⟩
      · exact .inl ⟨h, (hfold rest).trans hrest, hall.trans hdone⟩
      · refine .inr ⟨command :: before, failed, after, h, fault, rfl, (hfold before).trans hbefore,
          hfault, hall.trans ?_⟩
        rw [hstop, List.length_cons, Nat.add_assoc, Nat.add_comm 1]

/-- The current part, if one is named, is there. -/
def CurrentExists (f : Figure) : Prop :=
  ∀ id, f.current? = some id → ∃ fabric, f.part? id = some fabric

theorem CurrentExists.empty : empty.CurrentExists := nofun

theorem CurrentExists.put (f : Figure) (id : Nat) (fabric : Fabric) :
    (f.put id fabric).CurrentExists := by
  rintro _ ⟨⟩
  exact ⟨fabric, part?_put_self f id fabric⟩

/-- Every command makes the part that it names the current one. -/
theorem CurrentExists.foldlM {commands : List Command} (hf : f.CurrentExists)
    (hall : commands.foldlM execute f = .ok g) : g.CurrentExists := by
  induction commands generalizing f with
  | nil => cases hall; exact hf
  | cons command rest ih =>
    rw [foldlM_execute_cons] at hall
    cases hexecute : f.execute command with
    | error fault => simp [hexecute] at hall
    | ok h =>
      rw [hexecute] at hall
      obtain ⟨id, fabric, -, rfl⟩ := execute_eq_ok_iff.1 hexecute
      exact ih (.put f id fabric) hall

/-- **A command changes one part or none, and a document stops at the first command that fails.**  A
command that fails leaves the figure as it was; one that succeeds puts what it makes of the parts
there were in the place it names, makes that the current part, and changes no other part. -/
theorem execute_changes_one_part_or_none :
    (∀ (f : Figure) (command : Command),
      match f.execute command with
      | .error fault =>
        (perform command).run.run f = (.error fault, f) ∧ ¬∃ id fabric, f.Makes command id fabric
      | .ok g =>
        (perform command).run.run f = (.ok (), g) ∧
        ∃ id fabric, f.Makes command id fabric ∧ g.current? = some id ∧ g.part? id = some fabric ∧
          ∀ other, other ≠ id → g.part? other = f.part? other) ∧
    ∀ document : Document,
      (∃ g, document.commands.foldlM execute empty = .ok g ∧ ofDocument document = .ok g ∧
        ∀ id, g.current? = some id → ∃ fabric, g.part? id = some fabric) ∨
      ∃ before command after g fault, document.commands = before ++ command :: after ∧
        before.foldlM execute empty = .ok g ∧ g.execute command = .error fault ∧
        ofDocument document = .error (.inCommand before.length fault) := by
  refine ⟨fun f command => ?_, fun document => ?_⟩
  · have hrun := run_perform command f
    cases hexecute : f.execute command with
    | error fault =>
      rw [hexecute] at hrun
      refine ⟨hrun, fun ⟨id, fabric, makes⟩ => ?_⟩
      cases hexecute.symm.trans (execute_eq_ok_iff.2 ⟨id, fabric, makes, rfl⟩)
    | ok g =>
      rw [hexecute] at hrun
      obtain ⟨id, fabric, makes, rfl⟩ := execute_eq_ok_iff.1 hexecute
      refine ⟨hrun, id, fabric, makes, rfl, part?_put_self f id fabric, fun other hne => ?_⟩
      rw [part?_put, if_neg hne]
  · rcases executeAll_cases empty 0 document.commands with
      ⟨g, hall, hdone⟩ | ⟨before, command, after, g, fault, hcommands, hbefore, hfault, hstop⟩
    · exact .inl ⟨g, hall, hdone, CurrentExists.empty.foldlM hall⟩
    · rw [Nat.zero_add] at hstop
      exact .inr ⟨before, command, after, g, fault, hcommands, hbefore, hfault, hstop⟩

/-- A ring is joined with itself and stays a part beside the result, which is then joined with a
part that does not exist. -/
theorem execute_changes_one_part_or_none_rings :
    ∃ f g : Figure, empty.execute (.pattern (some 1) [[{ name? := some "LP" }]]) = .ok f ∧
      f.execute (.join (some 1) (some 1) (some 2)) = .ok g ∧
      g.current? = some 2 ∧ g.part? 1 = f.part? 1 ∧
      (perform (.join (some 2) (some 9) (some 2))).run.run g = (.error (.noSuchPart 9), g) := by
  let ring := (Fabric.empty.beginRound 1).workLoop.endRound
  let f := empty.put 1 ring
  let g := f.put 2 (ring.join ring)
  have hjoin : f.execute (.join (some 1) (some 1) (some 2)) = .ok g := rfl
  have hfails : g.execute (.join (some 2) (some 9) (some 2)) = .error (.noSuchPart 9) := rfl
  have hmade := execute_changes_one_part_or_none.1 f (.join (some 1) (some 1) (some 2))
  have hkept := execute_changes_one_part_or_none.1 g (.join (some 2) (some 9) (some 2))
  rw [hjoin] at hmade
  rw [hfails] at hkept
  obtain ⟨-, id, fabric, makes, hcurrent, -, hothers⟩ := hmade
  cases makes
  exact ⟨f, g, rfl, hjoin, hcurrent, hothers 1 (by decide), hkept.1⟩

end Figure

end Crochet
