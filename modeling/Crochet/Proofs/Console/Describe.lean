import Crochet.Console.Program
import Crochet.Proofs.Figure.Execution
import Mathlib.Data.List.Basic

/-!
# Describing and checking agree

A document is described in three steps: it is read, all its commands are carried out, and then every
pattern command is looked at once more, which could fail after a part of the lines is printed.  It
never does, because a command that was carried out has a number and a pattern with a meaning
(`advised_of_executeAll`).  So a document can be described exactly if it can be checked.

* `run_print`: a task that prints a printout prints its lines and then ends as it says.
* `eq_or_put_of_executeAll`: a figure was made by its last command, which named the current part.
* `exists_marked`: of the parts of a figure exactly the current one is marked.
* `info_agrees_with_check`: what the two tasks print, and how they end.
-/

namespace Crochet

namespace Program

/-! ## Printing -/

section

variable {m : Type → Type} [Monad m] [LawfulMonad m]

/-- How a task ends that prints a printout. -/
def outcome (printout : Printout) : Except Failure Unit :=
  match printout.failure? with
  | some failure => .error failure
  | none => .ok ()

theorem forIn_say (host : Host m) (lines : List String) :
    (forIn lines PUnit.unit fun line _ => do
      (liftM (host.say line) : ExceptT Failure m PUnit)
      pure (ForInStep.yield PUnit.unit)) = liftM (lines.forM host.say) := by
  induction lines with
  | nil =>
    rw [List.forIn_nil]
    exact (monadLift_pure PUnit.unit).symm
  | cons line rest ih =>
    have hlift := liftM_bind (n := ExceptT Failure m) (host.say line) fun _ => rest.forM host.say
    rw [List.forIn_cons, bind_assoc]
    simp only [pure_bind, ih]
    exact hlift.symm

/-- **A printout is printed line by line, and then the task ends as it says.** -/
theorem run_print (host : Host m) (printout : Printout) :
    (print host printout).run = (do
      printout.lines.forM host.say
      pure (outcome printout)) := by
  rw [print, forIn_say]
  refine (ExceptT.run_bind_lift (printout.lines.forM host.say) _).trans ?_
  rw [outcome]
  cases printout.failure? <;> rfl

variable {host : Host m} {input : String} {text : List Char}

theorem run_info (readable : host.read input = pure (.ok text)) :
    (info host input).run = (do
      (Describe.info input text).lines.forM host.say
      pure (outcome (Describe.info input text))) := by
  refine (ExceptT.run_bind_lift (host.read input) _).trans ?_
  rw [readable, pure_bind]
  exact run_print host _

theorem run_check (readable : host.read input = pure (.ok text)) :
    (check host input).run = (do
      (Describe.check text).lines.forM host.say
      pure (outcome (Describe.check text))) := by
  have hload : (load host input).run = pure (.ok text) := by
    refine (ExceptT.run_bind_lift (host.read input) _).trans ?_
    rw [readable, pure_bind]
    rfl
  rw [check, ExceptT.run_bind, hload, pure_bind]
  exact run_print host _

end

end Program

namespace Figure

/-! ## Commands that were carried out -/

variable {f g : Figure}

theorem executeAll_cons_eq_ok {index : Nat} {command : Command} {rest : List Command}
    (h : f.executeAll index (command :: rest) = .ok g) :
    ∃ next, f.execute command = .ok next ∧ next.executeAll (index + 1) rest = .ok g := by
  rw [executeAll] at h
  cases hexecute : f.execute command with
  | error fault => simp [hexecute] at h
  | ok next => exact ⟨next, rfl, by simpa [hexecute] using h⟩

/-- A figure is what it was, or was made by the last command. -/
theorem eq_or_put_of_executeAll {index : Nat} {commands : List Command}
    (h : f.executeAll index commands = .ok g) :
    g = f ∨ ∃ before id fabric, g = put before id fabric := by
  induction commands generalizing f index with
  | nil => exact .inl (Except.ok.inj h).symm
  | cons command rest ih =>
    obtain ⟨next, hexecute, hrest⟩ := executeAll_cons_eq_ok h
    obtain rfl | made := ih hrest
    · obtain ⟨id, fabric, -, rfl⟩ := execute_eq_ok_iff.1 hexecute
      exact .inr ⟨f, id, fabric, rfl⟩
    · exact .inr made

end Figure

namespace Describe

/-! ## Blocks -/

/-- The lines of a block below its head. -/
def counts (fabric : Fabric) : List String :=
  ["  Nodes: " ++ toString fabric.size, "  Edges: " ++ toString fabric.edges.size,
    "  Faces: " ++ toString fabric.faces.size, "  Joints: " ++ toString fabric.joints.size,
    "  Live stitches: " ++ toString fabric.outline.length,
    "  Stitches worked: " ++ toString fabric.consumed]

/-- The block of a part that is not marked. -/
def plain (entry : Nat × Fabric) : List String :=
  ("Part " ++ toString entry.1 ++ ":") :: counts entry.2

/-- The block of a part that is marked as the current one. -/
def marked (entry : Nat × Fabric) : List String :=
  ("Part " ++ toString entry.1 ++ " (current):") :: counts entry.2

theorem part_true (id : Nat) (fabric : Fabric) : part id fabric true = marked (id, fabric) :=
  congrArg (· :: counts fabric) (String.append_assoc ..)

theorem part_false (id : Nat) (fabric : Fabric) : part id fabric false = plain (id, fabric) :=
  congrArg (fun head => (head ++ ":") :: counts fabric) String.append_empty

theorem flatMap_part_of_ne {current : Nat} {entries : List (Nat × Fabric)}
    (hne : ∀ entry ∈ entries, entry.1 ≠ current) :
    (entries.flatMap fun entry => part entry.1 entry.2 (some current == some entry.1)) =
      entries.flatMap plain :=
  List.flatMap_congr fun entry hmem => by
    rw [beq_eq_false_iff_ne.2 fun h => hne entry hmem (Option.some.inj h).symm, part_false]

/-- **Exactly one part is marked**, the current one, if it is there. -/
theorem exists_marked {figure : Figure} {id : Nat} {fabric : Fabric}
    (hcurrent : figure.current? = some id) (hpart : figure.part? id = some fabric) :
    ∃ before after, figure.parts.entries = before ++ (id, fabric) :: after ∧
      parts figure = before.flatMap plain ++ marked (id, fabric) ++ after.flatMap plain := by
  obtain ⟨before, after, hentries, hbefore⟩ := List.lookup_eq_some_iff.1 hpart
  have hascending := figure.parts.ascending
  rw [hentries, List.pairwise_append] at hascending
  have hafter := (List.pairwise_cons.1 hascending.2.1).1
  have hmarked : part id fabric (some id == some id) = marked (id, fabric) := by
    rw [beq_self_eq_true, part_true]
  refine ⟨before, after, hentries, ?_⟩
  rw [parts, hcurrent, hentries, List.flatMap_append, List.flatMap_cons, flatMap_part_of_ne,
    flatMap_part_of_ne, hmarked, List.append_assoc]
  · exact fun entry hmem => Nat.ne_of_gt (hafter entry hmem)
  · exact fun entry hmem heq => by simpa [heq] using hbefore entry hmem

/-- The blocks of a figure that a document has built. -/
theorem blocks_of_ofDocument {document : Document} {figure : Figure}
    (h : Figure.ofDocument document = .ok figure) :
    figure.parts.entries = [] ∧ parts figure = [] ∨
      ∃ before id fabric after, figure.parts.entries = before ++ (id, fabric) :: after ∧
        figure.current? = some id ∧
        parts figure = before.flatMap plain ++ marked (id, fabric) ++ after.flatMap plain := by
  obtain rfl | ⟨before, id, fabric, rfl⟩ := Figure.eq_or_put_of_executeAll h
  · exact .inl ⟨rfl, rfl⟩
  · obtain ⟨front, back, hentries, hblocks⟩ :=
      exists_marked rfl (Figure.part?_put_self before id fabric)
    exact .inr ⟨front, id, fabric, back, hentries, rfl, hblocks⟩

/-! ## Advice -/

/-- One line for every pattern command, with its number, the number of a part and what counting says
about the pattern that it means. -/
inductive Advised : Nat → List Command → List String → Prop
  | nil (index : Nat) : Advised index [] []
  | join {index : Nat} {rest : List Command} {lines : List String}
      (first? second? made? : Option Nat) (advised : Advised (index + 1) rest lines) :
      Advised index (.join first? second? made? :: rest) lines
  | pattern {index id : Nat} {rounds : List (List Item)} {pattern : Pattern}
      {rest : List Command} {lines : List String} (meaning : Pattern.ofItems rounds = .ok pattern)
      (advised : Advised (index + 1) rest lines) :
      Advised index (.pattern (some id) rounds :: rest)
        (("Command " ++ toString index ++ " (part " ++ toString id ++ "): " ++
          toString pattern.rounds.length ++ " rounds, stitch counts " ++
          if pattern.isConsistent then "consistent" else "INCONSISTENT") :: lines)

/-- **Commands that were carried out are advised on without a failure.** -/
theorem advised_of_executeAll {f g : Figure} {index : Nat} {commands : List Command}
    (h : f.executeAll index commands = .ok g) (first : Nat) :
    ∃ lines, advices first commands = ⟨lines, none⟩ ∧ Advised first commands lines := by
  induction commands generalizing f index first with
  | nil => exact ⟨[], rfl, .nil first⟩
  | cons command rest ih =>
    obtain ⟨next, hexecute, hrest⟩ := Figure.executeAll_cons_eq_ok h
    obtain ⟨lines, hlines, advised⟩ := ih hrest (first + 1)
    obtain ⟨_, _, makes, -⟩ := Figure.execute_eq_ok_iff.1 hexecute
    cases makes with
    | pattern meaning _ =>
      refine ⟨_, ?_, .pattern meaning advised⟩
      rw [advices, meaning, hlines]
      rfl
    | join _ _ => exact ⟨lines, hlines, .join _ _ _ advised⟩

/-! ## The two printouts -/

variable (path : String) {text : List Char}

theorem of_read_eq_error {fault : Fault} (h : Figure.read text = .error fault) :
    info path text = .ofFault fault ∧ check text = .ofFault fault := by
  refine ⟨?_, by rw [check, h]⟩
  rw [Figure.read] at h
  rw [info]
  cases hread : Document.read text with
  | error cause => rw [← (by simpa [hread] using h : cause = fault)]
  | ok document =>
    have hfault : Figure.ofDocument document = .error fault := by simpa [hread] using h
    simp only [hfault]

theorem of_read_eq_ok {figure : Figure} (h : Figure.read text = .ok figure) :
    check text = ⟨["OK: " ++ toString figure.parts.size ++ " parts"], none⟩ ∧
    ∃ document lines, Document.read text = .ok document ∧
      Figure.ofDocument document = .ok figure ∧ Advised 0 document.commands lines ∧
      info path text = ⟨["File: " ++ path, "Commands: " ++ toString document.commands.length,
        "Parts: " ++ toString figure.parts.size] ++ parts figure ++ lines, none⟩ := by
  refine ⟨by rw [check, h], ?_⟩
  rw [Figure.read] at h
  cases hread : Document.read text with
  | error cause => simp [hread] at h
  | ok document =>
    have hfigure : Figure.ofDocument document = .ok figure := by simpa [hread] using h
    obtain ⟨lines, hlines, advised⟩ := advised_of_executeAll hfigure 0
    refine ⟨document, lines, rfl, hfigure, advised, ?_⟩
    simp only [info, hread, hfigure, hlines]
    rfl

end Describe

/-! ## The two tasks -/

/-- **Describing a document and checking it agree.**  Both tasks end in the same way.  If they fail,
they have printed nothing.  If not, they print the same number of parts, and a description has one
block for each part, in the order of their numbers, each headed by the number; exactly one head is
marked, that of the current part, if there is any part.  Behind the blocks is one line for each
pattern command, which shows the number of its part. -/
theorem Program.info_agrees_with_check (path : String) (text : List Char) :
    ∃ (result : Except Failure Unit) (infoLines checkLines : List String),
      (∀ {m : Type → Type} [Monad m] [LawfulMonad m] (host : Host m),
        host.read path = pure (.ok text) →
          (info host path).run = (do infoLines.forM host.say; pure result) ∧
          (check host path).run = (do checkLines.forM host.say; pure result)) ∧
      match Figure.read text with
      | .error fault => result = .error (.fault fault) ∧ infoLines = [] ∧ checkLines = []
      | .ok figure =>
        result = .ok () ∧
        checkLines = ["OK: " ++ toString figure.parts.entries.length ++ " parts"] ∧
        ∃ document blocks advices, Document.read text = .ok document ∧
          infoLines = ["File: " ++ path, "Commands: " ++ toString document.commands.length,
            "Parts: " ++ toString figure.parts.entries.length] ++ blocks ++ advices ∧
          figure.parts.entries.Pairwise (·.1 < ·.1) ∧
          (figure.parts.entries = [] ∧ blocks = [] ∨
            ∃ before id fabric after, figure.parts.entries = before ++ (id, fabric) :: after ∧
              figure.current? = some id ∧
              blocks = before.flatMap Describe.plain ++ Describe.marked (id, fabric) ++
                after.flatMap Describe.plain) ∧
          Describe.Advised 0 document.commands advices := by
  have hruns {m : Type → Type} [Monad m] [LawfulMonad m] (host : Host m)
      (readable : host.read path = pure (.ok text)) :=
    And.intro (run_info readable) (run_check readable)
  cases hread : Figure.read text with
  | error fault =>
    obtain ⟨hinfo, hcheck⟩ := Describe.of_read_eq_error path hread
    rw [hinfo, hcheck] at hruns
    exact ⟨.error (.fault fault), [], [], hruns, rfl, rfl, rfl⟩
  | ok figure =>
    obtain ⟨hcheck, document, advices, hdocument, hfigure, advised, hinfo⟩ :=
      Describe.of_read_eq_ok path hread
    rw [hinfo, hcheck] at hruns
    exact ⟨.ok (), _, _, hruns, rfl, rfl, document, Describe.parts figure, advices, hdocument, rfl,
      figure.parts.ascending, Describe.blocks_of_ofDocument hfigure, advised⟩

/-- A ring is made, and joined with itself to the part before it, which is the current one. -/
theorem Program.info_agrees_with_check_rings :
    ∃ (host : Host (StateM (List String))) (text : List Char) (ring : Fabric),
      host.read "rings.json" = pure (.ok text) ∧
      (info host "rings.json").run = (do
        (["File: rings.json", "Commands: 2", "Parts: 2"] ++
          ("Part 0 (current):" :: Describe.counts (ring.join ring) ++
            "Part 1:" :: Describe.counts ring) ++
          ["Command 0 (part 1): 1 rounds, stitch counts consistent"]).forM host.say
        pure (.ok ())) ∧
      (check host "rings.json").run = (do
        ["OK: 2 parts"].forM host.say
        pure (.ok ())) := by
  let document : Document :=
    ⟨[.pattern (some 1) [[{ name? := some "LP", count? := some 1 }]],
      .join (some 1) (some 1) (some 0)]⟩
  obtain ⟨text, hread⟩ : ∃ text, (Json.read? text).bind Document.ofJson? = some document :=
    ⟨"[[[\"pattern\",1,[[[\"LP\",1,null,null]]]],[\"join\",1,1,0]]]".toList, by decide +kernel⟩
  have hdocument : Document.read text = .ok document := by rw [Document.read, hread]
  obtain ⟨ring, figure, hfigure, hentries, hcurrent⟩ : ∃ ring figure,
      Figure.read text = .ok figure ∧
        figure.parts.entries = [(0, ring.join ring), (1, ring)] ∧ figure.current? = some 0 := by
    let ring := (Fabric.empty.beginRound 1).workLoop.endRound
    refine ⟨ring, (Figure.empty.put 1 ring).put 0 (ring.join ring), ?_, rfl, rfl⟩
    rw [Figure.read, hdocument]
    rfl
  have hsize : figure.parts.entries.length = 2 := congrArg List.length hentries
  let host : Host (StateM (List String)) :=
    { read := fun _ => pure (.ok text)
      write := fun _ _ => pure none
      say := fun line => modify (· ++ [line])
      tell := fun _ => pure () }
  obtain ⟨result, infoLines, checkLines, hruns, hprints⟩ :=
    info_agrees_with_check "rings.json" text
  rw [hfigure] at hprints
  obtain ⟨rfl, rfl, _, blocks, advices, hsame, rfl, -, hblocks, advised⟩ := hprints
  obtain rfl := Except.ok.inj (hdocument.symm.trans hsame)
  rw [hentries, hcurrent] at hblocks
  obtain rfl : blocks =
      Describe.marked (0, ring.join ring) ++ Describe.plain (1, ring) := by
    obtain ⟨⟨⟩, -⟩ | ⟨before, _, fabric, after, hsplit, ⟨⟩, rfl⟩ := hblocks
    obtain rfl : before = [] := by
      cases before with
      | nil => rfl
      | cons first before => simp [List.cons_eq_append_iff] at hsplit
    cases hsplit
    rfl
  obtain rfl : advices = ["Command 0 (part 1): 1 rounds, stitch counts consistent"] := by
    have hmeaning : Pattern.ofItems [[{ name? := some "LP", count? := some 1 }]] =
        .ok ⟨[[.loop]]⟩ := rfl
    cases advised with
    | pattern meaning advised =>
      obtain rfl := Except.ok.inj (hmeaning.symm.trans meaning)
      cases advised with
      | join _ _ _ advised =>
        cases advised
        rfl
  have hheader : ["File: " ++ "rings.json", "Commands: " ++ toString document.commands.length,
      "Parts: " ++ toString 2] = ["File: rings.json", "Commands: 2", "Parts: 2"] := by
    decide +kernel
  have hmarked : "Part " ++ toString 0 ++ " (current):" = "Part 0 (current):" := by decide +kernel
  have hplain : "Part " ++ toString 1 ++ ":" = "Part 1:" := by decide +kernel
  have hcount : "OK: " ++ toString 2 ++ " parts" = "OK: 2 parts" := by decide +kernel
  obtain ⟨hinfo, hcheck⟩ := hruns host rfl
  rw [hsize, hheader, Describe.marked, Describe.plain, hmarked, hplain] at hinfo
  rw [hsize, hcount] at hcheck
  exact ⟨host, text, ring, rfl, hinfo, hcheck⟩

end Crochet
