import Crochet.Relax.Report
import Mathlib.Data.List.Sort

/-!
# Watching a run

A watched run is the run itself behind its reports.  `runWatched_eq` takes the two apart: first all
reports that are due, in ascending order of the ticks, and then the body that the run alone comes
to.  What a watcher does with the reports is left open, so this holds in any lawful monad.  A report
is due after every tick that the interval divides and after the last one, so that
`runWatched_reports` can say what a watcher is told without going through the run.
-/

namespace Crochet

/-- The reports that are due after `count` ticks of a run of `total`, the first of them being tick
`first`. -/
def Report.due (interval total first count : Nat) : List Report :=
  ((List.range' first count).filter (isDue interval · total)).map (⟨·, total, "Relaxing"⟩)

/-- The ticks of a run of `total` after which a report is due, in ascending order. -/
def Report.dueTicks (interval total : Nat) : List Nat :=
  (List.range' 1 total).filter (isDue interval · total)

theorem Report.due_one (interval total : Nat) :
    due interval total 1 total = (dueTicks interval total).map (⟨·, total, "Relaxing"⟩) := rfl

theorem Report.isDue_iff {interval current total : Nat} :
    isDue interval current total = true ↔ current = total ∨ max interval 1 ∣ current := by
  simp [isDue, spacing, Nat.dvd_iff_mod_eq_zero]

theorem Report.mem_dueTicks {interval total t : Nat} :
    t ∈ dueTicks interval total ↔
      1 ≤ t ∧ t ≤ total ∧ (t = total ∨ max interval 1 ∣ t) := by
  rw [dueTicks, List.mem_filter, List.mem_range'_1, isDue_iff, and_assoc, Nat.lt_one_add_iff]

/-- No tick is reported twice, and none before an earlier one. -/
theorem Report.pairwise_dueTicks (interval total : Nat) :
    (dueTicks interval total).Pairwise (· < ·) :=
  (List.pairwise_lt_range' 1).filter _

/-- With the one before the first tick, the reports are those of the ticks before the last, and the
last. -/
theorem Report.cons_dueTicks (interval total : Nat) :
    0 :: dueTicks interval total =
      (List.range total).filter (isDue interval · total) ++ [total] := by
  have hzero : isDue interval 0 total = true := isDue_iff.mpr (Or.inr ⟨0, rfl⟩)
  have htotal : isDue interval total total = true := isDue_iff.mpr (Or.inl rfl)
  calc 0 :: dueTicks interval total
      = (List.range (total + 1)).filter (isDue interval · total) := by
        rw [List.range_eq_range', List.range'_succ, List.filter_cons, if_pos hzero]
        rfl
    _ = (List.range total).filter (isDue interval · total) ++ [total] := by
        rw [List.range_succ, List.filter_append, List.filter_cons, if_pos htotal]
        rfl

theorem Report.due_succ (interval total first count : Nat) :
    due interval total first (count + 1) =
      (if isDue interval first total then [⟨first, total, "Relaxing"⟩] else []) ++
        due interval total (first + 1) count := by
  rw [due, List.range'_succ, List.filter_cons]
  split <;> rfl

namespace Body

section

variable {m : Type → Type} [Monad m] [LawfulMonad m]

/-- The last ticks of a watched run are those of the run, behind the reports that are due. -/
theorem tickWatched_eq (tell : Report → m Unit) (interval : Nat) (dt : Float)
    {total remaining : Nat} (hle : remaining ≤ total) (b : Body) :
    tickWatched tell interval dt total remaining b = (do
      (Report.due interval total (total - remaining + 1) remaining).forM tell
      pure (b.run dt remaining)) := by
  induction remaining generalizing b with
  | zero => simp [tickWatched, Report.due, Body.run]
  | succ remaining ih =>
    have hcurrent : total - (remaining + 1) + 1 = total - remaining := by omega
    rw [tickWatched, hcurrent, Report.due_succ, Body.run, ih (Nat.le_of_succ_le hle)]
    cases Report.isDue interval (total - remaining) total with
    | false => simp
    | true => simp

/-- **A watched run is the run behind its reports.** -/
theorem runWatched_eq (tell : Report → m Unit) (interval : Nat) (dt : Float) (total : Nat)
    (b : Body) :
    runWatched tell interval dt total b = (do
      tell ⟨0, total, "Relaxing"⟩
      (Report.due interval total 1 total).forM tell
      pure (b.run dt total)) := by
  rw [runWatched, tickWatched_eq tell interval dt (Nat.le_refl total), Nat.sub_self]

end

/-- Whatever a watcher does to a world of its own, the body comes to what the run makes of it. -/
theorem fst_runWatched {World : Type} (tell : Report → StateM World Unit) (interval : Nat)
    (dt : Float) (total : Nat) (b : Body) (world : World) :
    ((runWatched tell interval dt total b).run world).1 = b.run dt total := by
  rw [runWatched_eq]
  rfl

end Body

/-! ## What a watcher is told -/

/-- A watcher that writes every report down. -/
def Report.note (report : Report) : StateM (List Report) Unit := modify (· ++ [report])

/-- Reports are written down one behind the other. -/
theorem Report.run_forM_note (reports log : List Report) :
    (reports.forM note).run log = ((), log ++ reports) := by
  induction reports generalizing log with
  | nil => rw [List.append_nil]; rfl
  | cons report rest ih =>
    rw [List.append_cons]
    exact ih (log ++ [report])

/-- **Watching a run changes nothing about it, and the watcher is told of the right ticks.**  The
run ends as it would alone.  Before, the watcher is told of tick 0 and then, in ascending order and
once each, of the last tick and of those that the interval divides, an interval of 0 being one of 1;
of a run without ticks it is told of tick 0 alone. -/
theorem Body.runWatched_reports (interval : Nat) (dt : Float) (total : Nat) (b : Body) :
    ∃ ticks : List Nat, ticks.Pairwise (· < ·) ∧
      (∀ t, t ∈ ticks ↔ 1 ≤ t ∧ t ≤ total ∧ (t = total ∨ max interval 1 ∣ t)) ∧
      (total = 0 → ticks = []) ∧
      (∀ {m : Type → Type} [Monad m] [LawfulMonad m] (tell : Report → m Unit),
        runWatched tell interval dt total b = (do
          (0 :: ticks).forM fun t => tell ⟨t, total, "Relaxing"⟩
          pure (b.run dt total))) ∧
      (runWatched Report.note interval dt total b).run [] =
        (b.run dt total, (0 :: ticks).map (⟨·, total, "Relaxing"⟩)) := by
  refine ⟨Report.dueTicks interval total, Report.pairwise_dueTicks interval total,
    fun t => Report.mem_dueTicks, ?none, ?told, ?noted⟩
  case none =>
    rintro rfl
    rfl
  case told =>
    intro m _ _ tell
    rw [runWatched_eq, Report.due_one]
    simp
  case noted =>
    rw [runWatched_eq, Report.due_one, List.map_cons]
    exact congrArg (fun log => (b.run dt total, log))
      (congrArg Prod.snd (Report.run_forM_note (_ :: _) []))

/-- Of five ticks with an interval of 2 a watcher is told of four: of none done, and of 2, 4
and 5. -/
theorem Body.runWatched_reports_five :
    ∃ b : Body,
      (runWatched Report.note 2 0.1 5 b = do
        [0, 2, 4, 5].forM fun t => Report.note ⟨t, 5, "Relaxing"⟩
        pure (b.run 0.1 5)) ∧
      (runWatched Report.note 2 0.1 5 b).run [] =
        (b.run 0.1 5, [0, 2, 4, 5].map (⟨·, 5, "Relaxing"⟩)) := by
  let b := atRest (Rig.ofFabric .empty {} {}) #[]
  obtain ⟨ticks, ascending, hmem, -, told, noted⟩ := runWatched_reports 2 0.1 5 b
  obtain rfl : ticks = [2, 4, 5] := by
    refine ascending.eq_of_mem_iff (by decide) fun t => ?_
    have hmax : max 2 1 = 2 := rfl
    rw [hmem, hmax]
    simp only [List.mem_cons, List.not_mem_nil, or_false]
    constructor <;> omega
  exact ⟨b, told Report.note, noted⟩

end Crochet
