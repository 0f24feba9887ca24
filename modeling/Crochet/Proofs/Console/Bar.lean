import Crochet.Console.Program
import Crochet.Proofs.Decimal.Digits
import Crochet.Proofs.Relax.Report

/-!
# What a run draws

A run that is shown is the run behind the drawings of its reports (`runShown_eq`), so that what
appears on the screen is a list that only the number of ticks decides, `Bar.drawn`.

The bar remembers the percentage drawn last.  Whatever reports come in, a drawing therefore shows
more than the one before it, unless both show 100 (`pairwise_drawings`): at 100 the bar is drawn
even if nothing has moved, for the end of a run has to be drawn.  A percentage is rounded to the
nearest one, though, and so the reports shortly before the end of a long run are drawn as 100 too.
`percent_eq_hundred_iff` says which these are, and `runShown_draws` for which runs there are none.
-/

namespace Crochet

namespace Bar

/-! ## Percentages -/

theorem percent_le (current total : Nat) : percent current total ≤ 100 := by
  rw [percent]
  split
  case isTrue => exact Nat.le_refl 100
  case isFalse running =>
    have hlt : (current * 100 + total / 2) / total < 101 := by
      rw [Nat.div_lt_iff_lt_mul (by omega)]
      omega
    exact Nat.le_of_lt_succ hlt

theorem percent_self (total : Nat) : percent total total = 100 := if_pos (Nat.le_refl total)

theorem percent_mono {current later : Nat} (total : Nat) (h : current ≤ later) :
    percent current total ≤ percent later total := by
  by_cases hdone : total ≤ later
  · rw [percent.eq_def later, if_pos hdone]
    exact percent_le current total
  · rw [percent, percent, if_neg hdone, if_neg (by omega)]
    exact Nat.div_le_div_right (by omega)

/-- A run counts as done when at most half a percent of it is left. -/
theorem percent_eq_hundred_iff {current total : Nat} (running : current < total) :
    percent current total = 100 ↔ 100 * (total - current) ≤ total / 2 := by
  have hge : 100 ≤ percent current total ↔ 100 * total ≤ current * 100 + total / 2 := by
    rw [percent, if_neg (by omega), Nat.le_div_iff_mul_le (by omega)]
  have hle := percent_le current total
  omega

/-! ## One report -/

/-- The drawing of a report. -/
def drawing (report : Report) : Drawing :=
  ⟨percent report.current report.total, report.message, decide (report.total ≤ report.current)⟩

/-- Whether a report is drawn. -/
def Moves (bar : Bar) (report : Report) : Prop :=
  report.total ≠ 0 ∧
    (bar.shown < percent report.current report.total ∨ percent report.current report.total = 100)

theorem step_of_moves {bar : Bar} {report : Report} (h : bar.Moves report) :
    bar.step report = (some (drawing report), ⟨(drawing report).percent⟩) := by
  obtain ⟨htotal, hmoves⟩ := h
  rw [step, if_neg (by omega)]
  rfl

theorem step_of_not_moves {bar : Bar} {report : Report} (h : ¬ bar.Moves report) :
    bar.step report = (none, bar) := by
  rw [Moves] at h
  rw [step, if_pos (by omega)]

theorem drawings_cons (bar : Bar) (report : Report) (rest : List Report) :
    bar.drawings (report :: rest) =
      (bar.step report).1.toList ++ (bar.step report).2.drawings rest := rfl

theorem drawings_of_moves {bar : Bar} {report : Report} (h : bar.Moves report)
    (rest : List Report) :
    bar.drawings (report :: rest) =
      drawing report :: (Bar.mk (drawing report).percent).drawings rest := by
  rw [drawings_cons, step_of_moves h]
  rfl

theorem drawings_of_not_moves {bar : Bar} {report : Report} (h : ¬ bar.Moves report)
    (rest : List Report) : bar.drawings (report :: rest) = bar.drawings rest := by
  rw [drawings_cons, step_of_not_moves h]
  rfl

/-! ## Many reports -/

/-- The bar after some reports. -/
def after (bar : Bar) (reports : List Report) : Bar :=
  reports.foldl (fun bar report => (bar.step report).2) bar

theorem drawings_append (bar : Bar) (front back : List Report) :
    bar.drawings (front ++ back) = bar.drawings front ++ (bar.after front).drawings back := by
  induction front generalizing bar with
  | nil => rfl
  | cons report rest ih =>
    rw [List.cons_append, drawings_cons, drawings_cons, ih, List.append_assoc]
    rfl

/-- Nothing is drawn but reports. -/
theorem exists_report_of_mem_drawings {bar : Bar} {reports : List Report} {d : Drawing}
    (h : d ∈ bar.drawings reports) : ∃ report ∈ reports, d = drawing report := by
  induction reports generalizing bar with
  | nil => exact absurd h List.not_mem_nil
  | cons report rest ih =>
    by_cases hmoves : bar.Moves report
    · rw [drawings_of_moves hmoves] at h
      obtain rfl | hrest := List.mem_cons.mp h
      · exact ⟨report, List.mem_cons_self, rfl⟩
      · obtain ⟨other, hother, rfl⟩ := ih hrest
        exact ⟨other, List.mem_cons_of_mem _ hother, rfl⟩
    · rw [drawings_of_not_moves hmoves] at h
      obtain ⟨other, hother, rfl⟩ := ih h
      exact ⟨other, List.mem_cons_of_mem _ hother, rfl⟩

theorem percent_le_of_mem_drawings {bar : Bar} {reports : List Report} {d : Drawing}
    (h : d ∈ bar.drawings reports) : d.percent ≤ 100 := by
  obtain ⟨report, -, rfl⟩ := exists_report_of_mem_drawings h
  exact percent_le report.current report.total

/-- The bar never goes back. -/
theorem shown_lt_of_mem_drawings {bar : Bar} {reports : List Report} {d : Drawing}
    (h : d ∈ bar.drawings reports) : bar.shown < d.percent ∨ d.percent = 100 := by
  induction reports generalizing bar with
  | nil => exact absurd h List.not_mem_nil
  | cons report rest ih =>
    by_cases hmoves : bar.Moves report
    · have hle := percent_le_of_mem_drawings h
      rw [drawings_of_moves hmoves] at h
      obtain rfl | hrest := List.mem_cons.mp h
      · exact hmoves.2
      · -- the bar that goes on shows this report, which is no less than what was shown
        have hnext : (drawing report).percent < d.percent ∨ d.percent = 100 := ih hrest
        have hreport : bar.shown < (drawing report).percent ∨ (drawing report).percent = 100 :=
          hmoves.2
        omega
    · rw [drawings_of_not_moves hmoves] at h
      exact ih h

/-- **Whatever is reported, each drawing shows more than the one before, until 100 is shown.** -/
theorem pairwise_drawings (bar : Bar) (reports : List Report) :
    (bar.drawings reports).Pairwise fun d e =>
      d.percent < e.percent ∨ (d.percent = 100 ∧ e.percent = 100) := by
  induction reports generalizing bar with
  | nil => exact List.Pairwise.nil
  | cons report rest ih =>
    by_cases hmoves : bar.Moves report
    · rw [drawings_of_moves hmoves]
      refine List.Pairwise.cons (fun e he => ?_) (ih _)
      have hlater : (drawing report).percent < e.percent ∨ e.percent = 100 :=
        shown_lt_of_mem_drawings he
      have hle : (drawing report).percent ≤ 100 := percent_le report.current report.total
      omega
    · rw [drawings_of_not_moves hmoves]
      exact ih bar

/-- Of reports that go on and on, each has its percentage on the screen, as the percentage of some
drawing or as the one that was there. -/
theorem exists_drawing_of_mem {bar : Bar} {reports : List Report}
    (ascending : reports.Pairwise fun r s => (drawing r).percent ≤ (drawing s).percent)
    (hshown : ∀ r ∈ reports, bar.shown ≤ (drawing r).percent) (htotal : ∀ r ∈ reports, r.total ≠ 0)
    {report : Report} (h : report ∈ reports) :
    (drawing report).percent = bar.shown ∨
      ∃ d ∈ bar.drawings reports, d.percent = (drawing report).percent := by
  induction reports generalizing bar with
  | nil => exact absurd h List.not_mem_nil
  | cons first rest ih =>
    obtain ⟨hfirst, hrest⟩ := List.pairwise_cons.mp ascending
    obtain ⟨htotal₁, htotal⟩ := List.forall_mem_cons.mp htotal
    obtain ⟨hshown₁, hshown⟩ := List.forall_mem_cons.mp hshown
    by_cases hmoves : bar.Moves first
    · rw [drawings_of_moves hmoves]
      right
      obtain rfl | hmem := List.mem_cons.mp h
      · exact ⟨drawing report, List.mem_cons_self, rfl⟩
      · obtain heq | ⟨d, hd, heq⟩ := @ih ⟨(drawing first).percent⟩ hrest hfirst htotal hmem
        · exact ⟨drawing first, List.mem_cons_self, heq.symm⟩
        · exact ⟨d, List.mem_cons_of_mem _ hd, heq⟩
    · rw [drawings_of_not_moves hmoves]
      obtain rfl | hmem := List.mem_cons.mp h
      · -- a report that is not drawn shows no more, and being later it shows no less
        have hstays : ¬ bar.shown < (drawing report).percent :=
          fun hlt => hmoves ⟨htotal₁, Or.inl hlt⟩
        exact Or.inl (by omega)
      · exact ih hrest hshown htotal hmem

/-! ## A whole run -/

/-- The report of a tick. -/
def heard (ticks t : Nat) : Report := ⟨t, ticks, "Relaxing"⟩

/-- What is drawn before a run ends. -/
def early (ticks : Nat) : List Drawing :=
  drawings {} (((List.range ticks).filter (Report.isDue Program.reportInterval · ticks)).map
    (heard ticks))

/-- What is drawn in all of a run. -/
def drawn (ticks : Nat) : List Drawing :=
  drawings {} ((0 :: Report.dueTicks Program.reportInterval ticks).map (heard ticks))

/-- The end of a run is always drawn. -/
theorem drawn_eq {ticks : Nat} (h : 1 ≤ ticks) :
    drawn ticks = early ticks ++ [⟨100, "Relaxing", true⟩] := by
  have hend (bar : Bar) : bar.Moves (heard ticks ticks) :=
    ⟨Nat.one_le_iff_ne_zero.mp h, Or.inr (percent_self ticks)⟩
  have hdrawing : drawing (heard ticks ticks) = ⟨100, "Relaxing", true⟩ := by
    simp [drawing, heard, percent_self]
  rw [drawn, Report.cons_dueTicks, List.map_append, drawings_append, List.map_singleton,
    drawings_of_moves (hend _), hdrawing]
  rfl

/-- Before the end the bar hears of every tenth tick. -/
theorem mem_early_ticks {ticks t : Nat} :
    t ∈ (List.range ticks).filter (Report.isDue Program.reportInterval · ticks) ↔
      t < ticks ∧ 10 ∣ t := by
  rw [List.mem_filter, List.mem_range, Report.isDue_iff]
  constructor
  · rintro ⟨hlt, hdue⟩
    exact ⟨hlt, hdue.resolve_left (Nat.ne_of_lt hlt)⟩
  · rintro ⟨hlt, hdvd⟩
    exact ⟨hlt, Or.inr hdvd⟩

theorem message_of_mem_drawn {ticks : Nat} {d : Drawing} (h : d ∈ drawn ticks) :
    d.message = "Relaxing" := by
  obtain ⟨report, hreport, rfl⟩ := exists_report_of_mem_drawings h
  obtain ⟨t, -, rfl⟩ := List.mem_map.mp hreport
  rfl

theorem exists_tick_of_mem_early {ticks : Nat} {d : Drawing} (h : d ∈ early ticks) :
    ∃ t < ticks, 10 ∣ t ∧ d = ⟨percent t ticks, "Relaxing", false⟩ := by
  obtain ⟨report, hreport, rfl⟩ := exists_report_of_mem_drawings h
  obtain ⟨t, ht, rfl⟩ := List.mem_map.mp hreport
  obtain ⟨hlt, hdvd⟩ := mem_early_ticks.mp ht
  refine ⟨t, hlt, hdvd, ?_⟩
  rw [drawing, heard, decide_eq_false (Nat.not_le.mpr hlt)]

/-- Of ascending ticks of a run each has its percentage drawn, unless that is 0. -/
theorem exists_drawing_of_tick {total : Nat} (htotal : 1 ≤ total) {ticks : List Nat}
    (ascending : ticks.Pairwise (· < ·)) {t : Nat} (h : t ∈ ticks) :
    percent t total = 0 ∨
      ∃ d ∈ drawings {} (ticks.map (heard total)), d.percent = percent t total := by
  have hheard : heard total t ∈ ticks.map (heard total) := List.mem_map_of_mem h
  refine exists_drawing_of_mem ?ascending ?shown ?total hheard
  case ascending =>
    exact List.pairwise_map.mpr (ascending.imp fun hlt => percent_mono total (Nat.le_of_lt hlt))
  case shown => exact fun report _ => Nat.zero_le (drawing report).percent
  case total =>
    intro report hreport
    obtain ⟨t, -, rfl⟩ := List.mem_map.mp hreport
    exact Nat.one_le_iff_ne_zero.mp htotal

/-- **A run shows 100 before its end exactly if the last report before it is close enough.** -/
theorem exists_early_hundred_iff {ticks : Nat} (h : 1 ≤ ticks) :
    (∃ d ∈ early ticks, d.percent = 100) ↔ 100 * ((ticks - 1) % 10 + 1) ≤ ticks / 2 := by
  constructor
  case mp =>
    rintro ⟨d, hd, hundred⟩
    obtain ⟨t, hlt, hdvd, rfl⟩ := exists_tick_of_mem_early hd
    have hnear := (percent_eq_hundred_iff hlt).mp hundred
    -- no multiple of ten below the end is nearer to it than the last one
    have hlast : (ticks - 1) % 10 + 1 ≤ ticks - t := by omega
    omega
  case mpr =>
    intro hnear
    have hlt : ticks - ((ticks - 1) % 10 + 1) < ticks := by omega
    have hundred : percent (ticks - ((ticks - 1) % 10 + 1)) ticks = 100 := by
      rw [percent_eq_hundred_iff hlt]
      omega
    obtain hzero | hdrawn := exists_drawing_of_tick h (List.pairwise_lt_range.filter _)
      (mem_early_ticks.mpr ⟨hlt, by omega⟩)
    · omega
    · rwa [hundred] at hdrawn

theorem early_lt_hundred_iff {ticks : Nat} (h : 1 ≤ ticks) :
    (∀ d ∈ early ticks, d.percent < 100) ↔ ticks / 2 < 100 * ((ticks - 1) % 10 + 1) := by
  rw [← Nat.not_le, ← exists_early_hundred_iff h]
  constructor
  · rintro hlt ⟨d, hd, hundred⟩
    exact Nat.ne_of_lt (hlt d hd) hundred
  · intro hnone d hd
    exact Nat.lt_of_le_of_ne (percent_le_of_mem_drawings hd) fun hundred => hnone ⟨d, hd, hundred⟩

/-- The drawings of a run show more and more if, and only if, 100 is not shown before the end. -/
theorem ascending_drawn_iff {ticks : Nat} (h : 1 ≤ ticks) :
    ((drawn ticks).map Drawing.percent).Pairwise (· < ·) ↔ ∀ d ∈ early ticks, d.percent < 100 := by
  rw [drawn_eq h, List.map_append, List.pairwise_append, List.map_singleton]
  constructor
  case mp =>
    rintro ⟨-, -, hend⟩ d hd
    exact hend d.percent (List.mem_map_of_mem hd) 100 List.mem_cons_self
  case mpr =>
    intro hlt
    refine ⟨List.pairwise_map.mpr ?_, List.pairwise_singleton _ _, ?_⟩
    · refine (pairwise_drawings _ _).imp_of_mem fun {d e} hd _ hde => ?_
      exact hde.resolve_right fun both => Nat.ne_of_lt (hlt d hd) both.1
    · rintro _ hp _ hq
      obtain ⟨d, hd, rfl⟩ := List.mem_map.mp hp
      obtain rfl := List.mem_singleton.mp hq
      exact hlt d hd

end Bar

namespace Drawing

theorem length_places {d : Drawing} (h : d.percent ≤ 100) : d.places.length = 30 := by
  rw [places, List.length_append, List.length_replicate, List.length_replicate, Bar.width]
  omega

theorem newline_not_mem_text {d : Drawing} (hmessage : '\n' ∉ d.message.toList)
    (hfinished : d.finished = false) : '\n' ∉ d.text.toList := by
  have hdigits : '\n' ∉ Decimal.digits d.percent := fun h =>
    absurd (Decimal.isDigit_of_mem_digits h) (by decide)
  simp [text, places, percentText, hfinished, hmessage, hdigits]

/-- The text of a drawing, put together from its parts. -/
theorem text_of_message {d : Drawing} (h : d.message = "Relaxing") :
    d.text = "\r[" ++ String.ofList (List.replicate (d.percent * 30 / 100) '=' ++
        List.replicate (30 - d.percent * 30 / 100) ' ') ++ "] " ++
      String.ofList (List.replicate (3 - (Decimal.digits d.percent).length) ' ' ++
        Decimal.digits d.percent) ++ "% Relaxing" ++ if d.finished then "\n" else "" := by
  have hmessage : "% Relaxing" = "% " ++ "Relaxing" := rfl
  rw [text, h, hmessage, ← String.append_assoc]
  rfl

end Drawing

namespace Program

section

variable {m : Type → Type} [Monad m] [LawfulMonad m]

theorem run_draw (host : Host m) (bar : Bar) (report : Report) :
    (draw host report).run bar = (do
      (bar.step report).1.toList.forM (host.tell ·.text)
      pure ((), (bar.step report).2)) := by
  simp only [draw, StateT.run_bind, StateT.run_get, StateT.run_set, pure_bind]
  cases (bar.step report).1 with
  | none => simp
  | some d => simp

theorem run_forM_draw (host : Host m) (bar : Bar) (reports : List Report) :
    (reports.forM (draw host)).run bar = (do
      (bar.drawings reports).forM (host.tell ·.text)
      pure ((), bar.after reports)) := by
  induction reports generalizing bar with
  | nil => simp [Bar.drawings, Bar.after]
  | cons report rest ih =>
    rw [List.forM, StateT.run_bind, run_draw, bind_assoc]
    simp only [pure_bind, ih]
    simp [Bar.drawings_cons, Bar.after]

theorem runShown_eq (host : Host m) (dt : Float) (ticks : Nat) (body : Body) :
    runShown host dt ticks body = (do
      (Bar.drawn ticks).forM (host.tell ·.text)
      pure (body.run dt ticks)) := by
  have hwatched : (do
      draw host ⟨0, ticks, "Relaxing"⟩
      (Report.due reportInterval ticks 1 ticks).forM (draw host)
      pure (body.run dt ticks)) = (do
      ((0 :: Report.dueTicks reportInterval ticks).map (Bar.heard ticks)).forM (draw host)
      pure (body.run dt ticks)) := (bind_assoc _ _ _).symm
  rw [runShown, Body.runWatched_eq, hwatched, StateT.run_bind, run_forM_draw]
  simp [Bar.drawn]

end

/-- **What a run draws.**  Showing a run of at least one tick is running it, behind its drawings.
They show percentages from 1 to 100 with bars of thirty places, filled up to the percentage, and the
percentage in at least three places; every percentage that the bar hears of is drawn, but for 0; and
each drawing shows more than the one before, unless both show 100.  The
last one shows 100, and it alone ends its line.  It alone shows 100 if, and only if, the last report
before it leaves more than half a percent to do: so it is for up to 200 ticks, and never from 2000
on. -/
theorem runShown_draws {ticks : Nat} (h : 1 ≤ ticks) :
    (∀ {m : Type → Type} [Monad m] [LawfulMonad m] (host : Host m) (dt : Float) (body : Body),
      runShown host dt ticks body = (do
        (Bar.drawn ticks).forM (host.tell ·.text)
        pure (body.run dt ticks))) ∧
    (∀ d ∈ Bar.drawn ticks, 1 ≤ d.percent ∧ d.percent ≤ 100 ∧
      d.percent * Bar.width / 100 ≤ Bar.width ∧ d.places.length = 30) ∧
    (∀ d ∈ Bar.drawn ticks, d.text =
      "\r[" ++ String.ofList (List.replicate (d.percent * 30 / 100) '=' ++
          List.replicate (30 - d.percent * 30 / 100) ' ') ++ "] " ++
        String.ofList (List.replicate (3 - (Decimal.digits d.percent).length) ' ' ++
          Decimal.digits d.percent) ++ "% Relaxing" ++ if d.finished then "\n" else "") ∧
    (∀ t ∈ Report.dueTicks reportInterval ticks, Bar.percent t ticks = 0 ∨
      ∃ d ∈ Bar.drawn ticks, d.percent = Bar.percent t ticks) ∧
    (Bar.drawn ticks).Pairwise
      (fun d e => d.percent < e.percent ∨ (d.percent = 100 ∧ e.percent = 100)) ∧
    ∃ before : List Drawing, ∃ last : Drawing, Bar.drawn ticks = before ++ [last] ∧
      (∀ d ∈ before, '\n' ∉ d.text.toList) ∧
      last.percent = 100 ∧ last.text = "\r[==============================] 100% Relaxing\n" ∧
      (((Bar.drawn ticks).map Drawing.percent).Pairwise (· < ·) ↔
        ticks / 2 < 100 * ((ticks - 1) % 10 + 1)) ∧
      ((∀ d ∈ before, d.percent < 100) ↔ ticks / 2 < 100 * ((ticks - 1) % 10 + 1)) := by
  refine ⟨fun host dt body => runShown_eq host dt ticks body, ?fits,
    fun d hd => Drawing.text_of_message (Bar.message_of_mem_drawn hd), ?heard,
    Bar.pairwise_drawings _ _, Bar.early ticks, ⟨100, "Relaxing", true⟩, Bar.drawn_eq h, ?line, rfl,
    ?text, (Bar.ascending_drawn_iff h).trans (Bar.early_lt_hundred_iff h),
    Bar.early_lt_hundred_iff h⟩
  case fits =>
    intro d hd
    have hle := Bar.percent_le_of_mem_drawings hd
    have hlt : 0 < d.percent ∨ d.percent = 100 := Bar.shown_lt_of_mem_drawings hd
    refine ⟨by omega, hle, ?_, Drawing.length_places hle⟩
    rw [Bar.width]
    omega
  case heard =>
    intro t ht
    refine Bar.exists_drawing_of_tick h ?_ (List.mem_cons_of_mem 0 ht)
    refine List.Pairwise.cons (fun t ht => (Report.mem_dueTicks.mp ht).1) ?_
    exact Report.pairwise_dueTicks reportInterval ticks
  case line =>
    intro d hd
    obtain ⟨t, -, -, rfl⟩ := Bar.exists_tick_of_mem_early hd
    exact Drawing.newline_not_mem_text (show '\n' ∉ "Relaxing".toList by decide) rfl
  case text => decide +kernel

/-- Of 25 ticks three reports are drawn. -/
theorem runShown_draws_twenty_five :
    1 ≤ 25 ∧ (Bar.drawn 25).map Drawing.percent = [40, 80, 100] ∧
      (Bar.drawn 25).map Drawing.text = ["\r[============                  ]  40% Relaxing",
        "\r[========================      ]  80% Relaxing",
        "\r[==============================] 100% Relaxing\n"] ∧
      25 / 2 < 100 * ((25 - 1) % 10 + 1) ∧
      ((Bar.drawn 25).map Drawing.percent).Pairwise (· < ·) ∧
      ∃ before : List Drawing, ∃ last : Drawing, Bar.drawn 25 = before ++ [last] ∧
        (∀ d ∈ before, d.percent < 100 ∧ '\n' ∉ d.text.toList) ∧
        last.text = "\r[==============================] 100% Relaxing\n" := by
  have hfew : 25 / 2 < 100 * ((25 - 1) % 10 + 1) := by decide
  obtain ⟨-, -, -, -, -, before, last, hdrawn, hline, -, htext, hascending, hlt⟩ :=
    @runShown_draws 25 (by decide)
  exact ⟨by decide, by decide +kernel, by decide +kernel, hfew, hascending.mpr hfew, before, last,
    hdrawn, fun d hd => ⟨hlt.mpr hfew d hd, hline d hd⟩, htext⟩

/-- Of 201 ticks the report of tick 200 is drawn as 100, and so is the end. -/
theorem drawn_hundred_twice :
    1 ≤ 201 ∧ ¬ ((Bar.drawn 201).map Drawing.percent).Pairwise (· < ·) ∧
      (Bar.drawn 201).drop 19 = [⟨100, "Relaxing", false⟩, ⟨100, "Relaxing", true⟩] := by
  decide +kernel

end Program
end Crochet
