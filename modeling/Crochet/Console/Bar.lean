import Crochet.Relax.Report

/-!
# The progress bar

Reports of a run drawn as a bar of thirty places and a percentage.  The bar is drawn again only when
the percentage has grown, and always at the end.
-/

namespace Crochet

/-- The bar as it stands on the screen. -/
structure Bar where
  /-- The percentage drawn last. -/
  shown : Nat := 0
  deriving DecidableEq, Repr, Inhabited

/-- One drawing of a bar. -/
structure Drawing where
  percent : Nat
  message : String
  /-- Whether the run is over, so that the line ends. -/
  finished : Bool
  deriving DecidableEq, Repr, Inhabited

namespace Bar

/-- The number of places of a bar. -/
def width : Nat := 30

/-- How much of a run is done, to the nearest percent. -/
def percent (current total : Nat) : Nat :=
  if total ≤ current then 100 else (current * 100 + total / 2) / total

/-- Takes a report in, and draws if there is something new to draw. -/
def step (bar : Bar) (report : Report) : Option Drawing × Bar :=
  let percent := percent report.current report.total
  if report.total = 0 ∨ (percent ≤ bar.shown ∧ percent ≠ 100) then (none, bar)
  else (some ⟨percent, report.message, decide (report.total ≤ report.current)⟩, ⟨percent⟩)

/-- The drawings for some reports in order. -/
def drawings (bar : Bar) : List Report → List Drawing
  | [] => []
  | report :: rest =>
    let (drawing?, next) := bar.step report
    drawing?.toList ++ next.drawings rest

end Bar

namespace Drawing

/-- The places of a bar: filled ones, then empty ones. -/
def places (d : Drawing) : List Char :=
  let filled := d.percent * Bar.width / 100
  List.replicate filled '=' ++ List.replicate (Bar.width - filled) ' '

/-- A percentage in at least three places. -/
def percentText (d : Drawing) : List Char :=
  let digits := Decimal.digits d.percent
  List.replicate (3 - digits.length) ' ' ++ digits

/-- The characters that draw the bar over the one before. -/
def text (d : Drawing) : String :=
  "\r[" ++ String.ofList d.places ++ "] " ++ String.ofList d.percentText ++ "% " ++ d.message ++
    if d.finished then "\n" else ""

end Drawing

end Crochet
