/-
# Scans and their reporters

A reporter is a state and a function that a report applies to it. A scan hands its
reports on and learns nothing from them, so any reporter gets the reports that a new log
gets, one by one and in the same order, and the tokens are always those of a scan with a log.

A reporter outlives a scan. Between two scans its owner may report something by
hand, and the next scan goes on from there. The step is one such use of a reporter,
`Use.perform_eq`. A history is a run of uses, and a log that went through one holds what it held
before, and behind it what each use adds.
-/

import Lox.Proofs.Cut

namespace Lox

universe u

variable {σ : Type u}

/-- A scan that reports to a new log says what a scan with any reporter does. -/
theorem scanWith_eq_scan (dialect : Dialect) (report : σ → Diagnostic → σ) (state : σ)
    (source : String) :
    scanWith dialect report state source =
      ⟨(scan dialect source).tokens,
        (scan dialect source).state.entries.toList.foldl report state⟩ := by
  rw [scanWith_eq, scan_eq]

/-- What the owner of a reporter does with it. -/
inductive Use where
  /-- Lets a scan report to it. -/
  | scan (dialect : Dialect) (source : String)
  /-- Reports something by hand. -/
  | report (diagnostic : Diagnostic)

namespace Use

/-- The result of a use, with tokens if it is a scan, and the state it leads to. -/
def perform (report : σ → Diagnostic → σ) (state : σ) : Use → Option (Array Token) × σ
  | .scan dialect source =>
    let result := scanWith dialect report state source
    (some result.tokens, result.state)
  | .report diagnostic => (none, report state diagnostic)

/-- The results of a history of uses, in order, and the state it leads to. -/
def performAll (report : σ → Diagnostic → σ) (state : σ) :
    List Use → List (Option (Array Token)) × σ
  | [] => ([], state)
  | use :: history =>
    let first := use.perform report state
    let others := performAll report first.2 history
    (first.1 :: others.1, others.2)

/-- The tokens of a use, which no reporter has a part in. -/
def tokens? : Use → Option (Array Token)
  | .scan dialect source => some (Lox.scan dialect source).tokens
  | .report _ => none

/-- The reports of a use, which no reporter has a part in. -/
def reports : Use → List Diagnostic
  | .scan dialect source => (Lox.scan dialect source).state.entries.toList
  | .report diagnostic => [diagnostic]

theorem perform_eq (report : σ → Diagnostic → σ) (state : σ) (use : Use) :
    use.perform report state = (use.tokens?, use.reports.foldl report state) := by
  cases use with
  | scan dialect source =>
      rw [perform, scanWith_eq_scan]
      rfl
  | report diagnostic => rfl

/-- A history leads to the state after the reports of all its uses. -/
theorem performAll_eq (report : σ → Diagnostic → σ) (state : σ) (history : List Use) :
    performAll report state history =
      (history.map tokens?, (history.flatMap reports).foldl report state) := by
  induction history generalizing state with
  | nil => rfl
  | cons use history ih =>
      simp only [performAll, perform_eq, ih, List.map_cons, List.flatMap_cons, List.foldl_append]

end Use

theorem Log.foldl_report_eq (log : Log) (diagnostics : List Diagnostic) :
    diagnostics.foldl report log = ⟨log.entries ++ diagnostics.toArray⟩ := by
  rw [← foldl_report]

/-- **Reporters.** Each reporter is left with what the reports of a scan make of its state, and the
tokens do not depend on it. A history of scans and other reports leaves the entries of a
log as they are and adds the reports of its uses behind them. -/
theorem scanWith_anyReporter (dialect : Dialect) (source : String) :
    (∀ (σ : Type u) (report : σ → Diagnostic → σ) (state : σ),
      scanWith dialect report state source =
        ⟨(scan dialect source).tokens,
          (scan dialect source).state.entries.toList.foldl report state⟩) ∧
      (∀ log : Log, scanInto dialect log source =
        ⟨(scan dialect source).tokens, ⟨log.entries ++ (scan dialect source).state.entries⟩⟩) ∧
      (∀ (σ : Type u) (report : σ → Diagnostic → σ) (state : σ) (history : List Use),
        Use.performAll report state history =
          (history.map Use.tokens?, (history.flatMap Use.reports).foldl report state)) ∧
      ∀ (log : Log) (history : List Use), Use.performAll Log.report log history =
        (history.map Use.tokens?, ⟨log.entries ++ (history.flatMap Use.reports).toArray⟩) := by
  refine ⟨fun σ report state => scanWith_eq_scan dialect report state source, ?_,
    fun σ => Use.performAll_eq, ?_⟩
  · intro log
    rw [scanInto, scanWith_eq_scan, Log.foldl_report_eq, Array.toArray_toList]
  · intro log history
    rw [Use.performAll_eq, Log.foldl_report_eq]

/-- A reporter may keep the lines only. -/
example : (scanWith ⟨false⟩ (fun lines report => lines ++ [report.line]) [] "(\n#)").state =
    [⟨2⟩] := by decide +kernel

end Lox
