import GatedConsole.Proofs.Interpreter.Replays
import GatedConsole.Proofs.Session.TabLife

/-!
A failure as a report tells it, and as a tab shows it. Main statement: a line that fails as the only
step of a macro stands in the report with the text of its error, four blanks to the right; a tab
shows the same text exactly if the error is there and not empty, and so it is for every line if it
is for the bodies of the commands.
-/

set_option autoImplicit false
set_option relaxedAutoImplicit false

namespace GatedConsole

/-- A failure has a text that is not empty. -/
def Result.Worded (result : Result) : Prop :=
  result.success = false → ∃ error, result.error = some error ∧ error ≠ []

/-- Every failure that a body comes back with has a text that is not empty. -/
def CommandSet.Worded {η : Type} (commands : CommandSet η) : Prop :=
  ∀ d invocation user, (commands.body d invocation user).Yields (·.toResult.Worded)

namespace Interpreter

open Program

variable {η : Type} {commands : CommandSet η}

theorem common_worded : Common Result.Worded where
  ok _ := nofun
  fail error some_text _ := ⟨error, rfl, some_text⟩

/-- The report and the tab have the same text for a failure exactly if there is one. -/
theorem getD_eq_errorLine_iff (result : Result) :
    result.error.getD "None" = Tab.errorLine result ↔
      ∃ error, result.error = some error ∧ error ≠ [] := by
  unfold Tab.errorLine
  split
  · rename_i missing
    have differ : Text.ofString "None" ≠ Tab.disturbance := by decide
    simp [missing, differ]
  · rename_i empty
    have differ : ([] : Text) ≠ Tab.disturbance := by decide
    simp [empty, differ]
  · rename_i message some_text its
    simp only [its, Option.getD_some, Option.some.injEq, exists_eq_left', true_iff]
    rintro rfl
    exact some_text rfl

/-- The report of a macro with one step that failed. -/
theorem report_of_failure (name step : Text) {result : Result}
    (failed : result.success = false) :
    report name [(step, result)] =
      .ok [reportHead name 1, stepLine 1 1 step false, inset (result.error.getD "None"),
        reportFoot 0 1] := by
  simp [report, stepLines, stepBody, failed]

/-- A macro of one step runs that step with one level less. If the step fails, its report has the
text of the error under the step, four blanks to the right. The line in which a tab shows the same
failure has the same text exactly if the error is there and not empty, which it is for every line if
it is for every failure of a body. -/
theorem failure_in_report (commands : CommandSet η) (solitary : commands.Solitary)
    {line name step : Text} {m : Memory η} (found : macroOf? line m = some (name, [step]))
    (left : Nat) :
    ∃ e t log, (run commands left step).Runs recordedBetween (record line.strip m) e t log ∧
      (∀ cause, e = .escaped cause → ∃ rest,
        (run commands (left + 1) line).Runs recordedBetween m (.escaped cause) t rest) ∧
      ∀ result, e = .done result → result.success = false →
        (∃ rest, (run commands (left + 1) line).Runs recordedBetween m
          (.done (.ok [reportHead name 1, stepLine 1 1 step false,
            inset (result.error.getD "None"), reportFoot 0 1])) t rest) ∧
        (∀ tab : Tab, (tab.showResult clearSequence result).lines =
          tab.lines ++ [⟨.error, Tab.errorLine result⟩]) ∧
        (inset (result.error.getD "None") = inset (Tab.errorLine result) ↔
          ∃ error, result.error = some error ∧ error ≠ []) ∧
        (commands.Worded →
          inset (result.error.getD "None") = inset (Tab.errorLine result)) := by
  obtain ⟨ending, t, whole, outer⟩ :=
    (solitary_run solitary (left + 1) line).exists_runs recordedBetween m
  have single {e : Ending Escape (List Result)} {log : List (Recorded η)}
      (all : (forEach (run commands left) [step]).Runs recordedBetween (record line.strip m) e t
        log) :
      ∃ e', e = e'.map (fun result => [result]) ∧
        (run commands left step).Runs recordedBetween (record line.strip m) e' t log :=
    Runs.of_map all
  obtain ⟨results, log, rfl, all⟩ | ⟨cause, log, rfl, all⟩ := replayed_of_runs found outer
  · obtain ⟨e, ends, runs⟩ := single all
    cases e with
    | done result =>
      obtain rfl := Ending.done.inj ends
      refine ⟨.done result, t, log, runs, nofun, ?_⟩
      rintro _ ⟨⟩ failed
      have inset_iff : inset (result.error.getD "None") = inset (Tab.errorLine result) ↔
          ∃ error, result.error = some error ∧ error ≠ [] :=
        (List.append_right_inj _).trans (getD_eq_errorLine_iff result)
      refine ⟨⟨whole, ?_⟩, fun tab => ?_, inset_iff, fun worded => inset_iff.2 ?_⟩
      · rw [← report_of_failure name step failed]
        exact outer
      · rw [Tab.showResult, failed]
        rfl
      · exact runs.yields (yields_run_of common_worded worded left step) failed
    | escaped => cases ends
    | stuck => cases ends
  · obtain ⟨e, ends, runs⟩ := single all
    cases e with
    | done => cases ends
    | escaped cause' =>
      obtain rfl := Ending.escaped.inj ends
      refine ⟨.escaped cause, t, log, runs, ?_, nofun⟩
      rintro _ ⟨⟩
      exact ⟨whole, outer⟩
    | stuck => cases ends

/-- A command that fails and does not say anything. -/
def silentCommands : CommandSet Desk where
  registry := ⟨[{ name := "w" }], by decide⟩
  body _ _ _ := .done (.result ⟨false, [], none⟩)

def silentSession : Session :=
  .ofUser { username := "eve" }
    ⟨MacroBook.empty.define "m" ["w"] (by decide), .empty, Macros.defaultKey⟩ .ofDefaultCapacity

/-- Where the command is silent, the report says `None` and the tab something else. Where it is not
known, both say so in the same words. -/
theorem failure_in_report_silent :
    silentCommands.Solitary ∧ Session.watchCommands.Solitary ∧ Session.watchCommands.Worded ∧
      macroOf? "macro.m" silentSession = some (Text.ofString "m", [Text.ofString "w"]) ∧
      (∃ t log, (run silentCommands depthBound "macro.m").Runs recordedBetween silentSession
          (.done (.ok [reportHead "m" 1, "[1/1] ✗ w", "    None", reportFoot 0 1])) t log) ∧
      (∀ tab : Tab, (tab.showResult clearSequence ⟨false, [], none⟩).lines =
        tab.lines ++ [⟨.error, "Unknown mystical disturbance"⟩]) ∧
      ∃ refusal t log, (run Session.watchCommands depthBound "macro.m").Runs recordedBetween
          silentSession (.done (.ok [reportHead "m" 1, "[1/1] ✗ w", inset refusal,
            reportFoot 0 1])) t log ∧
        ∀ tab : Tab, (tab.showResult clearSequence (unknown "w" [])).lines =
          tab.lines ++ [⟨.error, refusal⟩] := by
  have solitary : silentCommands.Solitary := fun _ _ _ => trivial
  have solitary' : Session.watchCommands.Solitary := fun _ _ _ => trivial
  have worded : Session.watchCommands.Worded := fun _ _ _ => nofun
  have found : macroOf? "macro.m" silentSession =
      some (Text.ofString "m", [Text.ofString "w"]) := rfl
  obtain ⟨e, t, log, runs, -, failure⟩ := failure_in_report silentCommands solitary found 7
  have ends : Ending.done ⟨false, [], none⟩ = e := congrArg Prod.fst (runs.alone_eq false)
  obtain ⟨⟨rest, reported⟩, shown, -, -⟩ := failure _ ends.symm rfl
  refine ⟨solitary, solitary', worded, found, ⟨t, rest, reported⟩, shown, ?_⟩
  obtain ⟨e', t', log', runs', -, failure'⟩ :=
    failure_in_report Session.watchCommands solitary' found 7
  have ends' : Ending.done (unknown "w" []) = e' := congrArg Prod.fst (runs'.alone_eq false)
  obtain ⟨⟨rest', reported'⟩, shown', -, same⟩ := failure' _ ends'.symm rfl
  refine ⟨Tab.errorLine (unknown "w" []), t', rest', ?_, shown'⟩
  rw [← same worded]
  exact reported'

end Interpreter

end GatedConsole
