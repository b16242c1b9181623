import GatedConsole.Proofs.Session.Clean
import GatedConsole.Proofs.Session.Transcript

/-!
What empties a transcript where no text has a control sequence. Main statement: in a clean session,
whatever goes on in other tabs, a submission empties the transcript of its tab exactly if the first
word of its line asks for that, however many macros ask for the same, nothing else takes a line out
of a transcript, and no line of a transcript ever has a control sequence.
-/

set_option autoImplicit false
set_option relaxedAutoImplicit false

namespace GatedConsole

open Interpreter

/-! ## Changes of a transcript -/

/-- Only a result takes lines out of a transcript. -/
theorem Tab.Becomes.lines_grow {tab tab' : Tab} {event : Option (Nat × TabEvent)}
    (h : tab.Becomes event tab') (other : ∀ result, event ≠ some (tab.id, .answered result)) :
    tab.lines <+: tab'.lines := by
  cases h with
  | elsewhere => exact List.prefix_rfl
  | aside aside =>
    obtain ⟨_, _, rfl⟩ | ⟨-, content, rfl⟩ := aside.cases_eq
    · exact List.prefix_rfl
    · exact List.prefix_append _ _
  | begun => exact List.prefix_append _ _
  | answered result => exact absurd rfl (other result)
  | ended => exact List.prefix_rfl

/-- Where a result is awaited there is a line at least, so that a result leaves an empty transcript
exactly if it clears. -/
theorem Chronicle.lines_eq_nil_iff {user : User} {log : List Glimpse} {tabs tabs' : Tabs} {id : Nat}
    {result : Result} (h : Chronicle user log tabs)
    (change : Change log tabs (some (id, .answered result)) tabs') :
    ∀ tab ∈ tabs'.toList, tab.id = id → (tab.lines = [] ↔ result.clears = true) := by
  cases change with
  | answer _ pending =>
    intro tab mem same
    rw [Tabs.toList_update] at mem
    obtain ⟨before, its_mem, rfl⟩ := List.mem_map.1 mem
    have its_id : before.id = id := by
      by_contra apart
      rw [if_neg apart] at same
      exact apart same
    have awaited : stageOf (eventsOf before.id log) = .pending := by rwa [its_id]
    obtain ⟨lines, -, command, -, shown, -⟩ := h.wellKept.awaiting before its_mem awaited
    rw [if_pos its_id, Tab.showResult_eq, shown]
    by_cases clears : result.clears <;> simp [clears]

/-! ## What submissions heed -/

/-- An event of a tab fits the one before it: a result heeds the command that it answers, and a
command that asks for the transcript to be emptied does not end without a result. -/
def TabEvent.Follows (last : Option TabEvent) : TabEvent → Prop
  | begun _ => True
  | answered result => ∃ command, last = some (.begun command) ∧ Heeds command result
  | ended => ∀ command, last = some (.begun command) → command.words.head? ≠ some clearWord

/-- A glimpse of clean tabs, with an event that fits the one before it in its tab. -/
structure Glimpse.Fits (before : List Glimpse) (g : Glimpse) : Prop where
  clean : g.tabs.Clean
  follows : ∀ id e, g.event = some (id, e) → e.Follows (eventsOf id before).getLast?

/-- All glimpses fit what came before them, from where the log was `past`. -/
def Heeded (past log : List Glimpse) : Prop :=
  ∀ before g after, log = before ++ g :: after → past.length ≤ before.length → g.Fits before

theorem heeded_self (log : List Glimpse) : Heeded log log := by
  intro before g after parts later
  have shorter := congrArg List.length parts
  rw [List.length_append, List.length_cons] at shorter
  omega

theorem Heeded.concat {past log : List Glimpse} {g : Glimpse} (h : Heeded past log)
    (next : g.Fits log) : Heeded past (log ++ [g]) := by
  intro before g' after parts later
  obtain ⟨rfl, rfl, -⟩ | ⟨rest, -, earlier⟩ := cut_of_append_singleton parts
  · exact next
  · exact h before g' rest earlier later

/-- How a change of the tabs leaves their transcripts, by the glimpses before it. -/
structure Glimpse.Clears (user : User) (before : List Glimpse) (g : Glimpse) : Prop where
  /-- No line of a transcript has a control sequence. -/
  clean : ∀ tab ∈ g.tabs.toList, ∀ line ∈ tab.lines, line.content.Clean
  /-- The result of a submission empties the transcript exactly if the first word of the submitted
  line is `clear`. -/
  answered : ∀ id result, g.event = some (id, .answered result) →
    ∃ command, (eventsOf id before).getLast? = some (.begun command) ∧ Heeds command result ∧
      ∀ tab ∈ g.tabs.toList, tab.id = id →
        (tab.lines = [] ↔ command.words.head? = some clearWord)
  /-- A submission of such a line does not end without a result. -/
  ended : ∀ id command, g.event = some (id, .ended) →
    (eventsOf id before).getLast? = some (.begun command) → command.words.head? ≠ some clearWord
  /-- Nothing but a result takes a line out of a transcript. -/
  kept : ∀ tab ∈ (tabsAfter user before).toList, ∀ tab' ∈ g.tabs.toList, tab'.id = tab.id →
    (∀ result, g.event ≠ some (tab.id, .answered result)) → tab.lines <+: tab'.lines

/-! ## Marks -/

/-- What the submissions under way have come to. -/
def underWay (log : List Glimpse) : Nat → Option TabEvent := fun id =>
  (eventsOf id log).getLast?.filter (· ≠ .ended)

/-- A program holds the mark of what its submission has come to. -/
abbrev Marks := Nat → TabEvent → Nat

theorem underWay_concat_none (log : List Glimpse) (tabs : Tabs) :
    underWay (log ++ [⟨none, tabs⟩]) = underWay log := by
  funext id
  rw [underWay, eventsOf_concat_none, underWay]

theorem underWay_concat (log : List Glimpse) (id : Nat) (e : TabEvent) (tabs : Tabs) :
    underWay (log ++ [⟨some (id, e), tabs⟩]) =
      Function.update (underWay log) id ((some e).filter (· ≠ .ended)) := by
  funext i
  by_cases same : i = id
  · subst same
    rw [Function.update_self, underWay, eventsOf_concat_self, List.getLast?_concat]
  · rw [Function.update_of_ne same, underWay, eventsOf_concat_of_ne (Ne.symm same), underWay]

theorem getLast?_of_underWay {log : List Glimpse} {id : Nat} {e : TabEvent}
    (h : underWay log id = some e) : (eventsOf id log).getLast? = some e ∧ e ≠ .ended := by
  have both := Option.filter_eq_some_iff.1 h
  exact ⟨both.1, of_decide_eq_true both.2⟩

theorem underWay_eq_none {log : List Glimpse} {id : Nat}
    (idle : stageOf (eventsOf id log) = .idle) : underWay log id = none := by
  cases last : underWay log id with
  | none => rfl
  | some e =>
    obtain ⟨its, busy⟩ := getLast?_of_underWay last
    rw [stageOf, its] at idle
    cases e with
    | ended => exact absurd rfl busy
    | begun | answered => cases idle

theorem stageOf_eq_of_underWay {log : List Glimpse} {id : Nat} {e : TabEvent}
    (h : underWay log id = some e) : stageOf (eventsOf id log) = e.stage := by
  rw [stageOf, (getLast?_of_underWay h).1]
  rfl

/-! ## Sessions under way -/

/-- The tabs change as they do outside of submissions, and clean ones stay clean. -/
def MovesCleanTabs (before after : Session) : Prop :=
  MovesTabs before after ∧ (before.host.tabs.Clean → after.host.tabs.Clean)

theorem CommandSet.Only.movesTabs {commands : CommandSet Desk} (h : commands.Only MovesCleanTabs) :
    commands.Only MovesTabs :=
  fun d invocation user m => Program.only_mono (fun _ _ both => both.1) (h d invocation user m)

/-- The glimpses make a chronicle, with the marks of its submissions, and since `past` they fit what
came before them. -/
structure Attends (user : User) (past : List Glimpse) (marks : Marks)
    (now : Session × List Glimpse) : Prop where
  chronicle : Chronicle user now.2 now.1.host.tabs
  marks_eq : marks = tokensAt (underWay now.2)
  heeded : Heeded past now.2
  tabs : now.1.host.tabs.Clean

/-- And the session is clean. -/
def AttendsClean (user : User) (past : List Glimpse) (marks : Marks)
    (now : Session × List Glimpse) : Prop :=
  Attends user past marks now ∧ Memory.Clean Desk.Clean now.1

namespace Session

open Program

variable {user : User} {past : List Glimpse} {commands : CommandSet Desk}

theorem attends_move (marks : Marks) (s t : Session) (log : List Glimpse)
    (moves : MovesCleanTabs s t) (now : Attends user past marks (s, log)) :
    Attends user past marks (t, log ++ [⟨none, t.host.tabs⟩]) where
  chronicle := .change now.chronicle (.move (moves.1 now.chronicle.tidy))
  marks_eq := by
    rw [underWay_concat_none]
    exact now.marks_eq
  heeded := now.heeded.concat ⟨moves.2 now.tabs, nofun⟩
  tabs := moves.2 now.tabs

theorem attendsClean_move (marks : Marks) (s t : Session) (log : List Glimpse)
    (moves : MovesTabs s t ∧ KeepsClean s t) (now : AttendsClean user past marks (s, log)) :
    AttendsClean user past marks (t, log ++ [⟨none, t.host.tabs⟩]) := by
  have clean := moves.2 now.2
  exact ⟨attends_move marks s t log ⟨moves.1, fun _ => clean.host⟩ now.1, clean⟩

/-- A submission's change of its tab, with its event, which exchanges its mark. -/
theorem attendsClean_event {log : List Glimpse} {s : Session} {id : Nat} {e : TabEvent}
    {change : Tab → Tab} {marks marks' : Marks} (now : AttendsClean user past marks (s, log))
    (changes : Change log s.host.tabs (some (id, e)) (s.host.tabs.update id change))
    (keeps : ∀ tab : Tab, tab.Clean → (change tab).Clean)
    (follows : e.Follows (eventsOf id log).getLast?)
    (same : tokensAt (Function.update (underWay log) id ((some e).filter (· ≠ .ended))) = marks') :
    AttendsClean user past marks' (updateTab id change s,
      log ++ [⟨some (id, e), (updateTab id change s).host.tabs⟩]) := by
  have clean : Memory.Clean Desk.Clean (updateTab id change s) := clean_updateTab keeps now.2
  refine ⟨⟨.change now.1.chronicle changes, ?_, now.1.heeded.concat ⟨clean.host, ?_⟩,
    clean.host⟩, clean⟩
  · rw [underWay_concat, same]
  · rintro _ _ ⟨⟩
    exact follows

/-! ## Lines and submissions -/

theorem holds_execute_telling (clean : commands.Clean Desk.Clean)
    (bodies : commands.Only MovesCleanTabs) {line : Text} (h : line.Clean) {own others : Marks}
    {now : Session × List Glimpse} (its : AttendsClean user past (own + others) now) :
    (telling none (execute commands line)).Holds (AttendsClean user past)
      (fun e own' now others => own' = own ∧ AttendsClean user past (own' + others) now ∧
        (∀ result, e = .done result → Heeds line result) ∧
          (line.words.head? = some clearWord → ∃ result, e = .done result)) own now others := by
  -- Every change of the line shows clean tabs; the memory need be clean only where the line waits.
  have moves := Interpreter.only_execute (fun _ _ own => (⟨movesTabs_of_eq (congrArg Desk.tabs
    own.host), fun kept => own.host ▸ kept⟩ : MovesCleanTabs _ _)) bodies line now.1
  have both := holds_and_ensures (holds_watch_of_only attends_move moves its.1)
    (ensures_watch (fun _ after => [⟨none, after.host.tabs⟩])
      (ensures_execute_clean clean h its.2) now.2)
  -- Other lines may break off, as a definition does that cannot be written.
  by_cases first : line.words.head? = some clearWord
  · refine holds_mono (holds_of_unbroken both ((unbroken_execute_of_clear first).watch _)) ?_
    rintro e own' now others ⟨⟨⟨same, attends⟩, fits⟩, answered⟩
    obtain ⟨after, heeds⟩ := fits.and_of_done
    exact ⟨same, ⟨attends, after⟩, heeds, fun _ => answered⟩
  · refine holds_mono both ?_
    rintro e own' now others ⟨⟨same, attends⟩, fits⟩
    obtain ⟨after, heeds⟩ := fits.and_of_done
    exact ⟨same, ⟨attends, after⟩, heeds, fun asked => absurd asked first⟩

/-- Behind its beginning a submission holds the mark of what it has come to. -/
theorem holds_answerTelling_clean (clean : commands.Clean Desk.Clean)
    (bodies : commands.Only MovesCleanTabs) (id : Nat) {command : Text} (h : command.Clean)
    {others : Marks} {now : Session × List Glimpse}
    (its : AttendsClean user past (tokenAt id (.begun command) + others) now) :
    (answerTelling (execute commands) id command).Holds (AttendsClean user past)
      (fun _ own now others => AttendsClean user past (own + others) now ∧
        ∃ e : TabEvent, own = tokenAt id e ∧ TabEvent.ended.Follows (some e))
      (tokenAt id (.begun command)) now others := by
  refine holds_bind (holds_execute_telling clean bodies h its) ?_ ?_
  · rintro result _ now others ⟨rfl, attends, heeds, -⟩
    have marks := attends.1.marks_eq
    have begun := (of_tokenAt_add marks).1
    have heeded := heeds result rfl
    have after := attendsClean_event attends
      (.answer id (stageOf_eq_of_underWay begun) result) (fun _ kept => kept.showResult heeded)
      ⟨command, (getLast?_of_underWay begun).1, heeded⟩ (tokensAt_update marks _)
    exact ⟨tokenAt id (.answered result), after, .answered result, rfl, nofun⟩
  · rintro cause _ now others ⟨rfl, attends, -, answered⟩
    refine ⟨attends, .begun command, rfl, ?_⟩
    rintro _ ⟨⟩ asked
    obtain ⟨_, impossible⟩ := answered asked
    cases impossible

theorem holds_submissionTelling_clean (clean : commands.Clean Desk.Clean)
    (bodies : commands.Only MovesCleanTabs) {tab : Tab} {others : Marks}
    {now : Session × List Glimpse} (its : AttendsClean user past others now)
    (mem : tab ∈ now.1.host.tabs.toList) (idle : tab.executing = false)
    (some_line : tab.buffer.strip ≠ []) :
    (submissionTelling (execute commands) tab.id tab.buffer.strip).Holds (AttendsClean user past)
      (AnyEnd (AttendsClean user past)) 0 now others := by
  have command : tab.buffer.strip.Clean := (its.1.tabs tab mem).buffer.strip
  have free := underWay_eq_none (its.1.chronicle.stageOf_eq_idle mem idle)
  have begun := attendsClean_event its (.begin tab mem idle some_line)
    (fun _ kept => kept.begin command) trivial
    ((tokensAt_update_of_none free _).trans (congrArg _ its.1.marks_eq.symm))
  refine ⟨tokenAt tab.id (.begun tab.buffer.strip), ?_⟩
  refine holds_andFinally (holds_answerTelling_clean clean bodies tab.id command begun) ?_
  rintro _ _ now others ⟨attends, e, rfl, follows⟩
  -- The mark says how far the submission has come, also when the line has broken off.
  have marks := attends.1.marks_eq
  have last := (of_tokenAt_add marks).1
  obtain ⟨its_last, busy⟩ := getLast?_of_underWay last
  have under_way : stageOf (eventsOf tab.id now.2) ≠ .idle := by
    rw [stageOf_eq_of_underWay last]
    cases e with
    | ended => exact absurd rfl busy
    | begun | answered => nofun
  exact ⟨0, attendsClean_event attends (.finish tab.id under_way) (fun _ kept => kept.finish)
    (its_last ▸ follows) (tokensAt_update marks _)⟩

/-- Clean steps leave a clean session, and their submissions heed their commands. -/
theorem lawful_workTelling_clean (clean : commands.Clean Desk.Clean)
    (bodies : commands.Only MovesCleanTabs) {step : Step} (h : step.Clean) :
    (workTelling commands.registry (execute commands) step).Lawful (AttendsClean user past) := by
  refine lawful_workTelling_of (P := Step.Clean) commands.registry ?_ ?_ (fun _ _ typed => typed)
    (fun _ parts _ mem => Step.AllClean.of_mem parts mem) step h
  · intro step quiet its now others attends
    by_cases line : ∃ line, step = .execute line
    · obtain ⟨line, rfl⟩ := line
      rw [work, telling, watch_map]
      refine holds_bind (holds_execute_telling clean bodies its attends) ?_ ?_
      · exact fun _ _ _ _ ends => ends.2.1
      · exact fun _ _ _ _ ends => ends.2.1
    · have moves := only_work commands.registry (only_execute bodies.movesTabs) quiet now.1
      have apart := only_and moves (only_work_keepsClean clean.registry (execute commands) quiet
        (fun its_line same => line ⟨its_line, same⟩) its now.1)
      exact holds_mono (holds_watch_of_only attendsClean_move apart attends)
        fun _ _ _ _ kept => kept.2
  · refine lawful_submitTelling_of fun now others attends tab mem idle some_line => ?_
    exact holds_submissionTelling_clean clean bodies attends mem idle some_line

theorem exists_attendsClean_tellAll (clean : commands.Clean Desk.Clean)
    (bodies : commands.Only MovesCleanTabs) {steps : List Step} (h : Step.AllClean steps)
    {marks : Marks} {now : Session × List Glimpse} (its : AttendsClean user past marks now) :
    ∃ marks, AttendsClean user past marks (tellAll commands now steps) := by
  induction steps generalizing marks now with
  | nil => exact ⟨marks, its⟩
  | cons step steps ih =>
    rw [Step.AllClean] at h
    obtain ⟨marks, after⟩ := Loop.run_lawful (lawful_workTelling_clean clean bodies h.1) marks its
    exact ih h.2 after

/-! ## Transcripts -/

/-- A change that fits what came before it clears transcripts where a command says so. -/
theorem clears_of_fits {before : List Glimpse} {tabs : Tabs} {g : Glimpse}
    (earlier : Chronicle user before tabs) (change : Change before tabs g.event g.tabs)
    (fits : g.Fits before) : g.Clears user before where
  clean tab mem := (fits.clean tab mem).lines
  answered id result its := by
    obtain ⟨command, last, heeded⟩ := fits.follows id _ its
    refine ⟨command, last, heeded, fun tab mem same => ?_⟩
    rw [its] at change
    rw [earlier.lines_eq_nil_iff change tab mem same, heeded.clears_iff]
  ended id command its last := fits.follows id _ its command last
  kept tab mem tab' mem' same other := by
    rw [earlier.tabsAfter_eq] at mem
    exact (change.becomes earlier.tidy mem mem' same).lines_grow other

/-- From any clean memory a clean line leads to a clean memory, whatever comes between that leaves
it clean, and the result heeds the line: it is the sequence that empties the terminal, and nothing
else, if the first word of the line is `clear`, and has no control sequence otherwise.

Once a session is clean, whatever clean steps are taken then, one after the other or gathered: the
session is clean behind them, and every change of the tabs clears transcripts exactly where the
submitted line has `clear` for its first word. -/
theorem clears_takeAll :
    (∀ {η : Type} (H : η → Prop) (commands : CommandSet η), commands.Clean H →
      ∀ (line : Text) (m : Memory η), line.Clean → Memory.Clean H m →
        (execute commands line).Ensures (Memory.Clean H)
            (fun result t => Memory.Clean H t ∧ Heeds line result) m ∧
          Memory.Clean H (Loop.run (execute commands line) m).2 ∧
          (∀ result, (Loop.run (execute commands line) m).1 = .done result →
            Heeds line result) ∧
          (commands.Solitary → (Loop.run (execute commands line) m).1 ≠ .stuck)) ∧
      ∀ commands : CommandSet Desk, commands.Clean Desk.Clean → commands.Only MovesCleanTabs →
        ∀ (user : User) (macros : Macros) (history : History) (past steps : List Step),
          Memory.Clean Desk.Clean (takeAll commands (.ofUser user macros history) past).2 →
            Step.AllClean steps →
              Memory.Clean Desk.Clean
                  (takeAll commands (.ofUser user macros history) (past ++ steps)).2 ∧
                ∀ before g after,
                  glimpses commands (.ofUser user macros history) (past ++ steps) =
                      before ++ g :: after →
                    (glimpses commands (.ofUser user macros history) past).length ≤
                        before.length →
                      g.Clears user before := by
  refine ⟨?_, ?_⟩
  · intro η H commands clean line m its now
    have ensures := ensures_execute_clean clean its now
    obtain ⟨after, heeds⟩ := Loop.run_ensures ensures
    refine ⟨ensures, after, heeds, fun solitary => ?_⟩
    obtain ⟨e, t, log, runs⟩ :=
      (solitary_run solitary depthBound line).exists_runs recordedBetween m
    have alone : (execute commands line).alone false m = (e, false, t) :=
      alone_underLock (runs.alone_eq true) runs.ne_stuck
    rw [Loop.run_eq_of_alone _ _ (by rw [alone]; exact runs.ne_stuck), alone]
    exact runs.ne_stuck
  · intro commands clean bodies user macros history past steps now fresh
    have chronicle := chronicle_glimpses bodies.movesTabs user macros history past
    have begins : AttendsClean user (glimpses commands (.ofUser user macros history) past)
        (tokensAt (underWay (glimpses commands (.ofUser user macros history) past)))
        (tellAll commands (.ofUser user macros history, []) past) := by
      rw [← tellAll_fst commands (.ofUser user macros history, [])] at chronicle now
      exact ⟨⟨chronicle, rfl, heeded_self _, now.host⟩, now⟩
    obtain ⟨marks, attends, after⟩ := exists_attendsClean_tellAll clean bodies fresh begins
    rw [← tellAll_append] at attends after
    rw [tellAll_fst] at after
    refine ⟨after, fun before g rest parts later => ?_⟩
    obtain ⟨tabs, earlier, change⟩ := attends.chronicle.split parts
    exact clears_of_fits earlier change (attends.heeded before g rest parts later)

/-- A macro that clears, and calls another one that clears. -/
def clearSession : Session :=
  .ofUser { username := "eve" }
    ⟨(MacroBook.empty.define "n" ["clear", "look"] (by decide)).define "m" ["clear", "macro.n"]
      (by decide), .empty, Macros.defaultKey⟩ .ofDefaultCapacity

/-- The macro in one tab, and a line that clears in another. -/
def clearStep : Step :=
  .gather [.openTab none, .enter "macro.m" (some 1), .enter " clear all" (some 2)]

/-- The transcript of the macro is not emptied, and the other one is. -/
theorem clears_takeAll_clear :
    watchCommands.Clean Desk.Clean ∧ watchCommands.Only MovesCleanTabs ∧
      Memory.Clean Desk.Clean clearSession ∧ Step.AllClean [clearStep] ∧
      (takeAll watchCommands clearSession [clearStep]).2.host.tabs.toList.map
          (fun tab => (tab.id, commandLines tab.lines, tab.lines.isEmpty)) =
        [(1, [Text.ofString "macro.m"], false), (2, [], true)] ∧
      Memory.Clean Desk.Clean (takeAll watchCommands clearSession [clearStep]).2 ∧
      ∀ before g after, glimpses watchCommands clearSession [clearStep] = before ++ g :: after →
        g.Clears { username := "eve" } before := by
  have done : (Outcome.result (.ok ["done"])).Clean := Result.clean_ok (by decide)
  have clean : watchCommands.Clean Desk.Clean := by
    refine ⟨by decide, fun d invocation user m _ _ now => ?_⟩
    exact ⟨now, fun t now => ⟨now, fun t now => ⟨now, done⟩⟩⟩
  have bodies : watchCommands.Only MovesCleanTabs := fun _ _ _ _ _ _ => trivial
  have now : Memory.Clean Desk.Clean clearSession :=
    clean_ofUser (by decide) (by decide) (by decide)
  have fresh : Step.AllClean [clearStep] := by
    simp only [Step.AllClean, Step.Clean, clearStep, true_and, and_true]
    decide
  have still : (Loop.turns 60
      (Loop.start (program watchCommands clearStep) false clearSession)).turn = none := rfl
  have shown : (takeAll watchCommands clearSession [clearStep]).2.host.tabs.toList.map
      (fun tab => (tab.id, commandLines tab.lines, tab.lines.isEmpty)) =
        [(1, [Text.ofString "macro.m"], false), (2, [], true)] := by
    change (Loop.start (program watchCommands clearStep) false
      clearSession).rest.floor.state.host.tabs.toList.map _ = _
    rw [Loop.rest_eq_turns still]
    rfl
  obtain ⟨after, clears⟩ := clears_takeAll.2 watchCommands clean bodies { username := "eve" }
    clearSession.macros .ofDefaultCapacity [] [clearStep] now fresh
  exact ⟨clean, bodies, now, fresh, shown, after, fun before g rest parts =>
    clears before g rest parts (Nat.zero_le _)⟩

end Session

end GatedConsole
