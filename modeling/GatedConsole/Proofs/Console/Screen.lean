import GatedConsole.Console.Prompt
import GatedConsole.Proofs.Console.Turns
import GatedConsole.Proofs.Session.Authority
import GatedConsole.Proofs.Session.Showing

/-!
The screen of the line console. Main statement: after every turn, whatever was typed and whatever
keys were pressed at the prompts, the lines on the screen are the lines of the transcript that are
no commands, in order and each once, but for the ones that a run without a banner began with; the
screen is cleared in the turns that emptied the transcript; and an exit word or the end of the input
ends the run and submits nothing.
-/

set_option autoImplicit false
set_option relaxedAutoImplicit false

namespace GatedConsole

namespace Console

open Session

/-! ## Acts -/

/-- What happens to the lines on the screen: there are more of them, or all of them go. -/
inductive Act where
  | printed (lines : List Line)
  | cleared
deriving DecidableEq

namespace Act

/-- How the console tells of an act. -/
def events (s : Session) : Act → List Event
  | .printed lines => printEvents s lines
  | .cleared => [.cleared]

/-- The lines on the screen behind an act. -/
def next (screen : List Line) : Act → List Line
  | .printed lines => screen ++ lines
  | .cleared => []

end Act

/-- The lines that acts leave on an empty screen. -/
def onScreen (acts : List Act) : List Line := acts.foldl Act.next []

/-- What was on the screen before stays above the rest, if it is not cleared. -/
theorem foldl_next (screen : List Line) (acts : List Act) :
    acts.foldl Act.next screen = (if .cleared ∈ acts then [] else screen) ++ onScreen acts := by
  induction acts generalizing screen with
  | nil => simp [onScreen]
  | cons act acts ih =>
    rw [onScreen, List.foldl_cons, List.foldl_cons, ih, ih (act.next [])]
    cases act with
    | printed lines => by_cases cleared : Act.cleared ∈ acts <;> simp [Act.next, cleared]
    | cleared => simp [Act.next]

def bannerActs (s : Session) (showBanner : Bool) : List Act :=
  if showBanner then [.printed s.tabs.active.lines] else []

/-- What a submission does to the screen, when the transcript had `seen` lines before it. -/
def actsOf (s : Session) (seen : Nat) : Option Result → List Act
  | none => []
  | some result =>
    if result.clears then [.cleared] else [.printed (s.tabs.active.lines.drop (seen + 1))]

def submitActs (commands : CommandSet Desk) (s : Session) (text : Text) : List Act :=
  let s := s.updateTab s.tabs.active.id (·.setBuffer text)
  match Loop.run (Session.submit (Interpreter.execute commands) none) s with
  | (.done result, t) => actsOf t s.tabs.active.lines.length result
  | _ => []

/-- What a turn does to the lines on the screen. -/
def turnActs (commands : CommandSet Desk) (s : Session) : Typed → List Act
  | .line text => if exitWords.contains text.strip then [] else submitActs commands s text
  | .interrupt | .endOfInput => []

theorem banner_eq (s : Session) (showBanner : Bool) :
    banner s showBanner = (bannerActs s showBanner).flatMap (Act.events s) := by
  cases showBanner with
  | false => rfl
  | true => exact (List.append_nil _).symm

theorem eventsOf_eq (s : Session) (seen : Nat) (result : Option Result) :
    eventsOf s seen result = (actsOf s seen result).flatMap (Act.events s) := by
  cases result with
  | none => rfl
  | some result =>
    rw [eventsOf, actsOf, Result.clears]
    split
    · rfl
    · exact (List.append_nil _).symm

/-- What the console says besides the lines of the transcript. -/
def remarks : Typed → List Event
  | .line text => if exitWords.contains text.strip then [farewell] else []
  | .interrupt => [interruptHint]
  | .endOfInput => [farewell]

/-- The events of a turn tell of its acts, and there is nothing else but the remarks. -/
theorem turn_fst (commands : CommandSet Desk) (s : Session) (typed : Typed) :
    (turn commands s typed).1 =
      (turnActs commands s typed).flatMap (Act.events (turn commands s typed).2.2) ++
        remarks typed := by
  cases typed with
  | interrupt | endOfInput => rfl
  | line text =>
    rw [turn, turnActs, remarks]
    split
    · rfl
    · rw [List.append_nil, submitActs, submitLine]
      dsimp only
      rcases Loop.run (Session.submit (Interpreter.execute commands) none)
        (s.updateTab s.tabs.active.id (·.setBuffer text)) with ⟨_ | _ | _, t⟩
      · exact eventsOf_eq t _ _
      · rfl
      · rfl

/-! ## Prompts -/

/-- What is done at a prompt before a line is entered there. -/
inductive Stroke where
  | edit (text : Text) (cursor : Nat)
  | press (key : Prompt.Key)

/-- The prompt and the session behind a stroke. -/
def strike (registry : Registry) (now : Prompt × Session) : Stroke → Prompt × Session
  | .edit text cursor => ({ now.1 with text := text, cursor := cursor }, now.2)
  | .press key => (now.1.press registry now.2 key).1

/-- The lines that a stroke prints: several suggestions are listed in the transcript and on the
screen. -/
def struckLines (registry : Registry) (now : Prompt × Session) : Stroke → List Line
  | .press .tab =>
    let s := now.1.copyTo now.2
    match s.tabs.get? now.1.tab with
    | none => []
    | some tab =>
      match s.complete registry tab with
      | (_ :: _ :: _, s) => ((s.tabs.get? now.1.tab).bind (·.lines.getLast?)).toList
      | _ => []
  | _ => []

theorem press_snd (registry : Registry) (prompt : Prompt) (s : Session) (key : Prompt.Key) :
    (prompt.press registry s key).2 =
      Display.printLines (prompt.press registry s key).1.2.user
        (struckLines registry (prompt, s) (.press key)) := by
  cases key with
  | up | down => rfl
  | tab =>
    rw [Prompt.press, Prompt.complete, struckLines]
    dsimp only
    cases (prompt.copyTo s).tabs.get? prompt.tab with
    | none => rfl
    | some tab =>
      dsimp only
      rcases (prompt.copyTo s).complete registry tab with ⟨_ | ⟨_, _ | _⟩, t⟩
      · rfl
      · rfl
      · dsimp only
        rw [Prompt.lastLine]
        cases t.tabs.get? prompt.tab with
        | none => rfl
        | some tab => rfl

/-- A stroke at the prompt of the active tab puts what it prints behind the transcript. -/
theorem shows_strike {id : Nat} {lines : List Line} {now : Prompt × Session} (registry : Registry)
    (its : now.1.tab = id) (h : Shows id false lines now.2) (stroke : Stroke) :
    (strike registry now stroke).1.tab = id ∧
      Shows id false (lines ++ struckLines registry now stroke) (strike registry now stroke).2 ∧
        ∀ line ∈ struckLines registry now stroke, line.kind = .system := by
  obtain ⟨prompt, s⟩ := now
  obtain rfl : prompt.tab = id := its
  have copied : Shows prompt.tab false lines (prompt.copyTo s) :=
    h.typing fun tab => tab.setBuffer_eq prompt.text
  cases stroke with
  | edit text cursor =>
    simp only [struckLines, List.append_nil]
    exact ⟨rfl, h, nofun⟩
  | press key =>
    cases key with
    | up =>
      simp only [struckLines, List.append_nil]
      exact ⟨rfl, copied.typing Tab.recallPrevious_eq, nofun⟩
    | down =>
      simp only [struckLines, List.append_nil]
      exact ⟨rfl, copied.typing Tab.recallNext_eq, nofun⟩
    | tab =>
      have completed := copied.complete registry
      rw [strike, struckLines, Prompt.press, Prompt.complete]
      dsimp only
      rw [copied.get?_eq]
      dsimp only
      generalize (prompt.copyTo s).complete registry (prompt.copyTo s).tabs.active = outcome
        at completed
      rcases outcome with ⟨_ | ⟨first, _ | ⟨second, rest⟩⟩, t⟩
      · exact ⟨rfl, completed, nofun⟩
      · exact ⟨rfl, completed, nofun⟩
      · dsimp only
        rw [completed.get?_eq, Option.bind_some, completed.lines_eq, listing,
          List.getLast?_concat]
        exact ⟨rfl, completed, by simp⟩

/-- The session behind the strokes, and the lines that they print. -/
def strikeAll (registry : Registry) : Prompt × Session → List Stroke → List Line × Session
  | now, [] => ([], now.2)
  | now, stroke :: strokes =>
    let (lines, s) := strikeAll registry (strike registry now stroke) strokes
    (struckLines registry now stroke ++ lines, s)

theorem shows_strikeAll {id : Nat} {lines : List Line} {now : Prompt × Session}
    (registry : Registry) (its : now.1.tab = id) (h : Shows id false lines now.2)
    (strokes : List Stroke) :
    Shows id false (lines ++ (strikeAll registry now strokes).1)
        (strikeAll registry now strokes).2 ∧
      ∀ line ∈ (strikeAll registry now strokes).1, line.kind = .system := by
  induction strokes generalizing now lines with
  | nil => exact ⟨by simpa [strikeAll] using h, by simp [strikeAll]⟩
  | cons stroke strokes ih =>
    obtain ⟨its, shows, kinds⟩ := shows_strike registry its h stroke
    obtain ⟨all_shown, all_kinds⟩ := ih its shows
    rw [List.append_assoc] at all_shown
    exact ⟨all_shown, List.forall_mem_append.2 ⟨kinds, all_kinds⟩⟩

/-! ## Turns -/

/-- One answer to the prompt: strokes, and then a line or the end of the input. -/
structure Input where
  strokes : List Stroke
  typed : Typed

namespace Input

/-- The line is one to be submitted, if it does not end the run. -/
def Submits (input : Input) : Prop := ∃ text, input.typed = .line text ∧ text.strip ≠ []

/-- The input ends the run. -/
def Leaves (input : Input) : Prop :=
  input.typed = .endOfInput ∨ ∃ text, input.typed = .line text ∧ text.strip ∈ exitWords

end Input

/-- What has been printed and what the session is when the line is entered. -/
def atPrompt (commands : CommandSet Desk) (s : Session) (input : Input) : List Line × Session :=
  strikeAll commands.registry ({ tab := s.tabs.active.id }, s) input.strokes

/-- What a turn comes to, with the strokes at its prompt. -/
def answered (commands : CommandSet Desk) (s : Session) (input : Input) :
    List Event × Verdict × Session :=
  turn commands (atPrompt commands s input).2 input.typed

/-- What happens to the lines on the screen in a turn, with the strokes at its prompt. -/
def inputActs (commands : CommandSet Desk) (s : Session) (input : Input) : List Act :=
  .printed (atPrompt commands s input).1 ::
    turnActs commands (atPrompt commands s input).2 input.typed

/-- The lines that are no commands. -/
def withoutCommands (lines : List Line) : List Line := lines.filter (·.kind ≠ .command)

/-- What shows a submission on the screen. -/
def resultActs : Option Result → List Act
  | none => []
  | some result => if result.clears then [.cleared] else [.printed result.shown]

variable {commands : CommandSet Desk} {id : Nat} {lines after : List Line} {s t : Session}
  {result : Option Result} {command : Text}

theorem actsOf_eq (h : Submitted command lines result after) (shows : Shows id false after t) :
    actsOf t lines.length result = resultActs result := by
  cases h with
  | nothing => rfl
  | line result =>
    rw [actsOf, resultActs, shows.lines_eq]
    split
    · rfl
    · rename_i stays
      have seen : (lines ++ [(⟨.command, command⟩ : Line)]).length = lines.length + 1 :=
        List.length_append
      rw [linesAfter, if_neg stays, List.append_cons, List.drop_left' seen]

theorem withoutCommands_shown (result : Result) : withoutCommands result.shown = result.shown := by
  rw [withoutCommands, List.filter_eq_self, Result.shown]
  intro line mem
  split at mem
  · obtain ⟨_, -, rfl⟩ := List.mem_map.1 mem
    rfl
  · rw [List.mem_singleton.1 mem]
    rfl

theorem withoutCommands_of_submitted (h : Submitted command lines result after) :
    withoutCommands after = (resultActs result).foldl Act.next (withoutCommands lines) := by
  cases h with
  | nothing => rfl
  | line result =>
    rw [linesAfter, resultActs]
    split
    · rfl
    · rw [List.foldl_cons, List.foldl_nil, Act.next, ← withoutCommands_shown result]
      simp [withoutCommands]

theorem cleared_mem_resultActs (h : Submitted command lines result after) :
    .cleared ∈ resultActs result ↔ command ≠ [] ∧ after = [] := by
  cases h with
  | nothing blank => simp [resultActs, blank]
  | line result some_line =>
    rw [resultActs, linesAfter]
    split <;> simp [some_line]

theorem isPrefix_of_submitted (h : Submitted command lines result after)
    (stays : .cleared ∉ resultActs result) : lines <+: after := by
  cases h with
  | nothing => exact List.prefix_rfl
  | line result =>
    rw [resultActs] at stays
    split at stays
    · exact absurd (List.mem_singleton.2 rfl) stays
    · rename_i uncleared
      rw [linesAfter, if_neg uncleared]
      exact List.prefix_append _ _

theorem turnActs_line_of_ran {text : Text} (stays : text.strip ∉ exitWords)
    (ran : Loop.run (Session.submit (Interpreter.execute commands) none)
      (s.updateTab s.tabs.active.id (·.setBuffer text)) = (.done result, t)) :
    turnActs commands s (.line text) =
      actsOf t (s.updateTab s.tabs.active.id (·.setBuffer text)).tabs.active.lines.length
        result := by
  have no_exit : ¬exitWords.contains text.strip = true := by simpa using stays
  rw [turnActs, if_neg no_exit, submitActs, ran]

/-- A line that does not end the run is submitted as it was typed. -/
theorem exists_submitted_of_turn (bodies : commands.Only KeepsTranscript)
    (h : Shows id false lines s) {text : Text} (stays : text.strip ∉ exitWords)
    (goes_on : (turn commands s (.line text)).2.1 = .goOn) :
    ∃ result after, Submitted text.strip lines result after ∧
      Shows id false after (turn commands s (.line text)).2.2 ∧
        turnActs commands s (.line text) = resultActs result := by
  obtain ⟨result, t, ran⟩ := exists_ran_of_turn stays goes_on
  have entered : Shows id false lines (s.updateTab s.tabs.active.id (·.setBuffer text)) := by
    rw [h.id_eq]
    exact h.typing fun tab => tab.setBuffer_eq text
  have its_buffer := h.buffer_setBuffer text
  rw [← h.id_eq] at its_buffer
  obtain ⟨after, submitted, shows⟩ := exists_submitted bodies entered ran
  have acts := turnActs_line_of_ran stays ran
  rw [its_buffer] at submitted
  rw [entered.lines_eq, actsOf_eq submitted shows] at acts
  exact ⟨result, after, submitted, by rwa [turn_line_of_ran stays ran], acts⟩

/-- What a turn that goes on does to screen and transcript. -/
structure Turned (lines after : List Line) (acts : List Act) (input : Input) : Prop where
  screen : withoutCommands after = acts.foldl Act.next (withoutCommands lines)
  cleared_iff : .cleared ∈ acts ↔ input.Submits ∧ after = []
  grown : .cleared ∉ acts → lines <+: after

theorem turned_of_submitted {printed : List Line} (kinds : ∀ line ∈ printed, line.kind = .system)
    (h : Submitted command (lines ++ printed) result after) {input : Input}
    (submits : input.Submits ↔ command ≠ []) :
    Turned lines after (.printed printed :: resultActs result) input where
  screen := by
    have all : withoutCommands printed = printed :=
      List.filter_eq_self.2 fun line mem => by simp [kinds line mem]
    rw [withoutCommands_of_submitted h, List.foldl_cons, Act.next]
    nth_rewrite 2 [← all]
    rw [withoutCommands, List.filter_append]
    rfl
  cleared_iff := by
    rw [List.mem_cons, submits, ← cleared_mem_resultActs h]
    simp
  grown stays := by
    rw [List.mem_cons, not_or] at stays
    exact (List.prefix_append lines printed).trans (isPrefix_of_submitted h stays.2)

/-- What has been printed and what the tab shows when the line is entered. -/
theorem shows_atPrompt (commands : CommandSet Desk) (h : Shows id false lines s) (input : Input) :
    Shows id false (lines ++ (atPrompt commands s input).1) (atPrompt commands s input).2 ∧
      ∀ line ∈ (atPrompt commands s input).1, line.kind = .system :=
  shows_strikeAll commands.registry h.id_eq h input.strokes

theorem exists_turned (bodies : commands.Only KeepsTranscript) (h : Shows id false lines s)
    {input : Input} (goes_on : (answered commands s input).2.1 = .goOn) :
    ∃ after, Shows id false after (answered commands s input).2.2 ∧
      Turned lines after (inputActs commands s input) input := by
  obtain ⟨shows, kinds⟩ := shows_atPrompt commands h input
  obtain ⟨strokes, typed⟩ := input
  cases typed with
  | line text =>
    by_cases stays : text.strip ∈ exitWords
    · rw [answered, turn, if_pos (by simpa using stays)] at goes_on
      cases goes_on
    · obtain ⟨result, after, submitted, shows, acts⟩ :=
        exists_submitted_of_turn bodies shows stays goes_on
      refine ⟨after, shows, ?_⟩
      rw [inputActs, acts]
      exact turned_of_submitted kinds submitted (by simp [Input.Submits])
  | interrupt =>
    exact ⟨_, shows, turned_of_submitted kinds (.nothing rfl) (by simp [Input.Submits])⟩
  | endOfInput => cases goes_on

/-- An exit word or the end of the input ends the run, and nothing else does; nothing is submitted,
and nothing more printed. -/
theorem answered_leave_iff (commands : CommandSet Desk) (s : Session) (input : Input) :
    ((answered commands s input).2.1 = .leave ↔ input.Leaves) ∧
      (input.Leaves → (answered commands s input).2.2 = (atPrompt commands s input).2 ∧
        inputActs commands s input = [.printed (atPrompt commands s input).1]) := by
  obtain ⟨strokes, typed⟩ := input
  rw [inputActs, answered]
  cases typed with
  | interrupt => simp [turn, Input.Leaves]
  | endOfInput => simp [turn, turnActs, Input.Leaves]
  | line text =>
    by_cases stays : text.strip ∈ exitWords
    · simp [turn, turnActs, Input.Leaves, stays]
    · have no_exit : ¬exitWords.contains text.strip = true := by simpa using stays
      have goes_on : ¬Input.Leaves ⟨strokes, .line text⟩ := by simp [Input.Leaves, stays]
      rw [turn, if_neg no_exit]
      refine ⟨⟨fun leaves => ?_, fun leaves => absurd leaves goes_on⟩,
        fun leaves => absurd leaves goes_on⟩
      exact absurd leaves (verdictOf_ne_leave _)

/-! ## Runs -/

/-- Turn after turn from `s₀`, the console has come to a prompt. -/
inductive Prompted (commands : CommandSet Desk) (s₀ : Session) :
    List Input → List Act → Session → Prop
  | start : Prompted commands s₀ [] [] s₀
  | step {inputs : List Input} {acts : List Act} {s : Session}
      (h : Prompted commands s₀ inputs acts s) (input : Input)
      (goes_on : (answered commands s input).2.1 = .goOn) :
      Prompted commands s₀ (inputs ++ [input]) (acts ++ inputActs commands s input)
        (answered commands s input).2.2

/-- Where nothing but lines is typed, that is where the console goes on. -/
theorem Prompted.turns_eq {s₀ : Session} {typed : List Typed} {inputs : List Input}
    {acts : List Act} (h : Prompted commands s₀ inputs acts s)
    (its_inputs : typed.map (Input.mk []) = inputs) :
    ∃ events, ∀ rest, turns commands s₀ (typed ++ rest) =
      { turns commands s rest with events := events ++ (turns commands s rest).events } := by
  induction h generalizing typed with
  | start =>
    obtain rfl := List.map_eq_nil_iff.1 its_inputs
    exact ⟨[], fun rest => rfl⟩
  | @step inputs acts s h input goes_on ih =>
    obtain ⟨first, last, rfl, rfl, same⟩ := List.map_eq_append_iff.1 its_inputs
    obtain ⟨word, rfl, rfl⟩ := List.map_eq_singleton_iff.1 same
    obtain ⟨events, earlier⟩ := ih rfl
    refine ⟨events ++ question s :: (turn commands s word).1, fun rest => ?_⟩
    have its_turn : answered commands s ⟨[], word⟩ = turn commands s word := rfl
    rw [its_turn] at goes_on ⊢
    rw [List.append_assoc, List.singleton_append, earlier, turns_cons goes_on]
    simp

/-- The screen and the transcript go together from a start with the transcript `lines`. -/
theorem exists_shows_of_prompted (bodies : commands.Only KeepsTranscript) {s₀ : Session}
    (h : Shows id false lines s₀) {inputs : List Input} {acts : List Act}
    (run : Prompted commands s₀ inputs acts s) :
    ∃ now, Shows id false now s ∧
      withoutCommands now = acts.foldl Act.next (withoutCommands lines) := by
  induction run with
  | start => exact ⟨lines, h, rfl⟩
  | step _ input goes_on ih =>
    obtain ⟨now, shows, screen⟩ := ih
    obtain ⟨after, shows_after, turned⟩ := exists_turned bodies shows goes_on
    exact ⟨after, shows_after, by rw [turned.screen, screen, List.foldl_append]⟩

/-- Whatever is typed and whatever keys are pressed at the prompts, if bodies leave the transcript
alone: at every prompt the lines of the transcript that are no commands are the lines on the screen,
but for those that a run without a banner began with, until they go; a turn clears the screen just
when it empties the transcript; an exit word or the end of the input ends the run, with nothing
submitted; what the banner, the keys and the turns print is the text of these acts; and where no key
is pressed that is how the run goes. -/
theorem screen_of_prompted (commands : CommandSet Desk) (bodies : commands.Only KeepsTranscript)
    {id : Nat} {lines : List Line} {s₀ s : Session} (h : Shows id false lines s₀)
    (fresh : ∀ line ∈ lines, line.kind ≠ .command) (showBanner : Bool) {inputs : List Input}
    {acts : List Act} (run : Prompted commands s₀ inputs acts s) :
    (∃ now, Shows id false now s ∧
      withoutCommands now =
        (if showBanner = true ∨ .cleared ∈ acts then [] else lines) ++
          onScreen (bannerActs s₀ showBanner ++ acts) ∧
      ∀ input,
        ((answered commands s input).2.1 = .goOn →
          ∃ after, Shows id false after (answered commands s input).2.2 ∧
            (.cleared ∈ inputActs commands s input ↔ input.Submits ∧ after = []) ∧
            (.cleared ∉ inputActs commands s input → now <+: after)) ∧
        ((answered commands s input).2.1 = .leave ↔ input.Leaves) ∧
        (input.Leaves → (answered commands s input).2.2 = (atPrompt commands s input).2 ∧
          inputActs commands s input = [.printed (atPrompt commands s input).1]) ∧
        (answered commands s input).1 =
          (turnActs commands (atPrompt commands s input).2 input.typed).flatMap
            (Act.events (answered commands s input).2.2) ++ remarks input.typed) ∧
      banner s₀ showBanner = (bannerActs s₀ showBanner).flatMap (Act.events s₀) ∧
      (∀ (prompt : Prompt) (t : Session) (key : Prompt.Key),
        (prompt.press commands.registry t key).2 =
          Display.printLines (prompt.press commands.registry t key).1.2.user
            (struckLines commands.registry (prompt, t) (.press key))) ∧
      ∀ typed, typed.map (Input.mk []) = inputs → ∃ events, ∀ rest,
        turns commands s₀ (typed ++ rest) =
          { turns commands s rest with events := events ++ (turns commands s rest).events } := by
  obtain ⟨now, shows, screen⟩ := exists_shows_of_prompted bodies h run
  have all : withoutCommands lines = lines :=
    List.filter_eq_self.2 fun line mem => decide_eq_true (fresh line mem)
  refine ⟨⟨now, shows, ?_, fun input => ⟨fun goes_on => ?_, ?_⟩⟩, banner_eq s₀ showBanner,
    press_snd commands.registry, fun _ => run.turns_eq⟩
  · rw [screen, all, foldl_next]
    cases showBanner with
    | false => simp [bannerActs]
    | true => simp [bannerActs, h.lines_eq, onScreen, Act.next, foldl_next lines]
  · obtain ⟨after, shows_after, turned⟩ := exists_turned bodies shows goes_on
    exact ⟨after, shows_after, turned.cleared_iff, turned.grown⟩
  · obtain ⟨ends, nothing⟩ := answered_leave_iff commands s input
    exact ⟨ends, nothing, turn_fst commands _ input.typed⟩

/-- At the prompt the suggestions are asked for and listed, and then a command is run that answers
with one line. -/
def lookInput : Input := ⟨[.edit "m" 1, .press .tab], .line " look "⟩

/-- The session in which the line of that input is submitted. -/
private def lookEntered : Session :=
  let s := (atPrompt watchCommands watchSession lookInput).2
  s.updateTab s.tabs.active.id (·.setBuffer " look ")

private def lookLoop : Loop Escape Session (Option Result) :=
  Loop.turns 10 (Loop.start (Session.submit (Interpreter.execute watchCommands) none) false
    lookEntered)

private theorem run_look : Loop.run (Session.submit (Interpreter.execute watchCommands) none)
    lookEntered = (.done (some (.ok ["done"])), lookLoop.floor.state) := by
  have still : lookLoop.turn = none := rfl
  rw [Loop.run_eq_turns still]
  rfl

theorem screen_of_prompted_look :
    watchCommands.Only KeepsTranscript ∧
      Prompted watchCommands watchSession [lookInput]
        (inputActs watchCommands watchSession lookInput)
        (answered watchCommands watchSession lookInput).2.2 ∧
      ∃ now, Shows 1 false now (answered watchCommands watchSession lookInput).2.2 ∧
        withoutCommands now = watchSession.tabs.active.lines ++
          [⟨.system, "Possible completions: macros, macro.m"⟩, ⟨.output, "done"⟩] := by
  have bodies : watchCommands.Only KeepsTranscript := fun _ _ _ _ _ _ => trivial
  have starts : Shows 1 false watchSession.tabs.active.lines watchSession :=
    ⟨nofun, rfl, rfl, rfl⟩
  have its_acts := turnActs_line_of_ran (by decide) run_look
  have goes_on : (answered watchCommands watchSession lookInput).2.1 = .goOn :=
    congrArg Prod.fst (turn_line_of_ran (by decide) run_look)
  have acts : inputActs watchCommands watchSession lookInput =
      [.printed [⟨.system, "Possible completions: macros, macro.m"⟩],
        .printed [⟨.output, "done"⟩]] := by
    have printed : (atPrompt watchCommands watchSession lookInput).1 =
        [⟨.system, "Possible completions: macros, macro.m"⟩] := rfl
    change .printed (atPrompt watchCommands watchSession lookInput).1 ::
      turnActs watchCommands _ (.line " look ") = _
    rw [printed, its_acts]
    rfl
  have run := Prompted.step .start lookInput goes_on
  refine ⟨bodies, run, ?_⟩
  obtain ⟨⟨now, shows, screen, -⟩, -⟩ :=
    screen_of_prompted watchCommands bodies starts (by decide) false run
  refine ⟨now, shows, ?_⟩
  rw [screen, acts]
  rfl

end Console

end GatedConsole
