import GatedConsole.Proofs.History
import GatedConsole.Proofs.Text.Words
import GatedConsole.Session.State
import Mathlib.Data.List.Induction

/-!
The life of a tab, with what its submissions did to it. Main statements: a tab is executing exactly
while a submission of its own is under way, its transcript holds one exchange for every submission
since it was last emptied, and nothing stands between a command and the lines of its own result.
-/

set_option autoImplicit false
set_option relaxedAutoImplicit false

namespace GatedConsole

/-- What a submission does to its tab: it begins with a command, it may show a result, and it
ends. -/
inductive TabEvent where
  | begun (command : Text)
  | answered (result : Result)
  | ended
deriving DecidableEq

/-- How far the submission of a tab has come that is under way, if one is. -/
inductive Stage where
  | idle
  | pending
  | answered
deriving DecidableEq

namespace TabEvent

def stage : TabEvent → Stage
  | begun _ => .pending
  | answered _ => .answered
  | ended => .idle

def command? : TabEvent → Option Text
  | begun command => some command
  | _ => none

def isBegun : TabEvent → Bool
  | begun _ => true
  | _ => false

def isEnded : TabEvent → Bool
  | ended => true
  | _ => false

end TabEvent

def stageOf (events : List TabEvent) : Stage := (events.getLast?.map TabEvent.stage).getD .idle

@[simp] theorem stageOf_nil : stageOf [] = .idle := rfl

@[simp] theorem stageOf_concat (events : List TabEvent) (e : TabEvent) :
    stageOf (events ++ [e]) = e.stage := by
  rw [stageOf, List.getLast?_concat]
  rfl

/-- Events in the order that submissions have: begun when none is under way, answered once at most,
and then ended. -/
inductive Orderly : List TabEvent → Prop
  | none : Orderly []
  | begin {events : List TabEvent} (h : Orderly events) (idle : stageOf events = .idle)
      (command : Text) : Orderly (events ++ [.begun command])
  | answer {events : List TabEvent} (h : Orderly events) (pending : stageOf events = .pending)
      (result : Result) : Orderly (events ++ [.answered result])
  | finish {events : List TabEvent} (h : Orderly events) (busy : stageOf events ≠ .idle) :
      Orderly (events ++ [.ended])

/-- As many submissions have ended as have begun, but for the one that is under way. -/
theorem Orderly.countP_isBegun {events : List TabEvent} (h : Orderly events) :
    events.countP TabEvent.isBegun =
      events.countP TabEvent.isEnded + if stageOf events = .idle then 0 else 1 := by
  induction h with
  | none => rfl
  | begin _ idle command ih =>
    rw [if_pos idle] at ih
    rw [List.countP_append, List.countP_append, ih, stageOf_concat]
    rfl
  | answer _ pending result ih =>
    rw [pending] at ih
    rw [List.countP_append, List.countP_append, ih, stageOf_concat]
    rfl
  | finish _ busy ih =>
    rw [if_neg busy] at ih
    rw [List.countP_append, List.countP_append, ih, stageOf_concat]
    rfl

/-! ## Exchanges -/

/-- A result that empties the transcript. -/
def Result.clears (result : Result) : Bool :=
  result.success && result.output = [Interpreter.clearSequence]

/-- The lines that show a result. -/
def Result.shown (result : Result) : List Line :=
  if result.success then result.output.map (⟨.output, ·⟩)
  else [⟨.error, Tab.errorLine result⟩]

theorem Tab.showResult_eq (tab : Tab) (result : Result) :
    tab.showResult Interpreter.clearSequence result =
      { tab with lines := if result.clears then [] else tab.lines ++ result.shown } := by
  unfold showResult Result.clears Result.shown
  cases result.success
  · rfl
  · by_cases clears : result.output = [Interpreter.clearSequence] <;> simp [clears]

/-- A command with its result, if it has one. -/
abbrev Exchange := Text × Option Result

/-- The last exchange gets its result. -/
def answerLast (exchanges : List Exchange) (result : Result) : List Exchange :=
  exchanges.dropLast ++ (exchanges.getLast?.map fun last => (last.1, some result)).toList

theorem map_fst_answerLast (exchanges : List Exchange) (result : Result) :
    (answerLast exchanges result).map (·.1) = exchanges.map (·.1) := by
  cases last : exchanges.getLast? with
  | none =>
    rw [List.getLast?_eq_none_iff.1 last]
    rfl
  | some exchange =>
    obtain ⟨before, rfl⟩ := List.getLast?_eq_some_iff.1 last
    simp [answerLast]

def exchangesAfter (exchanges : List Exchange) : TabEvent → List Exchange
  | .begun command => exchanges ++ [(command, none)]
  | .answered result => if result.clears then [] else answerLast exchanges result
  | .ended => exchanges

/-- The exchanges since the transcript was last emptied. -/
def exchangesOf (events : List TabEvent) : List Exchange := events.foldl exchangesAfter []

@[simp] theorem exchangesOf_concat (events : List TabEvent) (e : TabEvent) :
    exchangesOf (events ++ [e]) = exchangesAfter (exchangesOf events) e := by
  rw [exchangesOf, List.foldl_append]
  rfl

/-- The commands of all submissions, oldest first. -/
def commandsOf (events : List TabEvent) : List Text := events.filterMap TabEvent.command?

@[simp] theorem commandsOf_concat (events : List TabEvent) (e : TabEvent) :
    commandsOf (events ++ [e]) = commandsOf events ++ e.command?.toList := by
  rw [commandsOf, List.filterMap_append]
  cases e <;> rfl

def sinceClearAfter (count : Nat) : TabEvent → Nat
  | .begun _ => count + 1
  | .answered result => if result.clears then 0 else count
  | .ended => count

/-- How many submissions have begun since the last one whose result emptied the transcript. -/
def sinceClear (events : List TabEvent) : Nat := events.foldl sinceClearAfter 0

@[simp] theorem sinceClear_concat (events : List TabEvent) (e : TabEvent) :
    sinceClear (events ++ [e]) = sinceClearAfter (sinceClear events) e := by
  rw [sinceClear, List.foldl_append]
  rfl

/-- The commands of the exchanges are the last ones of all. -/
theorem map_fst_exchangesOf (events : List TabEvent) :
    (exchangesOf events).map (·.1) =
      (commandsOf events).rtake (sinceClear events) := by
  suffices ∃ before, commandsOf events = before ++ (exchangesOf events).map (·.1) ∧
      ((exchangesOf events).map (·.1)).length = sinceClear events by
    obtain ⟨before, parts, length⟩ := this
    rw [parts, History.rtake_append_of_length_le before (Nat.le_of_eq length), length,
      Nat.sub_self, List.rtake_zero, List.nil_append]
  -- What stands before the exchanges changes only when a result empties the transcript.
  induction events using List.reverseRecOn with
  | nil => exact ⟨[], rfl, rfl⟩
  | append_singleton events e ih =>
    obtain ⟨before, parts, length⟩ := ih
    cases e with
    | begun command => exact ⟨before, by simp [parts, exchangesAfter, TabEvent.command?],
        by simpa [exchangesAfter, sinceClearAfter] using length⟩
    | ended => exact ⟨before, by simp [parts, exchangesAfter, TabEvent.command?],
        by simpa [exchangesAfter, sinceClearAfter] using length⟩
    | answered result =>
      by_cases clears : result.clears
      · exact ⟨commandsOf events, by simp [clears, exchangesAfter, TabEvent.command?],
          by simp [clears, exchangesAfter, sinceClearAfter]⟩
      · refine ⟨before, ?_, ?_⟩
        · simp [parts, clears, exchangesAfter, TabEvent.command?, map_fst_answerLast]
        · simpa [clears, exchangesAfter, sinceClearAfter, map_fst_answerLast] using length

/-- Exchanges in a transcript: each is a command and, right behind it, the lines of its result.
Between exchanges there may be lines of the system. -/
inductive Transcript : List Line → List Exchange → Prop
  | empty : Transcript [] []
  | note {lines : List Line} {exchanges : List Exchange} (h : Transcript lines exchanges)
      (content : Text) : Transcript (lines ++ [⟨.system, content⟩]) exchanges
  | exchange {lines : List Line} {exchanges : List Exchange} (h : Transcript lines exchanges)
      (command : Text) (result : Option Result) :
      Transcript (lines ++ ⟨.command, command⟩ :: (result.map Result.shown).getD [])
        (exchanges ++ [(command, result)])

/-- The commands that a transcript shows. -/
def commandLines (lines : List Line) : List Text :=
  (lines.filter (·.kind = .command)).map (·.content)

theorem commandLines_shown (result : Result) : commandLines result.shown = [] := by
  unfold commandLines Result.shown
  split
  · simp [List.filter_map, Function.comp_def]
  · simp

theorem Transcript.commandLines_eq {lines : List Line} {exchanges : List Exchange}
    (h : Transcript lines exchanges) : commandLines lines = exchanges.map (·.1) := by
  have append (lines lines' : List Line) :
      commandLines (lines ++ lines') = commandLines lines ++ commandLines lines' := by
    simp [commandLines]
  induction h with
  | empty => rfl
  | note h content ih =>
    rw [append, ih]
    exact List.append_nil _
  | exchange h command result ih =>
    have first (rest : List Line) : commandLines (⟨.command, command⟩ :: rest) =
        command :: commandLines rest := rfl
    rw [append, ih, first, List.map_append]
    cases result with
    | none => rfl
    | some result =>
      rw [Option.map_some, Option.getD_some, commandLines_shown]
      rfl

theorem Transcript.notes (contents : List Text) :
    Transcript (contents.map (⟨.system, ·⟩)) [] := by
  induction contents using List.reverseRecOn with
  | nil => exact .empty
  | append_singleton contents content ih =>
    rw [List.map_append]
    exact .note ih content

/-! ## Lives -/

/-- What becomes of a tab between the events of its submissions: keys are typed, and suggestions
come to an idle tab. -/
inductive Tab.Aside (tab : Tab) : Tab → Prop
  | typed (text : Text) : Aside tab (tab.setBuffer text)
  | back : Aside tab tab.recallPrevious
  | forth : Aside tab tab.recallNext
  | suggested (idle : tab.executing = false) (suggestions : List Text) :
      Aside tab (Session.showSuggestions suggestions tab)

/-- The lives of tabs: opened, changed aside, and changed by submissions, one at a time. -/
inductive Life : List TabEvent → Tab → Prop
  | opened (id : Nat) (title : Text) (user : User) : Life [] (.new id title user)
  | aside {events : List TabEvent} {tab tab' : Tab} (h : Life events tab) (aside : tab.Aside tab') :
      Life events tab'
  | begin {events : List TabEvent} {tab : Tab} (h : Life events tab)
      (idle : tab.executing = false) (some_line : tab.buffer.strip ≠ []) :
      Life (events ++ [.begun tab.buffer.strip]) (tab.begin tab.buffer.strip)
  | answer {events : List TabEvent} {tab : Tab} (h : Life events tab)
      (pending : stageOf events = .pending) (result : Result) :
      Life (events ++ [.answered result]) (tab.showResult Interpreter.clearSequence result)
  | finish {events : List TabEvent} {tab : Tab} (h : Life events tab)
      (busy : stageOf events ≠ .idle) : Life (events ++ [.ended]) tab.finish

namespace Tab

theorem setBuffer_eq (tab : Tab) (text : Text) :
    ∃ buffer cursor, tab.setBuffer text = { tab with buffer := buffer, cursor := cursor } := by
  unfold setBuffer
  split
  · exact ⟨_, _, rfl⟩
  · exact ⟨_, _, rfl⟩

theorem recallPrevious_eq (tab : Tab) :
    ∃ buffer cursor, tab.recallPrevious = { tab with buffer := buffer, cursor := cursor } := by
  unfold recallPrevious
  split
  · exact ⟨_, _, rfl⟩
  · split <;> exact ⟨_, _, rfl⟩

theorem recallNext_eq (tab : Tab) :
    ∃ buffer cursor, tab.recallNext = { tab with buffer := buffer, cursor := cursor } := by
  unfold recallNext
  split
  · exact ⟨_, _, rfl⟩
  · split <;> exact ⟨_, _, rfl⟩

end Tab

namespace Tab.Aside

variable {tab tab' : Tab}

/-- All that changes aside are the typed line and the cursor; or else a note comes into the
transcript of an idle tab. -/
theorem cases_eq (h : tab.Aside tab') :
    (∃ buffer cursor, tab' = { tab with buffer := buffer, cursor := cursor }) ∨
      tab.executing = false ∧ ∃ content, tab' = tab.addLine .system content := by
  cases h with
  | typed text => exact .inl (tab.setBuffer_eq text)
  | back => exact .inl tab.recallPrevious_eq
  | forth => exact .inl tab.recallNext_eq
  | suggested idle suggestions =>
    unfold Session.showSuggestions
    split
    · exact .inl ⟨_, _, rfl⟩
    · exact .inl ⟨_, _, rfl⟩
    · exact .inr ⟨idle, _, rfl⟩

theorem id_eq (h : tab.Aside tab') : tab'.id = tab.id := by
  obtain ⟨_, _, rfl⟩ | ⟨_, _, rfl⟩ := h.cases_eq <;> rfl

theorem executing_eq (h : tab.Aside tab') : tab'.executing = tab.executing := by
  obtain ⟨_, _, rfl⟩ | ⟨_, _, rfl⟩ := h.cases_eq <;> rfl

theorem submitted_eq (h : tab.Aside tab') : tab'.submitted = tab.submitted := by
  obtain ⟨_, _, rfl⟩ | ⟨_, _, rfl⟩ := h.cases_eq <;> rfl

/-- What is typed or suggested leaves an executing tab as it is. -/
theorem of_executing (h : tab.Aside tab') (executing : tab.executing = true) :
    tab' = tab ∨ tab' = tab.recallPrevious ∨ tab' = tab.recallNext := by
  cases h with
  | typed text =>
    rw [setBuffer, if_pos executing]
    exact .inl rfl
  | back => exact .inr (.inl rfl)
  | forth => exact .inr (.inr rfl)
  | suggested idle suggestions =>
    rw [executing] at idle
    cases idle

end Tab.Aside

namespace Life

variable {events : List TabEvent} {tab : Tab}

/-- A tab is executing exactly while a submission is under way. -/
theorem executing_iff (h : Life events tab) : tab.executing = true ↔ stageOf events ≠ .idle := by
  induction h with
  | opened id title user => simp [Tab.new]
  | aside _ aside ih => rw [aside.executing_eq, ih]
  | begin => simp [Tab.begin, TabEvent.stage]
  | answer _ pending result ih =>
    rw [Tab.showResult_eq]
    simp only [pending, stageOf_concat, TabEvent.stage] at ih ⊢
    simpa using ih
  | finish => simp [Tab.finish, TabEvent.stage]

theorem stageOf_eq_idle (h : Life events tab) (idle : tab.executing = false) :
    stageOf events = .idle := by
  by_contra busy
  rw [h.executing_iff.2 busy] at idle
  cases idle

theorem orderly (h : Life events tab) : Orderly events := by
  induction h with
  | opened => exact .none
  | aside _ _ ih => exact ih
  | begin h idle _ ih => exact .begin ih (h.stageOf_eq_idle idle) _
  | answer _ pending result ih => exact .answer ih pending result
  | finish _ busy ih => exact .finish ih busy

theorem submitted_eq (h : Life events tab) : tab.submitted = commandsOf events := by
  induction h with
  | opened => rfl
  | aside _ aside ih => rw [aside.submitted_eq, ih]
  | begin _ _ _ ih => simp [Tab.begin, Tab.addLine, ih, TabEvent.command?]
  | answer _ _ result ih =>
    rw [Tab.showResult_eq, commandsOf_concat, ← ih]
    exact (List.append_nil _).symm
  | finish _ _ ih =>
    rw [commandsOf_concat, ← ih]
    exact (List.append_nil _).symm

theorem stripped (h : Life events tab) :
    ∀ command ∈ commandsOf events, command ≠ [] ∧ command.strip = command := by
  induction h with
  | opened => nofun
  | aside _ _ ih => exact ih
  | begin _ _ some_line ih =>
    intro command mem
    rw [commandsOf_concat, List.mem_append] at mem
    rcases mem with mem | mem
    · exact ih command mem
    · obtain rfl : command = _ := by simpa [TabEvent.command?] using mem
      exact ⟨some_line, Text.strip_strip _⟩
  | answer _ _ result ih =>
    intro command mem
    rw [commandsOf_concat] at mem
    exact ih command (by simpa [TabEvent.command?] using mem)
  | finish _ _ ih =>
    intro command mem
    rw [commandsOf_concat] at mem
    exact ih command (by simpa [TabEvent.command?] using mem)

/-- The transcript holds the exchanges, and while a result is awaited its command stands last. -/
theorem transcript (h : Life events tab) :
    Transcript tab.lines (exchangesOf events) ∧
      (stageOf events = .pending → ∃ lines exchanges command,
        Transcript lines exchanges ∧ tab.lines = lines ++ [⟨.command, command⟩] ∧
          exchangesOf events = exchanges ++ [(command, none)]) := by
  induction h with
  | opened id title user => exact ⟨.notes _, nofun⟩
  | @aside events tab tab' h aside ih =>
    obtain ⟨_, _, rfl⟩ | ⟨idle, content, rfl⟩ := aside.cases_eq
    · exact ih
    · refine ⟨.note ih.1 content, ?_⟩
      intro pending
      rw [h.stageOf_eq_idle idle] at pending
      cases pending
  | begin _ _ _ ih =>
    rw [exchangesOf_concat]
    refine ⟨.exchange ih.1 _ none, ?_⟩
    intro _
    exact ⟨_, _, _, ih.1, rfl, rfl⟩
  | answer _ pending result ih =>
    obtain ⟨lines, exchanges, command, before, its_lines, its_exchanges⟩ := ih.2 pending
    rw [Tab.showResult_eq, exchangesOf_concat, exchangesAfter]
    refine ⟨?_, ?_⟩
    · split
      · exact .empty
      · rw [its_lines, its_exchanges, List.append_assoc]
        simpa [answerLast] using Transcript.exchange before command (some result)
    · rw [stageOf_concat]
      nofun
  | finish _ _ ih =>
    rw [exchangesOf_concat]
    refine ⟨ih.1, ?_⟩
    rw [stageOf_concat]
    nofun

/-- The commands in a transcript are the last of the submitted ones: as many as submissions have
begun since the last one whose result emptied it. -/
theorem commandLines_eq (h : Life events tab) :
    commandLines tab.lines = tab.submitted.rtake (sinceClear events) := by
  rw [h.transcript.1.commandLines_eq, map_fst_exchangesOf, h.submitted_eq]

end Life

end GatedConsole
