import GatedConsole.Proofs.Interpreter.Moves
import GatedConsole.Proofs.Session.TabLife
import GatedConsole.Proofs.Session.Submitting
import GatedConsole.Proofs.Session.Trace

/-!
What a submission does to the transcript of the active tab, whatever the bodies of the commands do
meanwhile, as long as they leave that transcript alone. Main statement: a submission that is done
has put its line behind the transcript, and behind the line what shows its result, or has emptied
the transcript if that is what the result says; without a result nothing has changed.
-/

set_option autoImplicit false
set_option relaxedAutoImplicit false

namespace GatedConsole

/-- The active tab: its number, which no tab before it has, its lock and its transcript. -/
structure Shows (id : Nat) (busy : Bool) (lines : List Line) (s : Session) : Prop where
  first : ∀ tab ∈ s.tabs.before, tab.id ≠ id
  id_eq : s.tabs.active.id = id
  executing_eq : s.tabs.active.executing = busy
  lines_eq : s.tabs.active.lines = lines

/-- A change that leaves the transcript of the active tab alone, and its lock and its number. -/
def KeepsTranscript (before after : Session) : Prop :=
  ∀ id busy lines, Shows id busy lines before → Shows id busy lines after

namespace Shows

variable {id : Nat} {busy : Bool} {lines : List Line} {s : Session}

theorem get?_eq (h : Shows id busy lines s) : s.tabs.get? id = some s.tabs.active := by
  have none_before : s.tabs.before.find? (·.id = id) = none := by
    rw [List.find?_eq_none]
    intro tab mem
    simpa using h.first tab mem
  rw [Tabs.get?, Tabs.toList, List.find?_append, none_before, Option.none_or,
    List.find?_cons_of_pos (by simpa using h.id_eq)]

/-- A change of the active tab that leaves its number alone. -/
theorem update (h : Shows id busy lines s) (change : Tab → Tab)
    (same : ∀ tab, (change tab).id = tab.id) :
    Shows id (change s.tabs.active).executing (change s.tabs.active).lines
      (Session.updateTab id change s) := by
  have active : (Session.updateTab id change s).tabs.active = change s.tabs.active := if_pos h.id_eq
  refine ⟨?_, ?_, by rw [active], by rw [active]⟩
  · intro tab mem
    obtain ⟨its_tab, its_mem, rfl⟩ := List.mem_map.1 mem
    rw [if_neg (h.first its_tab its_mem)]
    exact h.first its_tab its_mem
  · rw [active, same, h.id_eq]

/-- A change of the typed line and the cursor alone. -/
theorem typing (h : Shows id busy lines s) {change : Tab → Tab}
    (typing : ∀ tab, ∃ buffer cursor,
      change tab = { tab with buffer := buffer, cursor := cursor }) :
    Shows id busy lines (Session.updateTab id change s) := by
  have after := h.update change fun tab => by
    obtain ⟨_, _, same⟩ := typing tab
    rw [same]
  obtain ⟨_, _, same⟩ := typing s.tabs.active
  rw [same, h.executing_eq, h.lines_eq] at after
  exact after

theorem of_host {t : Session} (h : Shows id busy lines s) (same : t.host = s.host) :
    Shows id busy lines t := by
  have tabs : t.tabs = s.tabs := congrArg Desk.tabs same
  refine ⟨?_, ?_, ?_, ?_⟩ <;> rw [tabs]
  · exact h.first
  · exact h.id_eq
  · exact h.executing_eq
  · exact h.lines_eq

/-- What is typed in an idle tab is its typed line. -/
theorem buffer_setBuffer (h : Shows id false lines s) (text : Text) :
    (Session.updateTab id (·.setBuffer text) s).tabs.active.buffer = text := by
  have active : (Session.updateTab id (·.setBuffer text) s).tabs.active =
    s.tabs.active.setBuffer text := if_pos h.id_eq
  rw [active, Tab.setBuffer, if_neg (by simp [h.executing_eq])]

end Shows

/-- The line of the transcript that lists suggestions, if there are several. -/
def listing : List Text → List Line
  | several@(_ :: _ :: _) => [⟨.system, Session.completionLine several⟩]
  | _ => []

theorem Shows.complete {id : Nat} {lines : List Line} {s : Session} (h : Shows id false lines s)
    (registry : Registry) :
    Shows id false (lines ++ listing (s.complete registry s.tabs.active).1)
      (s.complete registry s.tabs.active).2 := by
  rw [Session.complete, if_neg (by simp [h.executing_eq]), h.id_eq]
  generalize s.suggestions registry s.tabs.active.buffer = suggestions
  have after := h.update (Session.showSuggestions suggestions) fun tab => by
    rcases suggestions with _ | ⟨_, _ | _⟩ <;> rfl
  rcases suggestions with _ | ⟨_, _ | _⟩ <;>
    simpa [Session.showSuggestions, Tab.addLine, listing, h.executing_eq, h.lines_eq] using after

/-- The transcript behind a submission that is done, if the line was `command` without the blanks
around it. -/
def linesAfter (command : Text) (result : Result) (lines : List Line) : List Line :=
  if result.clears then [] else lines ++ ⟨.command, command⟩ :: result.shown

namespace Session

open Interpreter Program

variable {commands : CommandSet Desk} {id : Nat} {others : Multiset (Bool × List Line)}

/-- The one token is what the active tab shows. Whoever holds it is the one to change that. -/
def Shown (id : Nat) (tokens : Multiset (Bool × List Line)) (s : Session) : Prop :=
  ∃ busy lines, tokens = {(busy, lines)} ∧ Shows id busy lines s

theorem shown_eq_single (id : Nat) : Shown id = Single fun k => Shows id k.1 k.2 := by
  funext tokens s
  refine propext ⟨?_, ?_⟩
  · rintro ⟨busy, lines, single, shows⟩
    exact ⟨(busy, lines), single, shows⟩
  · rintro ⟨⟨busy, lines⟩, single, shows⟩
    exact ⟨busy, lines, single, shows⟩

/-! ## Submissions -/

theorem shows_showResult (command : Text) {lines : List Line} {s : Session}
    (h : Shows id true (lines ++ [⟨.command, command⟩]) s) (result : Result) :
    Shows id true (linesAfter command result lines)
      (updateTab id (·.showResult clearSequence result) s) := by
  have shows := h.update (·.showResult clearSequence result) fun tab => by rw [Tab.showResult_eq]
  rw [Tab.showResult_eq, h.executing_eq, h.lines_eq, List.append_assoc] at shows
  exact shows

/-- However the submission has ended, the tab is unlocked. -/
theorem holds_submission_shown (bodies : commands.Only KeepsTranscript) (command : Text)
    {lines : List Line} {s : Session} (h : Shows id false lines s) :
    (submission (execute commands) id command).Holds (Shown id)
      (EndsIn (Shown id) fun e own => ∃ after, own = {(false, after)} ∧
        ∀ result, e = .done result → after = linesAfter command result lines)
      {(false, lines)} s 0 := by
  have begun : Shows id true (lines ++ [⟨.command, command⟩])
      (updateTab id (·.begin command) s) := by
    have shows := h.update (·.begin command) fun _ => rfl
    rw [← h.lines_eq]
    exact shows
  rw [shown_eq_single]
  have finished (k : Bool × List Line) (s : Session) (h : Shows id k.1 k.2 s) :
      Shows id false k.2 (updateTab id Tab.finish s) := by
    rw [← h.lines_eq]
    exact h.update Tab.finish fun _ => rfl
  refine holds_mono (holds_submission (fun _ _ own _ _ _ h => h.of_host own.host) bodies
    (fun k s t keeps => keeps id k.1 k.2) (true, lines ++ [⟨.command, command⟩])
    (fun result => (true, linesAfter command result lines))
    (fun result s h => shows_showResult command h result) (fun k => (false, k.2)) finished
    begun) ?_
  rintro e _ s others ⟨rfl, now⟩
  refine ⟨⟨_, rfl, ?_⟩, now⟩
  rintro result rfl
  rfl

/-- What a submission of a line can come to, and the transcript behind it. -/
inductive Submitted (command : Text) (lines : List Line) : Option Result → List Line → Prop
  | nothing (blank : command = []) : Submitted command lines none lines
  | line (result : Result) (some_line : command ≠ []) :
      Submitted command lines (some result) (linesAfter command result lines)

theorem exists_submitted (bodies : commands.Only KeepsTranscript) {lines : List Line}
    {s t : Session} {result : Option Result} (h : Shows id false lines s)
    (ran : Loop.run (submit (execute commands) none) s = (.done result, t)) :
    ∃ after, Submitted s.tabs.active.buffer.strip lines result after ∧ Shows id false after t := by
  have holds : (submit (execute commands) none).Holds (Shown id)
      (EndsIn (Shown id) fun e own => ∃ after, own = {(false, after)} ∧
        ∀ result, e = .done result → Submitted s.tabs.active.buffer.strip lines result after)
      {(false, lines)} s 0 := by
    rw [submit, holds_read]
    dsimp only [tab?]
    rw [h.executing_eq, Bool.false_or]
    by_cases blank : s.tabs.active.buffer.strip = []
    · rw [if_pos (decide_eq_true blank)]
      exact ⟨⟨lines, rfl, fun _ ends => Ending.done.inj ends ▸ .nothing blank⟩,
        false, lines, add_zero _, h⟩
    · rw [if_neg (by simpa using blank), h.id_eq]
      refine holds_bind (holds_submission_shown bodies _ h) ?_ ?_
      · rintro result _ s others ⟨⟨after, rfl, ends⟩, now⟩
        refine ⟨⟨after, rfl, fun _ done => ?_⟩, now⟩
        rw [← Ending.done.inj done, ends result rfl]
        exact .line result blank
      · rintro cause _ s others ⟨⟨after, rfl, -⟩, now⟩
        exact ⟨⟨after, rfl, fun _ ends => by cases ends⟩, now⟩
  obtain ⟨own, others, now, stuck | ⟨after, rfl, ends⟩⟩ := Loop.run_endsIn holds
  · rw [ran] at stuck
    cases stuck
  · rw [ran] at now ends
    rw [shown_eq_single] at now
    exact ⟨after, ends result rfl, now.of_own.1⟩

end Session

end GatedConsole
