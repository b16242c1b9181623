import GatedConsole.Proofs.Session.Submitting
import GatedConsole.Proofs.Session.Transcript

/-!
The walk through the submitted lines of a tab. It goes back to the oldest line at most, and forward
to a place behind the newest at most, where nothing is shown. Main statements: recalling, typing and
submitting move an idle tab as they move such a walk, and every tab, at every moment of a session,
is somewhere on one, so that its cursor is the number of a submitted line if it has one.
-/

set_option autoImplicit false
set_option relaxedAutoImplicit false

namespace GatedConsole

/-- A place among lines, or behind the last of them, and a text that has been typed or is shown. -/
structure Walk where
  lines : List Text
  position : Nat
  text : Text
  position_le : position ≤ lines.length

namespace Walk

/-- The number of the line at the place; behind the last line there is none. -/
def index? (w : Walk) : Option Nat := if w.position < w.lines.length then some w.position else none

/-- To a place, where its line is shown, or no text behind the last line. -/
def goTo (w : Walk) (position : Nat) (position_le : position ≤ w.lines.length) : Walk :=
  ⟨w.lines, position, w.lines.getD position [], position_le⟩

/-- One step back, to the oldest line at most. -/
def up (w : Walk) : Walk :=
  if w.lines = [] then w else w.goTo (w.position - 1) ((Nat.sub_le _ _).trans w.position_le)

/-- One step forward, to the place behind the newest line at most. -/
def down (w : Walk) : Walk :=
  if before_end : w.position < w.lines.length then w.goTo (w.position + 1) before_end else w

def typed (w : Walk) (text : Text) : Walk := { w with text := text }

/-- A new line, and the place behind it. -/
def push (w : Walk) (line : Text) : Walk := ⟨w.lines ++ [line], w.lines.length + 1, w.text, by simp⟩

/-- The text becomes the newest line, if it is not blank. -/
def submit (w : Walk) : Walk :=
  if w.text.strip = [] then w else (w.push w.text.strip).typed []

inductive Move where
  | up
  | down
  | typed (text : Text)
  | submit
deriving DecidableEq

def move (w : Walk) : Move → Walk
  | .up => w.up
  | .down => w.down
  | .typed text => w.typed text
  | .submit => w.submit

def moveAll (w : Walk) (moves : List Move) : Walk := moves.foldl move w

/-- What completion types: a suggestion, if it is the only one. -/
def completing : List Text → List Move
  | [only] => [.typed only]
  | _ => []

/-- The step that asks a tab for a move. -/
def Move.step (id : Nat) : Move → Step
  | .up => .up (some id)
  | .down => .down (some id)
  | .typed text => .setBuffer text (some id)
  | .submit => .submit (some id)

theorem moveAll_append (w : Walk) (moves moves' : List Move) :
    w.moveAll (moves ++ moves') = (w.moveAll moves).moveAll moves' := List.foldl_append

theorem up_of_nil {w : Walk} (h : w.lines = []) : w.up = w := if_pos h

theorem down_of_end {w : Walk} (h : w.position = w.lines.length) : w.down = w :=
  dif_neg (Nat.not_lt.2 h.ge)

theorem index?_push (w : Walk) (line : Text) : (w.push line).index? = none :=
  if_neg (by simp [push])

end Walk

/-! ## Tabs -/

namespace Tab

/-- The tab is where the walk is. -/
structure At (tab : Tab) (w : Walk) : Prop where
  submitted_eq : tab.submitted = w.lines
  cursor_eq : tab.cursor = w.index?
  buffer_eq : tab.buffer = w.text

variable {tab : Tab} {w : Walk}

theorem exists_at_iff :
    (∃ w, tab.At w) ↔ ∀ i, tab.cursor = some i → i < tab.submitted.length := by
  constructor
  · rintro ⟨w, at_w⟩ i shown
    rw [at_w.cursor_eq, Walk.index?] at shown
    rw [at_w.submitted_eq]
    split at shown
    · rename_i within
      exact Option.some.inj shown ▸ within
    · cases shown
  · intro within
    cases shown : tab.cursor with
    | none =>
      refine ⟨⟨tab.submitted, tab.submitted.length, tab.buffer, le_rfl⟩, rfl, ?_, rfl⟩
      rw [shown, Walk.index?, if_neg (Nat.lt_irrefl _)]
    | some i =>
      refine ⟨⟨tab.submitted, i, tab.buffer, (within i shown).le⟩, rfl, ?_, rfl⟩
      rw [shown, Walk.index?, if_pos (within i shown)]

namespace At

theorem recallAt (h : tab.At w) {i : Nat} (within : i < w.lines.length) :
    (tab.recallAt i).At (w.goTo i within.le) where
  submitted_eq := h.submitted_eq
  cursor_eq := (if_pos within).symm
  buffer_eq := congrArg (·.getD i []) h.submitted_eq

/-- Behind the last line nothing is shown. -/
theorem leave (h : tab.At w) :
    ({ tab with cursor := none, buffer := [] } : Tab).At (w.goTo w.lines.length le_rfl) where
  submitted_eq := h.submitted_eq
  cursor_eq := (if_neg (Nat.lt_irrefl _)).symm
  buffer_eq := by simp [Walk.goTo]

theorem recallPrevious (h : tab.At w) : tab.recallPrevious.At w.up := by
  rw [Tab.recallPrevious, h.submitted_eq, h.cursor_eq, Walk.index?]
  by_cases none : w.lines = []
  · rw [if_pos none, Walk.up_of_nil none]
    exact h
  · have positive := List.length_pos_iff.2 none
    rw [if_neg none, Walk.up, if_neg none]
    rcases w.position_le.lt_or_eq with before_end | at_end
    · rw [if_pos before_end]
      exact h.recallAt (by omega)
    · rw [if_neg at_end.not_lt]
      simpa only [at_end] using h.recallAt (Nat.sub_lt positive Nat.one_pos)

theorem recallNext (h : tab.At w) : tab.recallNext.At w.down := by
  rw [Tab.recallNext, h.cursor_eq, Walk.index?]
  rcases w.position_le.lt_or_eq with before_end | at_end
  · rw [if_pos before_end, Walk.down, dif_pos before_end]
    dsimp only
    split
    · rename_i next
      rw [h.submitted_eq] at next
      simpa only [next] using h.leave
    · rename_i more
      rw [h.submitted_eq] at more
      exact h.recallAt (Nat.lt_of_le_of_ne before_end more)
  · rw [if_neg at_end.not_lt, Walk.down_of_end at_end]
    exact h

theorem setBuffer (h : tab.At w) (idle : tab.executing = false) (text : Text) :
    (tab.setBuffer text).At (w.typed text) := by
  rw [Tab.setBuffer, if_neg (by simp [idle])]
  exact ⟨h.submitted_eq, h.cursor_eq, rfl⟩

theorem begin (h : tab.At w) (command : Text) : (tab.begin command).At (w.push command) where
  submitted_eq := congrArg (· ++ [command]) h.submitted_eq
  cursor_eq := (w.index?_push command).symm
  buffer_eq := h.buffer_eq

theorem showResult (h : tab.At w) (result : Result) :
    (tab.showResult Interpreter.clearSequence result).At w := by
  rw [Tab.showResult_eq]
  exact ⟨h.submitted_eq, h.cursor_eq, h.buffer_eq⟩

theorem finish (h : tab.At w) : tab.finish.At (w.typed []) := ⟨h.submitted_eq, h.cursor_eq, rfl⟩

theorem showSuggestions (h : tab.At w) (suggestions : List Text) :
    (Session.showSuggestions suggestions tab).At (w.moveAll (Walk.completing suggestions)) := by
  rcases suggestions with _ | ⟨only, _ | _⟩
  · exact h
  · exact ⟨h.submitted_eq, h.cursor_eq, rfl⟩
  · exact ⟨h.submitted_eq, h.cursor_eq, h.buffer_eq⟩

end At

end Tab

/-- What one change of the tabs can make of a walk, the tab being open before and after it. -/
inductive Walk.Goes (w : Walk) (busy : Bool) : Walk → Prop
  | stays : Goes w busy w
  | up : Goes w busy w.up
  | down : Goes w busy w.down
  | typed (idle : busy = false) (text : Text) : Goes w busy (w.typed text)
  | begun (idle : busy = false) : Goes w busy (w.push w.text.strip)
  | ended : Goes w busy (w.typed [])

namespace Tab

variable {tab tab' : Tab} {w : Walk}

theorem Aside.goes (h : tab.Aside tab') (at_w : tab.At w) :
    ∃ w', w.Goes tab.executing w' ∧ tab'.At w' := by
  cases h with
  | typed text =>
    by_cases idle : tab.executing = false
    · exact ⟨_, .typed idle text, at_w.setBuffer idle text⟩
    · rw [Tab.setBuffer, if_pos (by simpa using idle)]
      exact ⟨w, .stays, at_w⟩
  | back => exact ⟨_, .up, at_w.recallPrevious⟩
  | forth => exact ⟨_, .down, at_w.recallNext⟩
  | suggested idle suggestions =>
    refine ⟨_, ?_, at_w.showSuggestions suggestions⟩
    rcases suggestions with _ | ⟨only, _ | _⟩
    · exact .stays
    · exact .typed idle only
    · exact .stays

/-- Whatever comes between, one change of the tabs moves each of them on its walk. -/
theorem Becomes.goes {event : Option (Nat × TabEvent)} (h : tab.Becomes event tab')
    (at_w : tab.At w) : ∃ w', w.Goes tab.executing w' ∧ tab'.At w' := by
  cases h with
  | elsewhere => exact ⟨w, .stays, at_w⟩
  | aside aside => exact aside.goes at_w
  | begun idle =>
    rw [at_w.buffer_eq]
    exact ⟨_, .begun idle, at_w.begin _⟩
  | answered result => exact ⟨w, .stays, at_w.showResult result⟩
  | ended => exact ⟨_, .ended, at_w.finish⟩

end Tab

/-- A tab is somewhere on a walk all its life. -/
theorem Life.exists_at {events : List TabEvent} {tab : Tab} (h : Life events tab) :
    ∃ w, tab.At w := by
  induction h with
  | opened => exact Tab.exists_at_iff.2 nofun
  | aside _ aside ih =>
    obtain ⟨w, at_w⟩ := ih
    obtain ⟨w', -, at_w'⟩ := aside.goes at_w
    exact ⟨w', at_w'⟩
  | begin _ _ _ ih =>
    obtain ⟨w, at_w⟩ := ih
    exact ⟨_, at_w.begin _⟩
  | answer _ _ result ih =>
    obtain ⟨w, at_w⟩ := ih
    exact ⟨w, at_w.showResult result⟩
  | finish _ _ ih =>
    obtain ⟨w, at_w⟩ := ih
    exact ⟨_, at_w.finish⟩

namespace Session

open Interpreter Program

/-- The tab with the number is open, executing or not, and where the walk is. -/
def Sits (id : Nat) (busy : Bool) (w : Walk) (s : Session) : Prop :=
  ∃ tab, s.tabs.get? id = some tab ∧ tab.executing = busy ∧ tab.At w

/-- A change that leaves a tab where it is on its walk, and as busy as it is. -/
def KeepsPlace (id : Nat) (before after : Session) : Prop :=
  ∀ busy w, Sits id busy w before → Sits id busy w after

variable {commands : CommandSet Desk} {id : Nat} {busy busy' : Bool} {w w' : Walk} {s t : Session}

namespace Sits

theorem update (h : Sits id busy w s) {change : Tab → Tab}
    (same_id : ∀ tab, (change tab).id = tab.id)
    (goes : ∀ tab : Tab, tab.executing = busy → tab.At w →
      (change tab).executing = busy' ∧ (change tab).At w') :
    Sits id busy' w' (updateTab id change s) := by
  obtain ⟨tab, found, its_busy, at_w⟩ := h
  refine ⟨change tab, ?_, goes tab its_busy at_w⟩
  have its : (s.tabs.update id change).get? id = some (change tab) := by
    rw [s.tabs.get?_update id id same_id, found, Option.map_some, if_pos rfl]
  exact its

theorem of_host (h : Sits id busy w s) (same : t.host = s.host) : Sits id busy w t := by
  have tabs : t.tabs = s.tabs := congrArg Desk.tabs same
  rw [Sits, tabs]
  exact h

theorem typing (h : Sits id busy w s) {change : Tab → Tab}
    (typing : ∀ tab, ∃ buffer cursor, change tab = { tab with buffer := buffer, cursor := cursor })
    (goes : ∀ tab : Tab, tab.executing = busy → tab.At w → (change tab).At w') :
    Sits id busy w' (updateTab id change s) := by
  refine h.update (fun tab => ?_) fun tab its_busy at_w => ⟨?_, goes tab its_busy at_w⟩
  · obtain ⟨_, _, same⟩ := typing tab
    rw [same]
  · obtain ⟨_, _, same⟩ := typing tab
    rw [same]
    exact its_busy

theorem setBuffer (h : Sits id false w s) (text : Text) :
    Sits id false (w.typed text) (updateTab id (·.setBuffer text) s) :=
  h.typing (·.setBuffer_eq text) fun _ idle at_w => at_w.setBuffer idle text

theorem recallPrevious (h : Sits id busy w s) :
    Sits id busy w.up (updateTab id Tab.recallPrevious s) :=
  h.typing Tab.recallPrevious_eq fun _ _ at_w => at_w.recallPrevious

theorem recallNext (h : Sits id busy w s) :
    Sits id busy w.down (updateTab id Tab.recallNext s) :=
  h.typing Tab.recallNext_eq fun _ _ at_w => at_w.recallNext

theorem showSuggestions (h : Sits id busy w s) (suggestions : List Text) :
    Sits id busy (w.moveAll (Walk.completing suggestions))
      (updateTab id (Session.showSuggestions suggestions) s) := by
  refine h.update (fun tab => ?_) fun tab its_busy at_w => ⟨?_, at_w.showSuggestions suggestions⟩
  · rcases suggestions with _ | ⟨_, _ | _⟩ <;> rfl
  · rcases suggestions with _ | ⟨_, _ | _⟩ <;> exact its_busy

theorem begin (h : Sits id busy w s) (command : Text) :
    Sits id true (w.push command) (updateTab id (·.begin command) s) :=
  h.update (fun _ => rfl) fun _ _ at_w => ⟨rfl, at_w.begin command⟩

theorem showResult (h : Sits id busy w s) (result : Result) :
    Sits id busy w (updateTab id (·.showResult clearSequence result) s) := by
  refine h.update (fun tab => ?_) fun tab its_busy at_w => ⟨?_, at_w.showResult result⟩
  · rw [Tab.showResult_eq]
  · rw [Tab.showResult_eq]
    exact its_busy

theorem finish (h : Sits id busy w s) :
    Sits id false (w.typed []) (updateTab id Tab.finish s) :=
  h.update (fun _ => rfl) fun _ _ at_w => ⟨rfl, at_w.finish⟩

/-! ### Submissions -/

/-- However the execution ends, a submission moves the walk, if no body touches its tab. -/
theorem holds_submit (bodies : commands.Only (KeepsPlace id)) (h : Sits id false w s) :
    (submit (execute commands) (some id)).Holds (Single fun k : Bool × Walk => Sits id k.1 k.2)
      (EndsIn (Single fun k : Bool × Walk => Sits id k.1 k.2) fun _ own =>
        own = {(false, w.submit)}) {(false, w)} s 0 := by
  obtain ⟨tab, found, idle, at_w⟩ := h
  have sits : Sits id false w s := ⟨tab, found, idle, at_w⟩
  rw [submit, holds_read]
  dsimp only [tab?]
  rw [found]
  dsimp only
  rw [idle, Bool.false_or, at_w.buffer_eq]
  by_cases blank : w.text.strip = []
  · rw [if_pos (decide_eq_true blank), Walk.submit, if_pos blank]
    exact ⟨rfl, (false, w), add_zero _, sits⟩
  · rw [if_neg (by simpa using blank), Tabs.id_of_get? found, Walk.submit, if_neg blank]
    let begun : Bool × Walk := (true, w.push w.text.strip)
    have submission := @holds_submission commands _ _ _ id w.text.strip
      (fun _ _ own _ _ sits => sits.of_host own.host) bodies (fun k _ _ keeps => keeps k.1 k.2)
      begun (fun _ => begun) (fun result _ sits => sits.showResult result)
      (fun k => (false, k.2.typed [])) (fun _ _ sits => sits.finish) s (sits.begin _)
      {(false, w)}
    refine holds_bind submission ?_ ?_
    · rintro result _ s others now
      exact now
    · rintro cause _ s others now
      exact now

/-- What a program that has ended says of the tab. -/
theorem of_run {α : Type} {p : Work Desk α} {first : Multiset (Bool × Walk)}
    (holds : p.Holds (Single fun k : Bool × Walk => Sits id k.1 k.2)
      (EndsIn (Single fun k : Bool × Walk => Sits id k.1 k.2) fun _ own => own = {(busy, w)})
      first s 0)
    (ends : (Loop.run p s).1 ≠ .stuck) : Sits id busy w (Loop.run p s).2 := by
  obtain ⟨own, others, now, stuck | rfl⟩ := Loop.run_endsIn holds
  · exact absurd stuck ends
  · exact now.of_own.1

end Sits

/-! ## Steps -/

/-- A step that is a single move is taken at once. -/
theorem take_of_act {step : Step} {f : Session → Reply × Session}
    (h : program commands step = Program.act f) (s : Session) : take commands s step = f s := by
  have alone : (Program.act f : Work Desk Reply).alone false s = (.done (f s).1, false, (f s).2) :=
    rfl
  rw [take, h, Loop.run_eq_of_alone _ _ (by simp [alone]), alone]
  rfl

theorem take_onTab {step : Step} {act : Session → Tab → Reply × Session}
    (h : program commands step = onTab (some id) act) {tab : Tab}
    (found : s.tabs.get? id = some tab) : take commands s step = act s tab := by
  rw [take_of_act h]
  dsimp only [tab?]
  rw [found]

/-- A step that walks answers with the text that the walk comes to. -/
theorem Sits.take_walk {step : Step} {walk : Tab → Tab} (h : Sits id busy w s)
    (asks : program commands step = walkTab (some id) walk)
    (goes : ∀ tab : Tab, tab.At w → (walk tab).At w') :
    take commands s step = (.text w'.text, updateTab id walk s) := by
  obtain ⟨tab, found, -, at_w⟩ := h
  rw [take_onTab asks found, Tabs.id_of_get? found, (goes tab at_w).buffer_eq]

theorem Sits.take_up (commands : CommandSet Desk) (h : Sits id busy w s) :
    take commands s (.up (some id)) = (.text w.up.text, updateTab id Tab.recallPrevious s) :=
  h.take_walk (by rw [program, work]) fun _ at_w => at_w.recallPrevious

theorem Sits.take_down (commands : CommandSet Desk) (h : Sits id busy w s) :
    take commands s (.down (some id)) = (.text w.down.text, updateTab id Tab.recallNext s) :=
  h.take_walk (by rw [program, work]) fun _ at_w => at_w.recallNext

/-- One move of an idle tab is one move of its walk, unless it never ends. -/
theorem Sits.take_move (bodies : commands.Only (KeepsPlace id)) (h : Sits id false w s)
    (move : Walk.Move) (ends : (take commands s (move.step id)).1 ≠ .fault .stuck) :
    Sits id false (w.move move) (take commands s (move.step id)).2 := by
  cases move with
  | up =>
    rw [Walk.Move.step, h.take_up]
    exact h.recallPrevious
  | down =>
    rw [Walk.Move.step, h.take_down]
    exact h.recallNext
  | typed text =>
    have ⟨tab, found, _⟩ := h
    have taken := @take_onTab commands id s (.setBuffer text (some id)) _
      (by rw [program, work]; rfl) tab found
    rw [Walk.Move.step, taken, Tabs.id_of_get? found]
    exact h.setBuffer text
  | submit =>
    have its_end : (Loop.run (program commands (.submit (some id))) s).1 ≠ .stuck := by
      intro stuck
      exact ends (congrArg Reply.ofEnding stuck)
    have holds : (program commands (.submit (some id))).Holds
        (Single fun k : Bool × Walk => Sits id k.1 k.2)
        (EndsIn (Single fun k : Bool × Walk => Sits id k.1 k.2) fun _ own =>
          own = {(false, w.submit)}) {(false, w)} s 0 := by
      rw [program, work]
      refine holds_bind (h.holds_submit bodies) ?_ ?_
      · exact fun _ _ _ _ now => now
      · exact fun _ _ _ _ now => now
    exact of_run holds its_end

/-- Move after move, an idle tab goes with its walk, as long as the moves end. -/
theorem Sits.takeAll_moves (bodies : commands.Only (KeepsPlace id)) (h : Sits id false w s)
    {moves : List Walk.Move}
    (ends : .fault .stuck ∉ (takeAll commands s (moves.map (Walk.Move.step id))).1) :
    Sits id false (w.moveAll moves) (takeAll commands s (moves.map (Walk.Move.step id))).2 := by
  induction moves generalizing w s with
  | nil => exact h
  | cons move moves ih =>
    rw [List.map_cons, takeAll] at ends ⊢
    rw [List.mem_cons, not_or] at ends
    exact ih (h.take_move bodies move (Ne.symm ends.1)) ends.2

/-- A move ends if the bodies neither execute nor submit and have no parts. -/
theorem take_move_ne_stuck (solitary : commands.Solitary) (s : Session) (id : Nat)
    (move : Walk.Move) : (take commands s (move.step id)).1 ≠ .fault .stuck := by
  cases move with
  | up | down | typed =>
    rw [take_of_act (by rw [Walk.Move.step, program, work]; rfl)]
    dsimp only
    split <;> simp
  | submit =>
    have alone : (program commands (.submit (some id))).alone false s =
        (Reply.ofResult? <$> submit (execute commands) (some id)).alone false s := by
      rw [program, work]
    rw [alone_map] at alone
    have ended (e : Ending Escape Reply)
        (same : ((program commands (.submit (some id))).alone false s).1 = e) (ends : e ≠ .stuck) :
        (take commands s (.submit (some id))).1 = .ofEnding e := by
      rw [take, Loop.run_eq_of_alone _ _ (same ▸ ends), same]
    rw [Walk.Move.step]
    cases its : ((submit (execute commands) (some id)).alone false s).1 with
    | done result =>
      rw [ended (.done (.ofResult? result)) (by rw [alone, its]; rfl) (by simp)]
      cases result <;> simp [Reply.ofEnding, Reply.ofResult?]
    | escaped cause =>
      rw [ended (.escaped cause) (by rw [alone, its]; rfl) (by simp)]
      simp [Reply.ofEnding]
    | stuck => exact absurd its (alone_submit_ne_stuck solitary s (some id))

theorem takeAll_moves_ne_stuck (solitary : commands.Solitary) (s : Session) (id : Nat)
    (moves : List Walk.Move) :
    .fault .stuck ∉ (takeAll commands s (moves.map (Walk.Move.step id))).1 := by
  induction moves generalizing s with
  | nil => exact List.not_mem_nil
  | cons move moves ih =>
    rw [List.map_cons, takeAll, List.mem_cons, not_or]
    exact ⟨(take_move_ne_stuck solitary s id move).symm, ih _⟩

/-- In every session, at every moment, every tab is somewhere on a walk. -/
theorem exists_at_of_tabsAfter (bodies : commands.Only MovesTabs) (user : User) (macros : Macros)
    (history : History) (steps : List Step) {log : List Glimpse}
    (earlier : log <+: glimpses commands (.ofUser user macros history) steps) :
    ∀ tab ∈ (tabsAfter user log).toList, ∃ w, tab.At w := by
  have all := chronicle_glimpses bodies user macros history steps
  obtain ⟨tabs, chronicle⟩ : ∃ tabs, Chronicle user log tabs := by
    obtain ⟨rest, parts⟩ := earlier
    cases rest with
    | nil =>
      rw [← parts, List.append_nil] at all
      exact ⟨_, all⟩
    | cons g after =>
      obtain ⟨tabs, chronicle, -⟩ := all.split parts.symm
      exact ⟨tabs, chronicle⟩
  rw [chronicle.tabsAfter_eq]
  exact fun tab mem => (chronicle.life tab mem).exists_at

/-- From one moment of a session to the next, a tab that stays open makes one move of its walk. -/
theorem exists_goes_of_glimpses (bodies : commands.Only MovesTabs) (user : User) (macros : Macros)
    (history : History) (steps : List Step) {before after : List Glimpse} {g : Glimpse}
    (parts : glimpses commands (.ofUser user macros history) steps = before ++ g :: after) :
    ∀ tab ∈ (tabsAfter user before).toList, ∀ tab' ∈ g.tabs.toList, tab'.id = tab.id →
      ∀ w, tab.At w → ∃ w', w.Goes tab.executing w' ∧ tab'.At w' := by
  obtain ⟨tabs, earlier, change⟩ :=
    (chronicle_glimpses bodies user macros history steps).split parts
  rw [earlier.tabsAfter_eq]
  intro tab mem tab' mem' same w at_w
  exact (change.becomes earlier.tidy mem mem' same).goes at_w

end Session

end GatedConsole
