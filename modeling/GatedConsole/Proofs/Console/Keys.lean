import GatedConsole.Proofs.Console.Screen
import GatedConsole.Proofs.Session.Walk

/-!
The keys at the prompt of a tab. Main statement: whatever is typed, recalled, completed and entered,
the text at the prompt and the cursor of the tab are those of a walk through the submitted lines,
begun with the text at the prompt; and after a key that recalls or completes, the typed line of the
tab is that text.
-/

set_option autoImplicit false
set_option relaxedAutoImplicit false

namespace GatedConsole

namespace Console

open Session

/-! ## Events -/

/-- What happens at a prompt: a stroke, or the line is entered. -/
inductive KeyEvent where
  | stroke (stroke : Stroke)
  | enter

/-- The prompt and the session behind an event. -/
def keyed (commands : CommandSet Desk) (now : Prompt × Session) : KeyEvent → Prompt × Session
  | .stroke stroke => strike commands.registry now stroke
  | .enter => ((now.1.enter commands now.2).1, (now.1.enter commands now.2).2.2)

def keyedAll (commands : CommandSet Desk) (now : Prompt × Session) (events : List KeyEvent) :
    Prompt × Session :=
  events.foldl (keyed commands) now

/-- The event comes to an end, as every stroke does. -/
def Ends (commands : CommandSet Desk) (now : Prompt × Session) : KeyEvent → Prop
  | .stroke _ => True
  | .enter => (now.1.enter commands now.2).2.1 ≠ .stuck

def EndsAll (commands : CommandSet Desk) : Prompt × Session → List KeyEvent → Prop
  | _, [] => True
  | now, event :: events =>
    Ends commands now event ∧ EndsAll commands (keyed commands now event) events

/-- The moves of the walk for an event. The text that is completed is that of the prompt, and after
a line has been entered there is none. -/
def moves (registry : Registry) (now : Prompt × Session) : KeyEvent → List Walk.Move
  | .stroke (.edit text _) => [.typed text]
  | .stroke (.press .up) => [.up]
  | .stroke (.press .down) => [.down]
  | .stroke (.press .tab) => Walk.completing (now.2.suggestions registry now.1.text)
  | .enter => [.submit, .typed []]

def movesAll (commands : CommandSet Desk) : Prompt × Session → List KeyEvent → List Walk.Move
  | _, [] => []
  | now, event :: events =>
    moves commands.registry now event ++ movesAll commands (keyed commands now event) events

/-! ## Prompts on a walk -/

/-- The prompt of a tab shows the text of the walk, and the tab is where the walk is, but for the
line that is typed in it. -/
structure Follows (id : Nat) (w : Walk) (now : Prompt × Session) : Prop where
  tab_eq : now.1.tab = id
  text_eq : now.1.text = w.text
  sits : ∃ text, Sits id false (w.typed text) now.2

variable {commands : CommandSet Desk} {id : Nat} {w : Walk} {now : Prompt × Session}

/-- With its line typed in it, the tab is where the walk is. -/
theorem Follows.copyTo (h : Follows id w now) : Sits id false w (now.1.copyTo now.2) := by
  obtain ⟨text, sits⟩ := h.sits
  have copied := sits.setBuffer now.1.text
  rw [h.text_eq] at copied
  rw [Prompt.copyTo, h.tab_eq, h.text_eq]
  exact copied

theorem typedLine_eq {prompt : Prompt} {s : Session} (h : Sits id false w s)
    (tab_eq : prompt.tab = id) : prompt.typedLine s = w.text := by
  obtain ⟨tab, found, -, at_w⟩ := h
  rw [Prompt.typedLine, tab_eq, found]
  exact at_w.buffer_eq

theorem follows_of_sits {prompt : Prompt} {s : Session} (tab_eq : prompt.tab = id)
    (text_eq : prompt.text = w.text) (sits : Sits id false w s) : Follows id w (prompt, s) :=
  ⟨tab_eq, text_eq, w.text, sits⟩

namespace Follows

/-- A key that recalls shows at the prompt what the tab then has typed in it. -/
theorem recallLine (h : Follows id w now) {walk : Tab → Tab} {w' : Walk}
    (walks : ∀ {s}, Sits id false w s → Sits id false w' (s.updateTab id walk)) :
    Follows id w' (now.1.recallLine walk now.2) ∧
      Sits id false w' (now.1.recallLine walk now.2).2 := by
  obtain rfl := h.tab_eq
  have recalled := walks h.copyTo
  exact ⟨follows_of_sits rfl (typedLine_eq recalled rfl) recalled, recalled⟩

/-- One suggestion is shown at the prompt and in the tab; several change the text of neither. -/
theorem complete (h : Follows id w now) (registry : Registry) :
    Follows id (w.moveAll (Walk.completing (now.2.suggestions registry now.1.text)))
        (now.1.complete registry now.2).1 ∧
      Sits id false (w.moveAll (Walk.completing (now.2.suggestions registry now.1.text)))
        (now.1.complete registry now.2).1.2 := by
  obtain ⟨tab, found, idle, at_w⟩ := h.copyTo
  have asked : (now.1.copyTo now.2).suggestions registry tab.buffer =
      now.2.suggestions registry now.1.text := by
    rw [at_w.buffer_eq, h.text_eq]
    rfl
  have completed := h.copyTo.showSuggestions (now.2.suggestions registry now.1.text)
  rw [Prompt.complete, h.tab_eq, found]
  dsimp only
  rw [Session.complete, if_neg (by simp [idle]), asked, Tabs.id_of_get? found]
  generalize now.2.suggestions registry now.1.text = suggestions at completed ⊢
  rcases suggestions with _ | ⟨only, _ | _⟩
  · exact ⟨follows_of_sits h.tab_eq h.text_eq completed, completed⟩
  · refine ⟨follows_of_sits h.tab_eq ?_ completed, completed⟩
    exact typedLine_eq completed h.tab_eq
  · exact ⟨follows_of_sits h.tab_eq h.text_eq completed, completed⟩

/-- A key leaves the text at the prompt in the tab, too. -/
theorem press (h : Follows id w now) (registry : Registry) (key : Prompt.Key) :
    Follows id (w.moveAll (moves registry now (.stroke (.press key))))
        (strike registry now (.press key)) ∧
      Sits id false (w.moveAll (moves registry now (.stroke (.press key))))
        (strike registry now (.press key)).2 := by
  cases key with
  | up => exact h.recallLine Sits.recallPrevious
  | down => exact h.recallLine Sits.recallNext
  | tab => exact h.complete registry

theorem enter (bodies : commands.Only (KeepsPlace id)) (h : Follows id w now)
    (ends : Ends commands now .enter) :
    Follows id (w.submit.typed []) (keyed commands now .enter) := by
  obtain rfl := h.tab_eq
  refine ⟨rfl, rfl, w.submit.text, ?_⟩
  exact Sits.of_run (h.copyTo.holds_submit bodies) ends

/-- An event moves prompt and tab as it moves the walk. -/
theorem keyed (bodies : commands.Only (KeepsPlace id)) (h : Follows id w now) {event : KeyEvent}
    (ends : Ends commands now event) :
    Follows id (w.moveAll (moves commands.registry now event)) (keyed commands now event) := by
  cases event with
  | stroke stroke =>
    cases stroke with
    | edit text cursor =>
      obtain ⟨typed, sits⟩ := h.sits
      exact ⟨h.tab_eq, rfl, typed, sits⟩
    | press key => exact (h.press commands.registry key).1
  | enter => exact h.enter bodies ends

theorem keyedAll (bodies : commands.Only (KeepsPlace id)) (h : Follows id w now)
    {events : List KeyEvent} (ends : EndsAll commands now events) :
    Follows id (w.moveAll (movesAll commands now events)) (keyedAll commands now events) := by
  induction events generalizing w now with
  | nil => exact h
  | cons event events ih =>
    have rest := ih (h.keyed bodies ends.1) ends.2
    rw [← Walk.moveAll_append] at rest
    exact rest

end Follows

/-! ## Recall -/

theorem endsAll_append {events events' : List KeyEvent} :
    EndsAll commands now (events ++ events') ↔
      EndsAll commands now events ∧ EndsAll commands (keyedAll commands now events) events' := by
  induction events generalizing now with
  | nil => exact (and_iff_right trivial).symm
  | cons event events ih =>
    rw [List.cons_append, EndsAll, EndsAll, ih, and_assoc]
    rfl

/-- The typed line of the tab after a key is the text at the prompt. -/
theorem typedLine_keyedAll (bodies : commands.Only (KeepsPlace id)) (h : Follows id w now)
    {events : List KeyEvent} (ends : EndsAll commands now events) {key : Prompt.Key}
    (last : events.getLast? = some (.stroke (.press key))) :
    (keyedAll commands now events).1.typedLine (keyedAll commands now events).2 =
      (keyedAll commands now events).1.text := by
  obtain ⟨before, rfl⟩ := List.getLast?_eq_some_iff.1 last
  obtain ⟨follows, sits⟩ :=
    (h.keyedAll bodies (endsAll_append.1 ends).1).press commands.registry key
  have pressed : Console.keyedAll commands now (before ++ [.stroke (.press key)]) =
      strike commands.registry (Console.keyedAll commands now before) (.press key) := by
    rw [Console.keyedAll, List.foldl_append]
    rfl
  rw [pressed, typedLine_eq sits follows.tab_eq, follows.text_eq]

theorem endsAll_of_solitary (solitary : commands.Solitary) (now : Prompt × Session)
    (events : List KeyEvent) : EndsAll commands now events := by
  induction events generalizing now with
  | nil => trivial
  | cons event events ih =>
    refine ⟨?_, ih _⟩
    cases event with
    | stroke => trivial
    | enter =>
      have ends := alone_submit_ne_stuck solitary (now.1.copyTo now.2) (some now.1.tab)
      have ran := Loop.run_eq_of_alone _ _ ends
      rw [Ends, Prompt.enter, ran]
      exact ends

/-- An idle tab goes with its walk. -/
structure TabWalks (commands : CommandSet Desk) (id : Nat) (w : Walk) (s : Session) : Prop where
  /-- What is recalled, typed and submitted, each after the other has ended, moves the tab as it
  moves the walk, if the bodies do not touch the tab. -/
  moves : commands.Only (KeepsPlace id) → ∀ moves : List Walk.Move,
    .fault .stuck ∉ (takeAll commands s (moves.map (Walk.Move.step id))).1 →
      Sits id false (w.moveAll moves) (takeAll commands s (moves.map (Walk.Move.step id))).2
  /-- Moves end. -/
  ends : commands.Solitary → ∀ moves : List Walk.Move,
    .fault .stuck ∉ (takeAll commands s (moves.map (Walk.Move.step id))).1
  up : (take commands s (.up (some id))).1 = .text w.up.text
  down : (take commands s (.down (some id))).1 = .text w.down.text

/-- A prompt and its tab go with the walk from the text at the prompt. -/
structure PromptWalks (commands : CommandSet Desk) (id : Nat) (w : Walk)
    (now : Prompt × Session) : Prop where
  /-- Text at the prompt and cursor of the tab are those of the walk, if the bodies do not touch the
  tab, and after a key the tab has the text of the prompt typed in it. -/
  moves : commands.Only (KeepsPlace id) → ∀ events, EndsAll commands now events →
    Follows id (w.moveAll (movesAll commands now events)) (keyedAll commands now events) ∧
      ∀ key, events.getLast? = some (.stroke (.press key)) →
        (keyedAll commands now events).1.typedLine (keyedAll commands now events).2 =
          (keyedAll commands now events).1.text
  ends : commands.Solitary → ∀ events, EndsAll commands now events
  /-- With nothing to recall, what has been typed stays. -/
  draft_up : w.lines = [] → (strike commands.registry now (.press .up)).1.text = now.1.text
  draft_down : w.position = w.lines.length →
    (strike commands.registry now (.press .down)).1.text = now.1.text

/-- Recall is a clamped walk, at every idle tab and at every prompt of one, where it begins with the
text that is there. A tab is on such a walk exactly if its cursor, if it has one, is the number of
one of its submitted lines; every tab of a session is on one at every moment, and from each moment
to the next it makes one move of it. -/
theorem recall_walks (commands : CommandSet Desk) (id : Nat) :
    (∀ w s, Sits id false w s → TabWalks commands id w s) ∧
      (∀ w now, now.1.tab = id → Sits id false w now.2 →
        PromptWalks commands id (w.typed now.1.text) now) ∧
      (∀ tab : Tab,
        (∃ w, tab.At w) ↔ ∀ i, tab.cursor = some i → i < tab.submitted.length) ∧
      (commands.Only MovesTabs → ∀ (user : User) (macros : Macros) (history : History)
        (steps : List Step),
          (∀ log, log <+: glimpses commands (.ofUser user macros history) steps →
            ∀ tab ∈ (tabsAfter user log).toList, ∃ w, tab.At w) ∧
          ∀ before g after,
            glimpses commands (.ofUser user macros history) steps = before ++ g :: after →
              ∀ tab ∈ (tabsAfter user before).toList, ∀ tab' ∈ g.tabs.toList, tab'.id = tab.id →
                ∀ w, tab.At w → ∃ w', w.Goes tab.executing w' ∧ tab'.At w') := by
  refine ⟨fun w s sits => ?_, fun w now tab_eq sits => ?_, fun tab => Tab.exists_at_iff,
    fun bodies user macros history steps => ⟨?_, ?_⟩⟩
  · refine ⟨fun bodies moves ends => sits.takeAll_moves bodies ends,
      fun solitary moves => takeAll_moves_ne_stuck solitary s id moves, ?_, ?_⟩
    · rw [sits.take_up]
    · rw [sits.take_down]
  · have follows : Follows id (w.typed now.1.text) now := ⟨tab_eq, rfl, w.text, sits⟩
    refine ⟨fun bodies events ends => ⟨follows.keyedAll bodies ends, fun key last => ?_⟩,
      fun solitary => endsAll_of_solitary solitary now, fun no_line => ?_, fun at_end => ?_⟩
    · exact typedLine_keyedAll bodies follows ends last
    · rw [(follows.press commands.registry .up).1.text_eq]
      exact congrArg Walk.text (Walk.up_of_nil no_line)
    · rw [(follows.press commands.registry .down).1.text_eq]
      exact congrArg Walk.text (Walk.down_of_end at_end)
  · exact fun log earlier => exists_at_of_tabsAfter bodies user macros history steps earlier
  · exact fun before g after parts =>
      exists_goes_of_glimpses bodies user macros history steps parts

/-- A completed word and a second line are submitted, and a draft is left for them. The walk goes
past both ends, and on the way back the shown line is edited. -/
def recallEvents : List KeyEvent :=
  [.stroke (.edit "loo" 3), .stroke (.press .tab), .enter, .stroke (.edit " seal " 6), .enter,
    .stroke (.edit "dra" 3), .stroke (.press .down), .stroke (.press .up), .stroke (.press .up),
    .stroke (.press .up), .stroke (.edit "x" 1), .stroke (.press .down), .stroke (.press .down),
    .stroke (.press .up)]

def recallMoves : List Walk.Move :=
  [.typed "loo", .typed "look", .submit, .typed [], .typed " seal ", .submit, .typed [],
    .typed "dra", .down, .up, .up, .up, .typed "x", .down, .down, .up]

/-- A walk that has not begun. -/
def freshWalk : Walk := ⟨[], 0, [], le_rfl⟩

theorem recall_walks_watch :
    Sits 1 false freshWalk watchSession ∧ watchCommands.Only (KeepsPlace 1) ∧
      watchCommands.Solitary ∧ watchCommands.Only MovesTabs ∧
      Sits 1 false ⟨["look", "seal"], 1, "seal", by decide⟩
        (takeAll watchCommands watchSession (recallMoves.map (Walk.Move.step 1))).2 ∧
      (keyedAll watchCommands ({ tab := 1 }, watchSession) recallEvents).1.text = "seal" ∧
      (keyedAll watchCommands ({ tab := 1 }, watchSession) recallEvents).1.typedLine
        (keyedAll watchCommands ({ tab := 1 }, watchSession) recallEvents).2 = "seal" ∧
      ∀ log, log <+: glimpses watchCommands watchSession (recallMoves.map (Walk.Move.step 1)) →
        ∀ tab ∈ (tabsAfter { username := "eve" } log).toList, ∃ w, tab.At w := by
  have sits : Sits 1 false freshWalk watchSession :=
    ⟨watchSession.tabs.active, rfl, rfl, rfl, rfl, rfl⟩
  have bodies : watchCommands.Only (KeepsPlace 1) := fun _ _ _ _ _ _ => trivial
  have solitary : watchCommands.Solitary := fun _ _ _ => trivial
  have movesTabs : watchCommands.Only MovesTabs := fun _ _ _ _ _ _ => trivial
  obtain ⟨tabs, prompts, -, always⟩ := recall_walks watchCommands 1
  have tab := tabs freshWalk watchSession sits
  have prompt := prompts freshWalk ({ tab := 1 }, watchSession) rfl sits
  have came : freshWalk.moveAll recallMoves = ⟨["look", "seal"], 1, "seal", by decide⟩ := by
    rfl
  have same : movesAll watchCommands ({ tab := 1 }, watchSession) recallEvents = recallMoves := by
    rfl
  have moved := tab.moves bodies recallMoves (tab.ends solitary recallMoves)
  obtain ⟨follows, typed⟩ := prompt.moves bodies recallEvents (prompt.ends solitary recallEvents)
  have shown := follows.text_eq
  rw [same] at shown
  rw [came] at moved
  have shown' := shown.trans (congrArg Walk.text came)
  refine ⟨sits, bodies, solitary, movesTabs, moved, shown', (typed .up rfl).trans shown', ?_⟩
  exact (always movesTabs { username := "eve" } watchSession.macros .ofDefaultCapacity
    (recallMoves.map (Walk.Move.step 1))).1

end Console

end GatedConsole
