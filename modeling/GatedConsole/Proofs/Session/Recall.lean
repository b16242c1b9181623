import GatedConsole.Proofs.Session.Transcript

/-!
What changes a tab while its submission is under way. Main statement: its typed line and its cursor
stay as they are until the submission ends, which empties the line and leaves the cursor, unless the
keys that walk through the submitted lines are used, which the submission does not lock.
-/

set_option autoImplicit false
set_option relaxedAutoImplicit false

namespace GatedConsole

/-- What can become of an executing tab in one change of the tabs, if it is still open then. -/
inductive Tab.InFlight (tab : Tab) : Option (Nat × TabEvent) → Tab → Prop
  | elsewhere (event : Option (Nat × TabEvent)) (other : ∀ e, event ≠ some (tab.id, e)) :
      InFlight tab event tab
  | back : InFlight tab none tab.recallPrevious
  | forth : InFlight tab none tab.recallNext
  | answered (result : Result) :
      InFlight tab (some (tab.id, .answered result))
        (tab.showResult Interpreter.clearSequence result)
  | ended : InFlight tab (some (tab.id, .ended)) tab.finish

namespace Tab

/-- Without a cursor, one step back shows the line submitted last. -/
theorem recallPrevious_of_cursor_eq_none {tab : Tab} (away : tab.cursor = none)
    (some_line : tab.submitted ≠ []) :
    tab.submitted.getLast? = some tab.recallPrevious.buffer := by
  have positive := List.length_pos_iff.2 some_line
  have within : tab.submitted.length - 1 < tab.submitted.length := by omega
  rw [recallPrevious, if_neg some_line, away, List.getLast?_eq_getElem?]
  dsimp only
  rw [recallAt, List.getD_eq_getElem?_getD, List.getElem?_eq_getElem within]
  rfl

/-- The lock holds but for the two keys: while a submission is under way nothing else changes the
typed line or the cursor, and its end empties the line. -/
theorem InFlight.buffer_cursor {tab tab' : Tab} {event : Option (Nat × TabEvent)}
    (h : tab.InFlight event tab') :
    (event = none ∧ (tab' = tab.recallPrevious ∨ tab' = tab.recallNext)) ∨
      tab'.cursor = tab.cursor ∧
        tab'.buffer = if event = some (tab.id, .ended) then [] else tab.buffer := by
  cases h with
  | elsewhere _ other =>
    rw [if_neg (other .ended)]
    exact .inr ⟨rfl, rfl⟩
  | back => exact .inl ⟨rfl, .inl rfl⟩
  | forth => exact .inl ⟨rfl, .inr rfl⟩
  | answered result =>
    rw [if_neg (by simp), showResult_eq]
    exact .inr ⟨rfl, rfl⟩
  | ended =>
    rw [if_pos rfl]
    exact .inr ⟨rfl, rfl⟩

end Tab

/-- An update that changes none of the tabs that it reaches changes nothing. -/
theorem Tabs.update_eq_self {tabs : Tabs} {id : Nat} {change : Tab → Tab}
    (h : ∀ tab ∈ tabs.toList, tab.id = id → change tab = tab) : tabs.update id change = tabs := by
  have kept {tab : Tab} (mem : tab ∈ tabs.toList) :
      (if tab.id = id then change tab else tab) = tab := by
    split
    · rename_i same
      exact h tab mem same
    · rfl
  obtain ⟨before, active, after, nextId⟩ := tabs
  simp only [toList, List.mem_append, List.mem_cons] at kept
  have before_kept : before.map (fun tab => if tab.id = id then change tab else tab) = before := by
    rw [List.map_congr_left fun tab mem => kept (.inl mem), List.map_id']
  have after_kept : after.map (fun tab => if tab.id = id then change tab else tab) = after := by
    rw [List.map_congr_left fun tab mem => kept (.inr (.inr mem)), List.map_id']
  simp only [update, before_kept, after_kept, kept (.inr (.inl rfl))]

namespace Change

variable {log : List Glimpse} {tabs tabs' : Tabs} {event : Option (Nat × TabEvent)}

theorem inFlight (h : Change log tabs event tabs') (tidy : tabs.Tidy) {tab tab' : Tab}
    (mem : tab ∈ tabs.toList) (executing : tab.executing = true) (mem' : tab' ∈ tabs'.toList)
    (same : tab'.id = tab.id) : tab.InFlight event tab' := by
  cases h.becomes tidy mem mem' same with
  | elsewhere event other => exact .elsewhere event other
  | aside aside =>
    obtain rfl | rfl | rfl := aside.of_executing executing
    · exact .elsewhere none (by nofun)
    · exact .back
    · exact .forth
  | begun idle =>
    rw [executing] at idle
    cases idle
  | answered result => exact .answered result
  | ended => exact .ended

/-- A submission begins without a cursor. -/
theorem of_begun {id : Nat} {command : Text}
    (h : Change log tabs (some (id, .begun command)) tabs') :
    ∀ tab ∈ tabs'.toList, tab.id = id → tab.cursor = none := by
  cases h with
  | begin other =>
    intro tab mem same
    rw [Tabs.toList_update] at mem
    obtain ⟨tab', -, rfl⟩ := List.mem_map.1 mem
    split
    · rfl
    · rename_i apart
      rw [if_neg apart] at same
      exact absurd same apart

end Change

namespace Session

open Program

/-- What is typed into an executing tab changes nothing. -/
theorem reaches_setBuffer_of_executing (commands : CommandSet Desk) (text : Text) {s : Session}
    (tidy : s.host.tabs.Tidy) {id : Option Nat} {tab : Tab} (found : Session.tab? s id = some tab)
    (executing : tab.executing = true) :
    (program commands (.setBuffer text id)).Reaches s (.done .nothing) s := by
  have kept : updateTab tab.id (·.setBuffer text) s = s := by
    have same : s.host.tabs.update tab.id (·.setBuffer text) = s.host.tabs := by
      apply Tabs.update_eq_self
      intro tab' mem its_id
      rw [tidy.eq_of_id mem (mem_of_tab? found) its_id, Tab.setBuffer, if_pos executing]
    rw [updateTab, setTabs, tabs, same]
  rw [program, work]
  refine .look ?_
  dsimp only
  rw [found]
  dsimp only
  rw [kept]
  exact .keep (.here _ _)

/-- Whatever steps are taken: from one moment to the next, a tab whose submission is under way keeps
its typed line and its cursor, unless one of the two recall keys is used; the end of the submission
empties the line and leaves the cursor. A submission begins without a cursor, and as long as there
is none, one step back shows the line submitted last. Typing into an executing tab changes
nothing. -/
theorem inFlight_takeAll (commands : CommandSet Desk) (bodies : commands.Only MovesTabs)
    (user : User) (macros : Macros) (history : History) (steps : List Step) :
    (∀ before g after,
        glimpses commands (.ofUser user macros history) steps = before ++ g :: after →
          (∀ tab ∈ (tabsAfter user before).toList, tab.executing = true →
            ∀ tab' ∈ g.tabs.toList, tab'.id = tab.id →
              (g.event = none ∧ (tab' = tab.recallPrevious ∨ tab' = tab.recallNext)) ∨
                tab'.cursor = tab.cursor ∧
                  tab'.buffer = if g.event = some (tab.id, .ended) then [] else tab.buffer) ∧
          ∀ id command, g.event = some (id, .begun command) →
            ∀ tab ∈ g.tabs.toList, tab.id = id → tab.cursor = none) ∧
      (∀ tab : Tab, tab.cursor = none → tab.submitted ≠ [] →
        tab.submitted.getLast? = some tab.recallPrevious.buffer) ∧
      ∀ (s : Session) (id : Option Nat) (tab : Tab) (text : Text), s.host.tabs.Tidy →
        Session.tab? s id = some tab → tab.executing = true →
          (program commands (.setBuffer text id)).Reaches s (.done .nothing) s := by
  have chronicle := chronicle_glimpses bodies user macros history steps
  refine ⟨?_, ?_, ?_⟩
  · intro before g after parts
    obtain ⟨tabs, earlier, change⟩ := chronicle.split parts
    rw [earlier.tabsAfter_eq]
    refine ⟨?_, ?_⟩
    · intro tab mem executing tab' mem' same
      exact (change.inFlight earlier.tidy mem executing mem' same).buffer_cursor
    · intro id command begun
      rw [begun] at change
      exact change.of_begun
  · exact fun tab => Tab.recallPrevious_of_cursor_eq_none
  · intro s id tab text tidy found executing
    exact reaches_setBuffer_of_executing commands text tidy found executing

/-- A submission, and a step back while it is under way. -/
def recallStep : Step := .gather [.enter "look" none, .up none]

/-- The step back is not locked: behind the submission the cursor stays. -/
theorem inFlight_takeAll_recall :
    watchCommands.Only MovesTabs ∧
      (takeAll watchCommands watchSession [recallStep]).2.host.tabs.active.cursor = some 0 ∧
      ∀ before g after, glimpses watchCommands watchSession [recallStep] = before ++ g :: after →
        ∀ tab ∈ (tabsAfter { username := "eve" } before).toList, tab.executing = true →
          ∀ tab' ∈ g.tabs.toList, tab'.id = tab.id →
            (g.event = none ∧ (tab' = tab.recallPrevious ∨ tab' = tab.recallNext)) ∨
              tab'.cursor = tab.cursor ∧
                tab'.buffer = if g.event = some (tab.id, .ended) then [] else tab.buffer := by
  have bodies : watchCommands.Only MovesTabs := fun _ _ _ _ _ _ => trivial
  have still : (Loop.turns 40
      (Loop.start (program watchCommands recallStep) false watchSession)).turn = none := rfl
  have after : (takeAll watchCommands watchSession [recallStep]).2.host.tabs.active.cursor =
      some 0 := by
    change (Loop.start (program watchCommands recallStep) false
      watchSession).rest.floor.state.host.tabs.active.cursor = _
    rw [Loop.rest_eq_turns still]
    rfl
  have locked := (inFlight_takeAll watchCommands bodies { username := "eve" } watchSession.macros
    .ofDefaultCapacity [recallStep]).1
  exact ⟨bodies, after, fun before g after parts => (locked before g after parts).1⟩

end Session

end GatedConsole
