import GatedConsole.Proofs.Session.Authority
import GatedConsole.Proofs.Session.Telling

/-!
Tabs under any interleaving of steps. Main statement: at every moment each tab is executing exactly
while one submission of its own is under way, its transcript shows the commands submitted since it
was last emptied, each with the lines of its result right behind it, and a submission that has ended
leaves no lock and an empty line.
-/

set_option autoImplicit false
set_option relaxedAutoImplicit false

namespace GatedConsole

/-- The tabs agree with the events of their submissions. -/
structure WellKept (log : List Glimpse) (tabs : Tabs) : Prop where
  /-- A tab is executing while one submission of its own has begun and not ended. -/
  executing : ∀ tab ∈ tabs.toList, (eventsOf tab.id log).countP TabEvent.isBegun =
    (eventsOf tab.id log).countP TabEvent.isEnded + if tab.executing then 1 else 0
  /-- At most one submission of a tab is under way, even when the tab has been closed. -/
  single : ∀ id, (eventsOf id log).countP TabEvent.isEnded ≤
      (eventsOf id log).countP TabEvent.isBegun ∧
    (eventsOf id log).countP TabEvent.isBegun ≤ (eventsOf id log).countP TabEvent.isEnded + 1
  submitted : ∀ tab ∈ tabs.toList, tab.submitted = commandsOf (eventsOf tab.id log)
  stripped : ∀ tab ∈ tabs.toList, ∀ command ∈ tab.submitted, command ≠ [] ∧
    command.strip = command
  shown_stripped : ∀ tab ∈ tabs.toList, ∀ command ∈ commandLines tab.lines, command ≠ [] ∧
    command.strip = command
  commands : ∀ tab ∈ tabs.toList,
    commandLines tab.lines = tab.submitted.rtake (sinceClear (eventsOf tab.id log))
  transcript : ∀ tab ∈ tabs.toList,
    Transcript tab.lines (exchangesOf (eventsOf tab.id log))
  /-- While a result is awaited, its command is the last line of the transcript. -/
  awaiting : ∀ tab ∈ tabs.toList, stageOf (eventsOf tab.id log) = .pending →
    ∃ lines exchanges command, Transcript lines exchanges ∧
      tab.lines = lines ++ [⟨.command, command⟩] ∧
        exchangesOf (eventsOf tab.id log) = exchanges ++ [(command, none)]

theorem Change.of_ended {log : List Glimpse} {tabs tabs' : Tabs} {id : Nat}
    (h : Change log tabs (some (id, .ended)) tabs') :
    ∀ tab ∈ tabs'.toList, tab.id = id → tab.executing = false ∧ tab.buffer = [] := by
  cases h with
  | finish _ busy =>
    intro tab mem same
    rw [Tabs.toList_update] at mem
    obtain ⟨tab', -, rfl⟩ := List.mem_map.1 mem
    split
    · exact ⟨rfl, rfl⟩
    · rename_i apart
      rw [if_neg apart] at same
      exact absurd same apart

namespace Chronicle

variable {user : User} {log : List Glimpse} {tabs : Tabs}

theorem wellKept (h : Chronicle user log tabs) : WellKept log tabs where
  executing tab mem := by
    have life := h.life tab mem
    rw [life.orderly.countP_isBegun]
    by_cases busy : tab.executing = true
    · rw [if_pos busy, if_neg (life.executing_iff.1 busy)]
    · rw [if_neg busy, if_pos (life.stageOf_eq_idle (Bool.eq_false_iff.2 busy))]
  single id := by
    have counts := (h.orderly id).countP_isBegun
    split at counts <;> omega
  submitted tab mem := (h.life tab mem).submitted_eq
  stripped tab mem command its_mem := by
    rw [(h.life tab mem).submitted_eq] at its_mem
    exact (h.life tab mem).stripped command its_mem
  shown_stripped tab mem command its_mem := by
    rw [(h.life tab mem).commandLines_eq, (h.life tab mem).submitted_eq] at its_mem
    exact (h.life tab mem).stripped command (List.mem_of_mem_drop its_mem)
  commands tab mem := (h.life tab mem).commandLines_eq
  transcript tab mem := (h.life tab mem).transcript.1
  awaiting tab mem := (h.life tab mem).transcript.2

/-- Every glimpse in a chronicle is a change of the tabs that were there before. -/
theorem split (h : Chronicle user log tabs) {before after : List Glimpse} {g : Glimpse}
    (parts : log = before ++ g :: after) :
    ∃ tabs, Chronicle user before tabs ∧ Change before tabs g.event g.tabs := by
  induction h generalizing after with
  | start => simp at parts
  | change h h' ih =>
    rcases cut_of_append_singleton parts with ⟨rfl, rfl, -⟩ | ⟨rest, -, earlier⟩
    · exact ⟨_, h, h'⟩
    · exact ih earlier

/-- The end of a submission leaves its tab idle and its line empty. -/
theorem of_ended (h : Chronicle user log tabs) {before after : List Glimpse} {g : Glimpse}
    (parts : log = before ++ g :: after) {id : Nat} (ended : g.event = some (id, .ended)) :
    ∀ tab ∈ g.tabs.toList, tab.id = id → tab.executing = false ∧ tab.buffer = [] := by
  obtain ⟨tabs, -, change⟩ := h.split parts
  rw [ended] at change
  exact change.of_ended

end Chronicle

namespace Session

open Program

/-- In a tab that is executing nothing can be submitted, and nothing completed. -/
theorem reaches_program_of_executing (commands : CommandSet Desk) {s : Session} {id : Option Nat}
    {tab : Tab} (found : Session.tab? s id = some tab) (executing : tab.executing = true) :
    (program commands (.submit id)).Reaches s (.done .nothing) s ∧
      (program commands (.complete id)).Reaches s (.done (.texts [])) s := by
  refine ⟨?_, ?_⟩
  · rw [program, work]
    refine .look ?_
    dsimp only [Program.bind]
    rw [found]
    dsimp only
    rw [executing, Bool.true_or, if_pos rfl]
    exact .here _ _
  · rw [program, work]
    refine .look ?_
    dsimp only
    rw [found]
    dsimp only
    rw [complete, if_pos executing]
    exact .keep (.here _ _)

/-- Whatever steps are taken, one after the other or gathered, in whatever order their parts go on:
at every moment the tabs are well kept, the last glimpse shows the tabs as they are behind all
steps, a submission that ends leaves its tab idle with an empty line, and submitting or completing
in a tab that is executing changes nothing. -/
theorem tabs_takeAll (commands : CommandSet Desk) (bodies : commands.Only MovesTabs) (user : User)
    (macros : Macros) (history : History) (steps : List Step) :
    (∀ before g after,
        glimpses commands (.ofUser user macros history) steps = before ++ g :: after →
          WellKept (before ++ [g]) g.tabs ∧
            ∀ id, g.event = some (id, .ended) →
              ∀ tab ∈ g.tabs.toList, tab.id = id → tab.executing = false ∧ tab.buffer = []) ∧
      WellKept (glimpses commands (.ofUser user macros history) steps)
        (takeAll commands (.ofUser user macros history) steps).2.host.tabs ∧
      tabsAfter user (glimpses commands (.ofUser user macros history) steps) =
        (takeAll commands (.ofUser user macros history) steps).2.host.tabs ∧
      ∀ (s : Session) (id : Option Nat) (tab : Tab), Session.tab? s id = some tab →
        tab.executing = true →
          (program commands (.submit id)).Reaches s (.done .nothing) s ∧
            (program commands (.complete id)).Reaches s (.done (.texts [])) s := by
  have chronicle := chronicle_glimpses bodies user macros history steps
  refine ⟨?_, chronicle.wellKept, chronicle.tabsAfter_eq, ?_⟩
  · intro before g after parts
    obtain ⟨tabs, earlier, change⟩ := chronicle.split parts
    refine ⟨(Chronicle.change earlier change).wellKept, ?_⟩
    intro id ended
    exact chronicle.of_ended parts ended
  · intro s id tab found executing
    exact reaches_program_of_executing commands found executing

/-- A new tab, two submissions that wait for each other, and keys while they do. -/
def twoTabsStep : Step :=
  .gather [.openTab none, .enter "look" (some 1), .enter "clear" (some 2),
    .setBuffer "x" (some 1), .submit (some 1)]

theorem tabs_takeAll_twoTabs :
    watchCommands.Only MovesTabs ∧
      (takeAll watchCommands watchSession [twoTabsStep]).2.host.tabs.toList.map
          (fun tab => (tab.executing, tab.buffer, tab.submitted, commandLines tab.lines)) =
        [(false, [], [Text.ofString "look"], [Text.ofString "look"]),
          (false, [], [Text.ofString "clear"], [])] ∧
      WellKept (glimpses watchCommands watchSession [twoTabsStep])
        (takeAll watchCommands watchSession [twoTabsStep]).2.host.tabs := by
  have bodies : watchCommands.Only MovesTabs := fun _ _ _ _ _ _ => trivial
  have still : (Loop.turns 40
      (Loop.start (program watchCommands twoTabsStep) false watchSession)).turn = none := rfl
  have after : (takeAll watchCommands watchSession [twoTabsStep]).2.host.tabs.toList.map
      (fun tab => (tab.executing, tab.buffer, tab.submitted, commandLines tab.lines)) =
        [(false, [], [Text.ofString "look"], [Text.ofString "look"]),
          (false, [], [Text.ofString "clear"], [])] := by
    change (Loop.start (program watchCommands twoTabsStep) false
      watchSession).rest.floor.state.host.tabs.toList.map _ = _
    rw [Loop.rest_eq_turns still]
    rfl
  exact ⟨bodies, after, (tabs_takeAll watchCommands bodies { username := "eve" } _
    .ofDefaultCapacity [twoTabsStep]).2.1⟩

end Session

end GatedConsole
