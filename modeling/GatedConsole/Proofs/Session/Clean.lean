import GatedConsole.Proofs.Interpreter.Clean
import GatedConsole.Proofs.Session.Telling

/-!
Sessions in which no text has a control sequence. Main statement: every step that brings in clean
texts only, and does not load what is stored, leaves such a session, and the result of a clean line
empties a transcript exactly if the first word of the line asks for that.
-/

set_option autoImplicit false
set_option relaxedAutoImplicit false

namespace GatedConsole

/-! ## Tabs -/

/-- What a tab shows, and what can be submitted from it, has no control sequence. -/
structure Tab.Clean (tab : Tab) : Prop where
  lines : ∀ line ∈ tab.lines, line.content.Clean
  buffer : tab.buffer.Clean
  submitted : ∀ line ∈ tab.submitted, line.Clean

def Tabs.Clean (tabs : Tabs) : Prop := ∀ tab ∈ tabs.toList, tab.Clean

def Desk.Clean (desk : Desk) : Prop := desk.tabs.Clean

/-! ## Results in a transcript -/

/-- What answers a line empties the transcript exactly if the first word of the line says so. -/
theorem Interpreter.Heeds.clears_iff {line : Text} {result : Result} (h : Heeds line result) :
    result.clears = true ↔ line.words.head? = some clearWord := by
  unfold Heeds at h
  split at h
  · rename_i asked
    rw [h]
    exact iff_of_true rfl asked
  · rename_i other
    refine iff_of_false (fun clears => ?_) other
    simp only [Result.clears, Bool.and_eq_true, decide_eq_true_eq] at clears
    have shown := h.output clearSequence (by rw [clears.2]; exact List.mem_singleton_self _)
    exact absurd shown (by decide)

theorem Result.Clean.shown {result : Result} (h : result.Clean) :
    ∀ line ∈ result.shown, line.content.Clean := by
  intro line mem
  unfold Result.shown at mem
  split at mem
  · obtain ⟨text, its, rfl⟩ := List.mem_map.1 mem
    exact h.output text its
  · rw [List.mem_singleton.1 mem]
    dsimp only [Tab.errorLine]
    split
    · decide
    · decide
    · rename_i message _ said
      exact h.error message said

namespace Tab

variable {tab : Tab}

theorem clean_of_mem_welcomeLines {user : User} (h : user.username.Clean) :
    ∀ t ∈ welcomeLines user, t.Clean := by
  have greeting : Text.Clean ("🔮 Welcome, " ++ user.username) :=
    Text.clean_append.2 ⟨by decide, h⟩
  have level : Text.Clean ("⚡ Access Level: " ++ user.access.title) :=
    Text.clean_append.2 ⟨by decide, user.access.clean_title⟩
  simp only [welcomeLines, List.forall_mem_cons]
  refine ⟨?_, ?_, ?_, ?_, greeting, level, ?_, ?_, ?_, ?_, nofun⟩ <;> decide +kernel

theorem clean_new {user : User} (id : Nat) (title : Text) (h : user.username.Clean) :
    (Tab.new id title user).Clean where
  lines line mem := by
    obtain ⟨text, its, rfl⟩ := List.mem_map.1 mem
    exact clean_of_mem_welcomeLines h text its
  buffer := Text.clean_nil
  submitted := nofun

theorem Clean.addLine (h : tab.Clean) (kind : LineKind) {content : Text} (its : content.Clean) :
    (tab.addLine kind content).Clean where
  lines line mem := by
    obtain mem | mem := List.mem_append.1 mem
    · exact h.lines line mem
    · rw [List.mem_singleton.1 mem]
      exact its
  buffer := h.buffer
  submitted := h.submitted

theorem Clean.setBuffer (h : tab.Clean) {text : Text} (typed : text.Clean) :
    (tab.setBuffer text).Clean := by
  unfold Tab.setBuffer
  split
  · exact h
  · exact ⟨h.lines, typed, h.submitted⟩

theorem Clean.recallAt (h : tab.Clean) (i : Nat) : (tab.recallAt i).Clean := by
  refine ⟨h.lines, ?_, h.submitted⟩
  change (tab.submitted.getD i []).Clean
  rw [List.getD_eq_getElem?_getD]
  cases found : tab.submitted[i]? with
  | none => exact Text.clean_nil
  | some line => exact h.submitted line (List.mem_of_getElem? found)

theorem Clean.recallPrevious (h : tab.Clean) : tab.recallPrevious.Clean := by
  unfold Tab.recallPrevious
  split
  · exact h
  · split <;> exact h.recallAt _

theorem Clean.recallNext (h : tab.Clean) : tab.recallNext.Clean := by
  unfold Tab.recallNext
  split
  · exact h
  · split
    · exact ⟨h.lines, Text.clean_nil, h.submitted⟩
    · exact h.recallAt _

theorem Clean.begin (h : tab.Clean) {command : Text} (its : command.Clean) :
    (tab.begin command).Clean := by
  have shown := h.addLine .command its
  refine ⟨shown.lines, shown.buffer, fun line mem => ?_⟩
  obtain mem | mem := List.mem_append.1 mem
  · exact h.submitted line mem
  · rw [List.mem_singleton.1 mem]
    exact its

theorem Clean.showResult (h : tab.Clean) {command : Text} {result : Result}
    (heeds : Interpreter.Heeds command result) :
    (tab.showResult Interpreter.clearSequence result).Clean := by
  rw [showResult_eq]
  refine ⟨?_, h.buffer, h.submitted⟩
  dsimp only
  split
  · nofun
  · rename_i other
    rw [heeds.clears_iff] at other
    rw [Interpreter.Heeds, if_neg other] at heeds
    intro line mem
    obtain mem | mem := List.mem_append.1 mem
    · exact h.lines line mem
    · exact heeds.shown line mem

theorem Clean.finish (h : tab.Clean) : tab.finish.Clean :=
  ⟨h.lines, Text.clean_nil, h.submitted⟩

theorem Clean.showSuggestions (h : tab.Clean) {suggestions : List Text}
    (each : ∀ suggestion ∈ suggestions, suggestion.Clean) :
    (Session.showSuggestions suggestions tab).Clean := by
  unfold Session.showSuggestions
  split
  · exact h
  · exact ⟨h.lines, each _ (List.mem_singleton_self _), h.submitted⟩
  · exact h.addLine .system (Text.clean_append.2 ⟨by decide, Text.clean_join (by decide) each⟩)

end Tab

namespace Tabs

variable {tabs : Tabs}

theorem Clean.update (h : tabs.Clean) {id : Nat} {change : Tab → Tab}
    (keeps : ∀ tab : Tab, tab.Clean → (change tab).Clean) : (tabs.update id change).Clean := by
  intro tab mem
  rw [toList_update] at mem
  obtain ⟨before, its_mem, rfl⟩ := List.mem_map.1 mem
  split
  · exact keeps before (h before its_mem)
  · exact h before its_mem

theorem Clean.openTab (h : tabs.Clean) (title : Option Text) {user : User}
    (named : user.username.Clean) : (tabs.openTab title user).Clean := by
  intro tab mem
  rw [toList_openTab, List.mem_append] at mem
  obtain mem | mem := mem
  · exact h tab mem
  · rw [List.mem_singleton.1 mem]
    exact Tab.clean_new _ _ named

end Tabs

/-! ## Steps -/

namespace Step

mutual

/-- The step brings in clean texts only. Loading brings in what is stored, which may be anything. -/
def Clean : Step → Prop
  | .execute line => line.Clean
  | .define name commands => name.Clean ∧ ∀ command ∈ commands, command.Clean
  | .user form => form.username.Clean
  | .setBuffer text _ | .enter text _ => text.Clean
  | .reload | .reopen => False
  | .gather steps => AllClean steps
  | .suggest _ | .candidates | .entries | .macros | .stored _ | .store .. | .failWrites _
  | .submit _ | .complete _ | .up _ | .down _ | .openTab _ | .closeTab _ | .switchTab _
  | .transcript _ | .rendered _ => True

def AllClean : List Step → Prop
  | [] => True
  | step :: steps => Clean step ∧ AllClean steps

end

theorem AllClean.of_mem {steps : List Step} (h : AllClean steps) {step : Step}
    (mem : step ∈ steps) : step.Clean := by
  induction steps with
  | nil => cases mem
  | cons first steps ih =>
    rw [AllClean] at h
    obtain rfl | mem := List.mem_cons.1 mem
    · exact h.1
    · exact ih h.2 mem

end Step

namespace Session

open Program

variable {s : Session}

/-- Clean sessions stay clean. -/
def KeepsClean (before after : Session) : Prop :=
  Memory.Clean Desk.Clean before → Memory.Clean Desk.Clean after

/-- A new session is clean if what it begins with is. -/
theorem clean_ofUser {user : User} {macros : Macros} {history : History}
    (named : user.username.Clean) (book : macros.book.Clean)
    (each : ∀ line ∈ history.entries, line.Clean) :
    Memory.Clean Desk.Clean (Session.ofUser user macros history) where
  user := named
  book := book
  history := each
  host tab mem := by
    rw [List.mem_singleton.1 mem]
    exact Tab.clean_new _ _ named

theorem clean_setTabs {tabs : Tabs} (now : Memory.Clean Desk.Clean s) (h : tabs.Clean) :
    Memory.Clean Desk.Clean (s.setTabs tabs) :=
  ⟨now.user, now.book, now.history, h⟩

theorem clean_setStore (store : Store) (now : Memory.Clean Desk.Clean s) :
    Memory.Clean Desk.Clean (s.setStore store) :=
  ⟨now.user, now.book, now.history, now.host⟩

theorem clean_updateTab {id : Nat} {change : Tab → Tab}
    (keeps : ∀ tab : Tab, tab.Clean → (change tab).Clean) :
    KeepsClean s (updateTab id change s) :=
  fun now => clean_setTabs now (Tabs.Clean.update now.host keeps)

theorem clean_define {name : Text} {commands : List Text} (h : name.Clean)
    (each : ∀ command ∈ commands, command.Clean) : KeepsClean s (define name commands s).2 := by
  intro now
  by_cases none : commands = []
  · have same : (define name commands s).2 = s := by simp only [define, Macros.define, dif_pos none]
    rwa [same]
  · have inscribed : (define name commands s).2 =
        { s with macros := (s.macros.inscribe name commands none).1 } := by
      simp only [define, Macros.define, dif_neg none]
    rw [inscribed]
    exact Interpreter.clean_inscribe now h each none

theorem clean_changeUser {form : UserForm} (h : form.username.Clean) :
    KeepsClean s (changeUser form s).2 := by
  intro now
  unfold changeUser
  split
  · exact now
  · rename_i user its
    obtain ⟨level, -, rfl⟩ := Option.map_eq_some_iff.1 its
    exact ⟨h, now.book, now.history, now.host⟩

theorem clean_closeTab (id : Nat) : KeepsClean s (closeTab id s).2 := by
  intro now
  unfold closeTab
  split
  · exact now
  · rename_i tabs closed
    exact clean_setTabs now fun tab mem => now.host tab ((Tabs.of_close? closed).1.subset mem)

theorem clean_switchTab (id : Nat) : KeepsClean s (switchTab id s).2 := by
  intro now
  unfold switchTab
  split
  · exact now
  · rename_i tabs switched
    refine clean_setTabs now fun tab mem => now.host tab ?_
    rwa [(Tabs.of_switch? switched).1] at mem

theorem clean_complete {registry : Registry} (registered : registry.Clean) (tab : Tab) :
    KeepsClean s (complete registry s tab).2 := by
  intro now
  unfold complete
  split
  · exact now
  · refine clean_updateTab (fun tab h => h.showSuggestions fun suggestion mem => ?_) now
    exact Interpreter.clean_of_mem_candidates registered now.book
      (Interpreter.mem_candidates_of_mem_suggestions mem)

theorem only_onTab_keepsClean (id : Option Nat) {move : Session → Tab → Reply × Session}
    (h : ∀ s tab, KeepsClean s (move s tab).2) (s : Session) :
    (onTab id move).Only KeepsClean s := by
  refine ⟨?_, trivial⟩
  dsimp only
  split
  · exact fun now => now
  · exact h s _

theorem only_setBuffer_keepsClean {text : Text} (typed : text.Clean) (id : Option Nat)
    (s : Session) : (setBuffer text id).Only KeepsClean s :=
  only_onTab_keepsClean id (fun _ _ => clean_updateTab fun _ h => h.setBuffer typed) s

/-- What clean steps do apart from lines leaves a clean session clean. -/
theorem only_work_keepsClean {registry : Registry} (registered : registry.Clean)
    (execute : Text → Work Desk Result) {step : Step} (quiet : submits step = false)
    (other : ∀ line, step ≠ .execute line) (clean : step.Clean) (s : Session) :
    (work registry execute step).Only KeepsClean s := by
  cases step with
  | submit | enter | gather => cases quiet
  | execute line => exact absurd rfl (other line)
  | reload | reopen => cases clean
  | suggest | candidates | entries | macros | stored =>
    rw [work]
    exact ⟨fun now => now, trivial⟩
  | define name commands =>
    rw [work]
    exact ⟨clean_define clean.1 clean.2, trivial⟩
  | store | failWrites =>
    rw [work]
    exact ⟨clean_setStore _, trivial⟩
  | user form =>
    rw [work]
    exact ⟨clean_changeUser clean, trivial⟩
  | setBuffer text id =>
    rw [work]
    exact only_setBuffer_keepsClean clean id s
  | complete id =>
    rw [work]
    exact only_onTab_keepsClean id (fun _ tab => clean_complete registered tab) s
  | up id =>
    rw [work]
    exact only_onTab_keepsClean id (fun _ _ => clean_updateTab fun _ h => h.recallPrevious) s
  | down id =>
    rw [work]
    exact only_onTab_keepsClean id (fun _ _ => clean_updateTab fun _ h => h.recallNext) s
  | openTab title =>
    rw [work]
    exact ⟨fun now => clean_setTabs now (Tabs.Clean.openTab now.host title now.user), trivial⟩
  | closeTab id =>
    rw [work]
    exact ⟨clean_closeTab id, trivial⟩
  | switchTab id =>
    rw [work]
    exact ⟨clean_switchTab id, trivial⟩
  | transcript id | rendered id =>
    rw [work]
    exact only_onTab_keepsClean id (fun _ _ => fun now => now) s

end Session

end GatedConsole
