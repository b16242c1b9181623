import GatedConsole.Console.Prompt
import GatedConsole.Proofs.Interpreter.Narrowing
import GatedConsole.Proofs.Session.Walk
import GatedConsole.Proofs.Text.Words

/-!
Completion of the typed line and at the prompt. Main statement: a line that has been completed is
complete, so that completing it again changes nothing; and where every name is a word, completions
are offered for one word behind blanks only, and a line completed at its end is an invocation of
what was offered.
-/

set_option autoImplicit false
set_option relaxedAutoImplicit false

namespace GatedConsole

/-! ## The typed line of a tab -/

namespace Interpreter

/-- The only suggestion for a fragment is the only suggestion for itself. -/
theorem suggestions_eq_single {registry : Registry} {user : User} {book : MacroBook}
    {fragment only : Text} (single : suggestions registry user book fragment = [only]) :
    suggestions registry user book only = [only] := by
  have room : (suggestions registry user book fragment).length < 5 := by
    rw [single]
    exact Nat.lt_of_sub_eq_succ rfl
  have among : only ∈ matchesOf (candidates registry user book) fragment := by
    rw [← suggestions_eq_matchesOf registry user book room, single]
    exact List.mem_singleton_self only
  have within : fragment.lower <:+: only.lower := (mem_matchesOf.1 among).2
  have narrowed := suggestions_of_narrower registry user book within room
  rw [single] at narrowed
  have kept : [only].filter (fun name => decide (only.lower <:+: name.lower)) = [only] := by
    apply List.filter_eq_self.2
    intro name mem
    obtain rfl := List.mem_singleton.1 mem
    exact decide_eq_true (List.infix_refl _)
  exact narrowed.trans kept

end Interpreter

namespace Tabs

/-- A change that leaves a changed tab alone need not be made twice. -/
theorem update_update (tabs : Tabs) (number : Nat) {change : Tab → Tab}
    (settled : ∀ tab, change (change tab) = change tab) :
    (tabs.update number change).update number change = tabs.update number change := by
  have once (tab : Tab) :
      (if (if tab.id = number then change tab else tab).id = number then
          change (if tab.id = number then change tab else tab)
        else if tab.id = number then change tab else tab) =
        if tab.id = number then change tab else tab := by
    by_cases named : tab.id = number
    · simp only [if_pos named, settled, ite_self]
    · simp only [if_neg named]
  simp only [update, List.map_map]
  congr 1
  · exact List.map_congr_left fun tab _ => once tab
  · exact once tabs.active
  · exact List.map_congr_left fun tab _ => once tab

end Tabs

namespace Session

variable {commands : CommandSet Desk} {s : Session} {only : Text}

theorem take_complete (commands : CommandSet Desk) (s : Session) (id : Option Nat) :
    take commands s (.complete id) =
      match s.tab? id with
      | none => (.nothing, s)
      | some tab =>
        (.texts (s.complete commands.registry tab).1, (s.complete commands.registry tab).2) := by
  have its : program commands (.complete id) = onTab id fun s tab =>
      (.texts (s.complete commands.registry tab).1, (s.complete commands.registry tab).2) := by
    rw [program, work]
  rw [onTab] at its
  exact take_of_act its s

/-- The tab under a name after an update of the tab that was there before. -/
theorem tab?_updateTab {id : Option Nat} {tab : Tab} (found : s.tab? id = some tab)
    {change : Tab → Tab} (named : ∀ tab, (change tab).id = tab.id) :
    (s.updateTab tab.id change).tab? id = some (change tab) := by
  cases id with
  | none =>
    obtain rfl : s.tabs.active = tab := Option.some.inj found
    exact congrArg some (if_pos rfl)
  | some number =>
    have same : number = tab.id := (Tabs.id_of_get? found).symm
    have updated := s.tabs.get?_update tab.id number named
    rw [show s.tabs.get? number = some tab from found, Option.map_some, if_pos same] at updated
    exact updated

/-- A tab with one suggestion is idle, and its typed line becomes the suggestion. -/
theorem complete_eq_single {registry : Registry} {tab : Tab}
    (single : (s.complete registry tab).1 = [only]) :
    tab.executing = false ∧ s.suggestions registry tab.buffer = [only] ∧
      s.complete registry tab =
        ([only], s.updateTab tab.id fun tab => { tab with buffer := only }) := by
  unfold complete at single ⊢
  cases busy : tab.executing with
  | true =>
    rw [busy, if_pos rfl] at single
    cases single
  | false =>
    rw [busy, if_neg Bool.false_ne_true] at single
    have suggested : s.suggestions registry tab.buffer = [only] := single
    refine ⟨rfl, suggested, ?_⟩
    rw [if_neg Bool.false_ne_true, suggested]
    rfl

/-- A completed line is completed by itself. -/
theorem take_complete_again {id : Option Nat}
    (single : (take commands s (.complete id)).1 = .texts [only]) :
    take commands (take commands s (.complete id)).2 (.complete id) =
      (.texts [only], (take commands s (.complete id)).2) := by
  have first := take_complete commands s id
  cases found : s.tab? id with
  | none =>
    rw [first, found] at single
    cases single
  | some tab =>
    rw [found] at first
    dsimp only at first
    rw [first] at single
    obtain ⟨idle, suggested, completed⟩ := complete_eq_single (Reply.texts.inj single)
    rw [completed] at first
    generalize after : s.updateTab tab.id (fun tab => { tab with buffer := only }) = s' at first
    have its : s'.tab? id = some { tab with buffer := only } := by
      rw [← after]
      exact tab?_updateTab found fun _ => rfl
    have offered : s'.suggestions commands.registry only = [only] := by
      rw [← after]
      exact Interpreter.suggestions_eq_single suggested
    have settled : s'.updateTab tab.id (fun tab => { tab with buffer := only }) = s' := by
      rw [← after]
      exact congrArg s.setTabs (s.tabs.update_update tab.id fun _ => rfl)
    have again : s'.complete commands.registry { tab with buffer := only } = ([only], s') := by
      rw [complete, idle, if_neg Bool.false_ne_true, offered]
      exact congrArg (Prod.mk [only]) settled
    rw [first, take_complete, its]
    dsimp only
    rw [again]

end Session

/-! ## The word at the prompt -/

namespace Completion

variable {suggest : Text → List Text} {before : Text} {offer : Completion}

/-- A text is its blanks at the front and what is behind them. -/
theorem gap_append_stripLeft (t : Text) :
    ∃ gap, t = gap ++ t.stripLeft ∧ ∀ c ∈ gap, c.isBlank = true :=
  ⟨t.takeWhile CodePoint.isBlank, (List.takeWhile_append_dropWhile).symm,
    List.all_eq_true.1 List.all_takeWhile⟩

theorem mem_offers_iff :
    offer ∈ offers suggest before ↔
      (before.stripLeft ≠ [] ∧ CodePoint.ofChar ' ' ∉ before.stripLeft) ∧
        offer.text ∈ suggest before.stripLeft ∧ offer.back = before.stripLeft.length := by
  obtain ⟨text, back⟩ := offer
  have no_space : (before.stripLeft.any fun c => decide (c = CodePoint.ofChar ' ')) = false ↔
      CodePoint.ofChar ' ' ∉ before.stripLeft := by
    rw [List.any_eq_false]
    simp only [decide_eq_true_eq]
    exact ⟨fun none mem => none _ mem rfl, fun absent c mem same => absent (same ▸ mem)⟩
  rw [← no_space]
  unfold offers
  dsimp only
  split
  · rename_i refused
    simp only [Bool.or_eq_true, decide_eq_true_eq] at refused
    simp only [List.not_mem_nil, false_iff]
    rintro ⟨⟨some_sign, none⟩, -⟩
    rcases refused with nothing | space
    · exact some_sign nothing
    · rw [none] at space
      cases space
  · rename_i taken
    simp only [Bool.or_eq_true, decide_eq_true_eq, not_or, Bool.not_eq_true] at taken
    simp only [List.mem_map, Completion.mk.injEq, taken, ne_eq, not_false_eq_true, and_self,
      true_and]
    constructor
    · rintro ⟨name, suggested, rfl, rfl⟩
      exact ⟨suggested, rfl⟩
    · rintro ⟨suggested, rfl⟩
      exact ⟨text, suggested, rfl, rfl⟩

/-- A word behind blanks is a line of that word. -/
theorem ofLine?_of_gap {gap word : Text} (blank : ∀ c ∈ gap, c.isBlank = true)
    (its : word.IsWord) : Invocation.ofLine? (gap ++ word) = some ⟨word, [], []⟩ := by
  have words : (gap ++ word).words = [word] := by
    rw [Text.words_append_of_blank blank, its.words_eq]
  rw [Invocation.ofLine?, words]
  rfl

section

variable {registry : Registry} {user : User} {book : MacroBook}

/-- What is offered is a name, and the word that it completes is a word. -/
theorem words_of_mem_offers
    (words : ∀ name ∈ Interpreter.candidates registry user book, name.IsWord)
    (offered : offer ∈ offers (Interpreter.suggestions registry user book) before) :
    before.stripLeft.IsWord ∧ offer.back = before.stripLeft.length ∧ offer.text.IsWord := by
  obtain ⟨⟨some_sign, -⟩, suggested, back⟩ := mem_offers_iff.1 offered
  rw [Interpreter.suggestions_eq_take_matchesOf] at suggested
  obtain ⟨name, within⟩ := Interpreter.mem_matchesOf.1 (List.mem_of_mem_take suggested)
  have visible := Text.visible_of_isInfix_lower within (words _ name).2
  exact ⟨⟨some_sign, visible⟩, back, words _ name⟩

end

/-- A typed line with one completion becomes that completion, and completing it once more answers
the same and changes nothing. At the prompt, where names are words, there are completions only for
one word behind blanks; with the cursor at the end of the line, putting one in the place of that
word gives an invocation of the completion without arguments and flags. -/
theorem complete_settles (commands : CommandSet Desk) :
    (∀ (s : Session) (id : Option Nat) (only : Text),
        (Session.take commands s (.complete id)).1 = .texts [only] →
          Session.take commands (Session.take commands s (.complete id)).2 (.complete id) =
            (.texts [only], (Session.take commands s (.complete id)).2)) ∧
      ∀ (user : User) (book : MacroBook),
        (∀ name ∈ Interpreter.candidates commands.registry user book, name.IsWord) →
          ∀ (text : Text) (cursor : Nat),
            ∀ offer ∈ offers (Interpreter.suggestions commands.registry user book)
                (text.take cursor),
              (∃ gap fragment : Text, text.take cursor = gap ++ fragment ∧
                  (∀ c ∈ gap, c.isBlank = true) ∧ fragment.IsWord ∧
                  offer.back = fragment.length) ∧
                (text.length ≤ cursor →
                  Invocation.ofLine? (text.take (text.length - offer.back) ++ offer.text) =
                    some ⟨offer.text, [], []⟩) := by
  refine ⟨fun s id only single => Session.take_complete_again single, ?_⟩
  intro user book words text cursor offer offered
  obtain ⟨fragment_word, back, name_word⟩ := words_of_mem_offers words offered
  obtain ⟨gap, parts, blank⟩ := gap_append_stripLeft (text.take cursor)
  refine ⟨⟨gap, _, parts, blank, fragment_word, back⟩, fun at_end => ?_⟩
  rw [List.take_of_length_le at_end] at parts back
  have kept : text.take (text.length - offer.back) = gap := by
    have size := congrArg List.length parts
    rw [List.length_append] at size
    have front : text.length - offer.back = gap.length := by omega
    rw [front]
    conv => lhs; rw [parts]
    exact List.take_left
  rw [kept]
  exact ofLine?_of_gap blank name_word

/-- A tab in which the end of a name has been typed in the wrong case. -/
def shoutingSession : Session := Session.watchSession.updateTab 1 (·.setBuffer "O.M")

/-- The same behind blanks of three kinds. -/
def shoutedLine : Text := "\t \u3000O.M"

theorem complete_settles_shouting :
    (Session.take Session.watchCommands shoutingSession (.complete none)).1 =
        .texts ["macro.m"] ∧
      Session.take Session.watchCommands
          (Session.take Session.watchCommands shoutingSession (.complete none)).2
          (.complete none) =
        (.texts ["macro.m"],
          (Session.take Session.watchCommands shoutingSession (.complete none)).2) ∧
      (∀ name ∈ Interpreter.candidates Session.watchCommands.registry shoutingSession.user
        shoutingSession.macros.book, name.IsWord) ∧
      (⟨"macro.m", 3⟩ : Completion) ∈
        offers (Interpreter.suggestions Session.watchCommands.registry shoutingSession.user
          shoutingSession.macros.book) (shoutedLine.take shoutedLine.length) ∧
      Invocation.ofLine? (shoutedLine.take (shoutedLine.length - 3) ++ "macro.m") =
        some ⟨"macro.m", [], []⟩ := by
  obtain ⟨settles, tokenizes⟩ := complete_settles Session.watchCommands
  have suggested : shoutingSession.suggestions Session.watchCommands.registry "O.M" =
      ["macro.m"] := by decide +kernel
  have single : (Session.take Session.watchCommands shoutingSession (.complete none)).1 =
      .texts ["macro.m"] := by
    rw [Session.take_complete]
    exact congrArg Reply.texts suggested
  have words : ∀ name ∈ Interpreter.candidates Session.watchCommands.registry
      shoutingSession.user shoutingSession.macros.book, name.IsWord := by decide
  have offered : (⟨"macro.m", 3⟩ : Completion) ∈
      offers (Interpreter.suggestions Session.watchCommands.registry shoutingSession.user
        shoutingSession.macros.book) (shoutedLine.take shoutedLine.length) := by
    decide +kernel
  refine ⟨single, settles shoutingSession none "macro.m" single, words, offered, ?_⟩
  exact (tokenizes _ _ words shoutedLine shoutedLine.length _ offered).2 le_rfl

end Completion

end GatedConsole
