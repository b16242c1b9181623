import GatedConsole.Proofs.Interpreter.Suggestions

/-!
The loop of the suggestions against its specification, and what a longer fragment does to them. Main
statement: the suggestions are the first matches among the candidates, each at its first place; and
a fragment whose lower case holds that of another one is offered some of what that one is, in the
same order, as long as nothing was left out there.
-/

set_option autoImplicit false
set_option relaxedAutoImplicit false

namespace GatedConsole

namespace Interpreter

/-! ## Matches -/

/-- Each name whose lower case contains that of the fragment, at its first place. -/
def matchesOf (names : List Text) (fragment : Text) : List Text :=
  (names.filter fun name => fragment.lower <:+: name.lower).eraseDups

variable {names : List Text} {fragment wider : Text}

theorem mem_matchesOf {name : Text} :
    name ∈ matchesOf names fragment ↔ name ∈ names ∧ fragment.lower <:+: name.lower := by
  rw [matchesOf, List.mem_eraseDups, List.mem_filter, decide_eq_true_eq]

theorem matchesOf_sublist (names : List Text) (fragment : Text) :
    (matchesOf names fragment).Sublist names :=
  (eraseDups_sublist _).trans List.filter_sublist

/-- What matches a longer fragment is what matches it among the matches of a shorter one. -/
theorem matchesOf_of_narrower (within : wider.lower <:+: fragment.lower) :
    matchesOf names fragment =
      (matchesOf names wider).filter fun name => fragment.lower <:+: name.lower := by
  rw [matchesOf, matchesOf, ← eraseDups_filter, List.filter_filter]
  congr 2
  funext name
  by_cases matching : fragment.lower <:+: name.lower
  · have also : wider.lower <:+: name.lower := within.trans matching
    simp [matching, also]
  · simp [matching]

section

variable (registry : Registry) (user : User) (book : MacroBook)

theorem suggestions_eq_take_matchesOf (fragment : Text) :
    suggestions registry user book fragment =
      (matchesOf (candidates registry user book) fragment).take 5 := by
  have same_test : (fun name : Text => name.lower.contains fragment.lower) =
      fun name => decide (fragment.lower <:+: name.lower) := by
    funext name
    rw [Bool.eq_iff_iff, Text.contains_iff_isInfix, decide_eq_true_eq]
  rw [suggestions_eq_take, same_test]
  rfl

/-- Where there is room for more suggestions, every match is one. -/
theorem suggestions_eq_matchesOf
    (room : (suggestions registry user book fragment).length < 5) :
    suggestions registry user book fragment =
      matchesOf (candidates registry user book) fragment := by
  rw [suggestions_eq_take_matchesOf, List.length_take] at room
  rw [suggestions_eq_take_matchesOf]
  apply List.take_of_length_le
  omega

theorem suggestions_of_narrower (within : wider.lower <:+: fragment.lower)
    (room : (suggestions registry user book wider).length < 5) :
    suggestions registry user book fragment =
      (suggestions registry user book wider).filter
        fun name => fragment.lower <:+: name.lower := by
  have few : ((suggestions registry user book wider).filter
      fun name => fragment.lower <:+: name.lower).length ≤ 5 := by
    have fewer := List.length_filter_le (fun name : Text => decide (fragment.lower <:+: name.lower))
      (suggestions registry user book wider)
    omega
  rw [suggestions_eq_matchesOf registry user book room] at few ⊢
  rw [suggestions_eq_take_matchesOf, matchesOf_of_narrower within]
  exact List.take_of_length_le few

/-- The names of what the user may run in the order of the registry, the built-in commands and the
macros in the order of definition are gone through; the suggestions are the first five of those that
match, each at its first place. None comes twice, and with fewer than five none is missing. A
fragment that holds another one narrows such a list, to those of its elements that match it. -/
theorem first_matches_suggestions :
    candidates registry user book =
        (registry.commands.filter fun d => user.access.permits d.access).flatMap
            (fun d => d.name :: d.aliases) ++
          (["history", "clear", "macros"] : List Text) ++
          book.names.map (Text.ofString "macro." ++ ·) ∧
      ∀ fragment : Text,
        suggestions registry user book fragment =
            (((candidates registry user book).filter
              fun name => fragment.lower <:+: name.lower).eraseDups).take 5 ∧
          (suggestions registry user book fragment).Nodup ∧
          (suggestions registry user book fragment).Sublist (candidates registry user book) ∧
          ((suggestions registry user book fragment).length < 5 →
            ∀ name ∈ candidates registry user book, fragment.lower <:+: name.lower →
              name ∈ suggestions registry user book fragment) ∧
          ∀ wider : Text, wider.lower <:+: fragment.lower →
            (suggestions registry user book wider).length < 5 →
              (suggestions registry user book fragment).Sublist
                  (suggestions registry user book wider) ∧
                suggestions registry user book fragment =
                  (suggestions registry user book wider).filter
                    fun name => fragment.lower <:+: name.lower := by
  refine ⟨rfl, fun fragment => ⟨?_, nodup_suggestions registry user book fragment, ?_, ?_, ?_⟩⟩
  · exact suggestions_eq_take_matchesOf registry user book fragment
  · rw [suggestions_eq_take_matchesOf]
    exact (List.take_sublist 5 _).trans (matchesOf_sublist _ fragment)
  · intro room name offered matching
    rw [suggestions_eq_matchesOf registry user book room]
    exact mem_matchesOf.2 ⟨offered, matching⟩
  · intro wider within room
    have narrowed := suggestions_of_narrower registry user book within room
    refine ⟨?_, narrowed⟩
    rw [narrowed]
    exact List.filter_sublist

end

/-- Two names of this registry are offered again, as a built-in command and as a macro. -/
def echoRegistry : Registry :=
  ⟨[{ name := "look", aliases := ["macros"] }, { name := "seal", access := .root },
    { name := "MACRO.loop", aliases := ["macro.look"] }], by decide⟩

def echoBook : MacroBook :=
  (MacroBook.empty.define "look" ["seal", "macros"] (by decide)).define "loop"
    ["look", "macros"] (by decide)

theorem first_matches_suggestions_echo :
    (Text.ofString "mac").lower <:+: (Text.ofString "Macro.l").lower ∧
      suggestions echoRegistry sigmaUser echoBook "mac" =
        ["macros", "MACRO.loop", "macro.look", "macro.loop"] ∧
      suggestions echoRegistry sigmaUser echoBook "Macro.l" =
        ["MACRO.loop", "macro.look", "macro.loop"] ∧
      (suggestions echoRegistry sigmaUser echoBook "Macro.l").Sublist
        (suggestions echoRegistry sigmaUser echoBook "mac") ∧
      suggestions echoRegistry sigmaUser echoBook "" =
        ["look", "macros", "MACRO.loop", "macro.look", "history"] := by
  have within : (Text.ofString "mac").lower <:+: (Text.ofString "Macro.l").lower := by decide
  have four : suggestions echoRegistry sigmaUser echoBook "mac" =
      ["macros", "MACRO.loop", "macro.look", "macro.loop"] := by decide +kernel
  have three : suggestions echoRegistry sigmaUser echoBook "Macro.l" =
      ["MACRO.loop", "macro.look", "macro.loop"] := by decide +kernel
  have room : (suggestions echoRegistry sigmaUser echoBook "mac").length < 5 := by
    rw [four]
    decide
  have narrowed := ((first_matches_suggestions echoRegistry sigmaUser echoBook).2 "Macro.l").2.2.2.2
    "mac" within room
  exact ⟨within, four, three, narrowed.1, by decide +kernel⟩

end Interpreter

end GatedConsole
