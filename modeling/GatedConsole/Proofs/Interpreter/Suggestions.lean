import GatedConsole.Interpreter.Suggestion
import GatedConsole.Proofs.Text.Lowercase

/-!
What is suggested for a fragment. Main statement: a candidate that holds the fragment is suggested,
or all the suggestions there may be stand before it; only a capital sigma of the fragment can hide
a candidate, when it ends a word in the one and not in the other.
-/

set_option autoImplicit false
set_option relaxedAutoImplicit false

namespace GatedConsole

namespace Interpreter

/-! ## First occurrences -/

section

variable {α : Type} [BEq α] [LawfulBEq α]

omit [LawfulBEq α] in
/-- What a list has if the rest of it without its first element has it, all lists have. -/
theorem induction_without_first {motive : List α → Prop} (nil : motive [])
    (cons : ∀ a l, motive (l.filter (!· == a)) → motive (a :: l)) (l : List α) : motive l := by
  induction size : l.length using Nat.strongRecOn generalizing l with
  | _ n ih =>
    cases l with
    | nil => exact nil
    | cons a l =>
      have shorter : (l.filter (!· == a)).length < n :=
        size ▸ Nat.lt_succ_of_le (List.length_filter_le _ l)
      exact cons a l (ih _ shorter _ rfl)

theorem nodup_eraseDups (l : List α) : l.eraseDups.Nodup := by
  induction l using induction_without_first with
  | nil => exact List.nodup_nil
  | cons a l ih =>
    rw [List.eraseDups_cons, List.nodup_cons, List.mem_eraseDups]
    exact ⟨by simp, ih⟩

omit [LawfulBEq α] in
theorem eraseDups_sublist (l : List α) : l.eraseDups.Sublist l := by
  induction l using induction_without_first with
  | nil => exact List.Sublist.slnil
  | cons a l ih =>
    rw [List.eraseDups_cons]
    exact (ih.trans List.filter_sublist).cons_cons a

/-- An element that is kept is kept at its first place, so that it makes no difference whether
repetitions go before or after. -/
theorem eraseDups_filter (keep : α → Bool) (l : List α) :
    (l.filter keep).eraseDups = l.eraseDups.filter keep := by
  induction l using induction_without_first with
  | nil => rfl
  | cons a l ih =>
    have either_way : (l.filter keep).filter (!· == a) = (l.filter (!· == a)).filter keep := by
      simp only [List.filter_filter, Bool.and_comm]
    rw [List.eraseDups_cons, List.filter_cons, List.filter_cons, ← ih, ← either_way]
    by_cases kept : keep a = true
    · rw [if_pos kept, if_pos kept, List.eraseDups_cons]
    · have absent : a ∉ l.filter keep := by
        intro mem
        exact kept (List.mem_filter.1 mem).2
      have nothing_goes : (l.filter keep).filter (!· == a) = l.filter keep := by
        apply List.filter_eq_self.2
        intro b mem
        have other : b ≠ a := ne_of_mem_of_not_mem mem absent
        simpa using other
      rw [if_neg kept, if_neg kept, nothing_goes]

/-- Of the first occurrences, an element is among the first `n`, or there are `n` of them before
it. -/
theorem mem_take_eraseDups {l : List α} {a : α} (mem : a ∈ l) (n : Nat) :
    a ∈ l.eraseDups.take n ∨ (l.eraseDups.take n).length = n ∧
      ∀ b ∈ l.eraseDups.take n, b ∈ l.takeWhile (· != a) := by
  obtain ⟨front, back, rfl, absent⟩ := List.eq_append_cons_of_mem mem
  have first : (front ++ a :: back).eraseDups =
      front.eraseDups ++ a :: ((back.removeAll front).filter (!· == a)).eraseDups := by
    have new : (a :: back).removeAll front = a :: back.removeAll front := by
      simp [List.removeAll, absent]
    rw [List.eraseDups_append, new, List.eraseDups_cons]
  have others : ∀ b ∈ front, (b != a) = true := by
    intro b among
    exact bne_iff_ne.2 (ne_of_mem_of_not_mem among absent)
  have before : front <+: (front ++ a :: back).takeWhile (· != a) := by
    rw [List.takeWhile_append_of_pos others]
    exact List.prefix_append _ _
  rw [first, List.take_append]
  rcases Nat.lt_or_ge front.eraseDups.length n with more | enough
  · obtain ⟨k, rest⟩ := Nat.exists_eq_add_of_lt more
    left
    rw [List.mem_append]
    right
    rw [show n - front.eraseDups.length = k + 1 by omega, List.take_succ_cons]
    exact List.mem_cons_self
  · right
    rw [Nat.sub_eq_zero_of_le enough, List.take_zero, List.append_nil]
    refine ⟨List.length_take_of_le enough, fun b among => ?_⟩
    exact before.subset (List.mem_eraseDups.1 (List.mem_of_mem_take among))

end

/-! ## Suggestions -/

/-- What is collected is what matches and has not been seen, without repetitions, as far as there is
room. -/
theorem collect_eq (isMatch : Text → Bool) (room : Nat) (seen names : List Text) :
    collect isMatch room seen names =
      ((names.filter fun name => isMatch name && !seen.contains name).eraseDups).take room := by
  induction names generalizing room seen with
  | nil => cases room <;> rfl
  | cons name names ih =>
    cases room with
    | zero => rfl
    | succ room =>
      have fits : (isMatch name && !seen.contains name) =
          !(seen.contains name || !isMatch name) := by
        rw [Bool.not_or, Bool.not_not, Bool.and_comm]
      rw [collect, List.filter_cons, fits]
      split
      · rename_i passed
        rw [ih, passed]
        rfl
      · rename_i taken
        rw [ih, if_pos (by simpa using taken), List.eraseDups_cons, List.take_succ_cons,
          List.filter_filter]
        congr 4
        funext other
        rw [List.contains_cons, Bool.not_or, Bool.and_left_comm]

theorem suggestions_eq_take (registry : Registry) (user : User) (book : MacroBook)
    (fragment : Text) :
    suggestions registry user book fragment =
      (((candidates registry user book).filter
        (·.lower.contains fragment.lower)).eraseDups).take suggestionBound := by
  rw [suggestions, collect_eq]
  simp only [List.contains_nil, Bool.not_false, Bool.and_true]

theorem nodup_suggestions (registry : Registry) (user : User) (book : MacroBook)
    (fragment : Text) : (suggestions registry user book fragment).Nodup := by
  rw [suggestions_eq_take]
  exact (nodup_eraseDups _).sublist (List.take_sublist _ _)

/-- A candidate that matches is suggested or comes too late. -/
theorem mem_suggestions_of_match {registry : Registry} {user : User} {book : MacroBook}
    {fragment t : Text} (offered : t ∈ candidates registry user book)
    (matching : t.lower.contains fragment.lower = true) :
    t ∈ suggestions registry user book fragment ∨
      (suggestions registry user book fragment).length = suggestionBound ∧
        ∀ other ∈ suggestions registry user book fragment,
          other ∈ (candidates registry user book).takeWhile (· != t) := by
  have among : t ∈ (candidates registry user book).filter (·.lower.contains fragment.lower) :=
    List.mem_filter.2 ⟨offered, matching⟩
  rw [suggestions_eq_take]
  refine (mem_take_eraseDups among suggestionBound).imp_right fun ⟨full, earlier⟩ =>
    ⟨full, fun other suggested => ?_⟩
  have until_t : (fun name : Text => !name.lower.contains fragment.lower || name != t) =
      (· != t) := by
    funext name
    by_cases same : name = t
    · rw [same, matching, Bool.not_true, Bool.false_or]
    · rw [bne_iff_ne.2 same, Bool.or_true]
  have passed := earlier other suggested
  rw [List.takeWhile_filter, until_t] at passed
  exact List.mem_of_mem_filter passed

/-- Whoever may type the text that a fragment is a piece of is offered that text for the fragment,
or as many texts before it as there may be, none of them twice; provided that each capital sigma of
the fragment ends a word in the text exactly if it does in the fragment. -/
theorem mem_suggestions_of_sameSigmas (registry : Registry) (user : User) (book : MacroBook)
    {front fragment back : Text}
    (offered : front ++ fragment ++ back ∈ candidates registry user book)
    (same : Text.SameSigmas front fragment back) :
    front ++ fragment ++ back ∈ suggestions registry user book fragment ∨
      (suggestions registry user book fragment).length = suggestionBound ∧
        (suggestions registry user book fragment).Nodup ∧
        ∀ other ∈ suggestions registry user book fragment,
          other ∈ (candidates registry user book).takeWhile (· != front ++ fragment ++ back) := by
  have matching := Text.contains_lower_of_sameSigmas same
  refine (mem_suggestions_of_match offered matching).imp_right fun ⟨full, earlier⟩ => ?_
  exact ⟨full, nodup_suggestions registry user book fragment, earlier⟩

def sigmaRegistry : Registry := ⟨[], List.nodup_nil⟩

def sigmaUser : User := { username := "eve" }

/-- A book with one macro, whose name has a sigma after each of the first two letters alpha. -/
def sigmaBook : MacroBook := MacroBook.empty.define "ΑΣΑΣΑ" ["history"] (by decide)

/-- Up to an alpha, the fragment keeps the macro that it begins. Up to the sigma before it, where
its lower case ends in the form of the end of a word, it loses the macro. -/
theorem mem_suggestions_of_sameSigmas_sigmaBook :
    (Text.ofString "macro.ΑΣΑΣΑ" ∈ candidates sigmaRegistry sigmaUser sigmaBook ∧
        Text.SameSigmas "" "macro.ΑΣΑ" "ΣΑ" ∧
        Text.ofString "macro.ΑΣΑΣΑ" ∈ suggestions sigmaRegistry sigmaUser sigmaBook "macro.ΑΣΑ") ∧
      suggestions sigmaRegistry sigmaUser sigmaBook "macro.ΑΣ" = [] := by
  have offered : Text.ofString "macro.ΑΣΑΣΑ" ∈ candidates sigmaRegistry sigmaUser sigmaBook := by
    decide
  have same : Text.SameSigmas "" "macro.ΑΣΑ" "ΣΑ" := by decide +kernel
  refine ⟨⟨offered, same, ?_⟩, by decide +kernel⟩
  rcases mem_suggestions_of_sameSigmas sigmaRegistry sigmaUser sigmaBook offered same with
    suggested | ⟨full, -⟩
  · exact suggested
  · exact absurd full (by decide +kernel)

end Interpreter

end GatedConsole
