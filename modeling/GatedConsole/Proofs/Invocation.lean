import GatedConsole.Invocation
import GatedConsole.Proofs.Keyed
import GatedConsole.Proofs.Text.Words
import Mathlib.Data.List.Basic

/-!
Invocations and the lines that they are read from. Main statement: what was read from a line is read
again, with everything in its order, from every line that it is written as, however wide the blanks
in it are.
-/

set_option autoImplicit false
set_option relaxedAutoImplicit false

namespace GatedConsole

namespace Invocation

/-! ## Flags -/

/-- The words that are read as flags. Behind two dashes the key ends at the first equals sign, and
what stands behind that is the value; behind a single dash all of the word is the key. -/
inductive Spelt : Text → Text → Flag → Prop
  | value {key value : Text} (plain : CodePoint.ofChar '=' ∉ key) (some_value : value ≠ []) :
      Spelt ("--" ++ (key ++ CodePoint.ofChar '=' :: value)) key (.value value)
  | noValue {key : Text} (plain : CodePoint.ofChar '=' ∉ key) :
      Spelt ("--" ++ (key ++ [CodePoint.ofChar '='])) key .switch
  | bare {key : Text} (plain : CodePoint.ofChar '=' ∉ key) : Spelt ("--" ++ key) key .switch
  | short {key : Text} (single : key.behind? "-" = none) : Spelt ("-" ++ key) key .switch

theorem twoDashes_append (t : Text) :
    Text.ofString "--" ++ t = Text.ofString "-" ++ (Text.ofString "-" ++ t) := rfl

theorem behind?_twoDashes_append (t : Text) : Text.behind? ("--" ++ t) "--" = some t :=
  Text.behind?_eq_some_iff.2 rfl

theorem behind?_twoDashes_eq_none {key : Text} (single : key.behind? "-" = none) :
    Text.behind? ("-" ++ key) "--" = none := by
  cases found : Text.behind? ("-" ++ key) "--" with
  | none => rfl
  | some body =>
    rw [Text.behind?_eq_some_iff, twoDashes_append, List.append_cancel_left_eq] at found
    rw [Text.behind?_eq_some_iff.2 found] at single
    cases single

/-- A word that is spelt as a flag is read as that flag. -/
theorem Spelt.of_eq {word key : Text} {flag : Flag} (h : Spelt word key flag) :
    Word.of word = .flag key flag := by
  rw [Word.of]
  cases h with
  | @value key value plain some_value =>
    obtain ⟨c, r, rfl⟩ := List.exists_cons_of_ne_nil some_value
    rw [behind?_twoDashes_append]
    dsimp only
    rw [Text.cut_append_cons plain]
  | noValue plain =>
    rw [behind?_twoDashes_append]
    dsimp only
    rw [Text.cut_append_cons plain]
  | bare plain =>
    rw [behind?_twoDashes_append]
    dsimp only
    rw [Text.cut_of_not_mem plain]
  | short single =>
    rw [behind?_twoDashes_eq_none single]
    dsimp only
    rw [Text.behind?_eq_some_iff.2 rfl]

/-- A word is spelt as one flag only. -/
theorem Spelt.unique {word key key' : Text} {flag flag' : Flag} (h : Spelt word key flag)
    (h' : Spelt word key' flag') : key = key' ∧ flag = flag' := by
  have same := h.of_eq.symm.trans h'.of_eq
  cases same
  exact ⟨rfl, rfl⟩

/-- A word is an argument, and does not begin with a dash, or it is spelt as a flag. -/
theorem of_cases (word : Text) :
    (Word.of word = .arg word ∧ word.behind? "-" = none) ∨ ∃ key flag, Spelt word key flag := by
  cases double : word.behind? "--" with
  | some body =>
    right
    rw [Text.behind?_eq_some_iff] at double
    subst double
    by_cases marked : CodePoint.ofChar '=' ∈ body
    · obtain ⟨key, value, rfl, plain⟩ := List.eq_append_cons_of_mem marked
      cases value with
      | nil => exact ⟨key, .switch, .noValue plain⟩
      | cons c r => exact ⟨key, .value (c :: r), .value plain (List.cons_ne_nil c r)⟩
    · exact ⟨body, .switch, .bare marked⟩
  | none =>
    cases single : word.behind? "-" with
    | none =>
      left
      rw [Word.of, double]
      dsimp only
      rw [single]
      exact ⟨rfl, rfl⟩
    | some key =>
      right
      rw [Text.behind?_eq_some_iff] at single
      subst single
      refine ⟨key, .switch, .short ?_⟩
      cases inner : key.behind? "-" with
      | none => rfl
      | some body =>
        rw [Text.behind?_eq_some_iff] at inner
        rw [inner, ← twoDashes_append, behind?_twoDashes_append] at double
        cases double

/-- The flag that a word is read as, if it is one. -/
def flagOf? (word : Text) : Option (Text × Flag) := (Word.of word).flag?

theorem flagOf?_eq_some_iff {word key : Text} {flag : Flag} :
    flagOf? word = some (key, flag) ↔ Spelt word key flag := by
  constructor
  · intro read
    rcases of_cases word with ⟨arg, -⟩ | ⟨key', flag', spelt⟩
    · rw [flagOf?, arg] at read
      cases read
    · rw [flagOf?, spelt.of_eq] at read
      cases read
      exact spelt
  · intro spelt
    rw [flagOf?, spelt.of_eq]
    rfl

theorem Spelt.exists_behind? {word key : Text} {flag : Flag} (h : Spelt word key flag) :
    ∃ rest, word.behind? "-" = some rest := by
  cases h with
  | value | noValue | bare => exact ⟨_, Text.behind?_eq_some_iff.2 (twoDashes_append _)⟩
  | short => exact ⟨_, Text.behind?_eq_some_iff.2 rfl⟩

/-- The words that do not begin with a dash are the arguments. -/
theorem arg?_of (word : Text) :
    (Word.of word).arg? = if word.behind? "-" = none then some word else none := by
  rcases of_cases word with ⟨arg, dashless⟩ | ⟨key, flag, spelt⟩
  · rw [arg, if_pos dashless]
    rfl
  · obtain ⟨rest, dash⟩ := spelt.exists_behind?
    rw [spelt.of_eq, dash]
    rfl

theorem flagOf?_of_behind? {word : Text} (dashless : word.behind? "-" = none) :
    flagOf? word = none := by
  rcases of_cases word with ⟨arg, -⟩ | ⟨key, flag, spelt⟩
  · rw [flagOf?, arg]
    rfl
  · obtain ⟨rest, dash⟩ := spelt.exists_behind?
    rw [dashless] at dash
    cases dash

theorem ofWords_eq (command : Text) (words : List Text) :
    ofWords command words =
      ⟨command, words.filter (·.behind? "-" = none),
        Keyed.ofEntries (words.filterMap flagOf?)⟩ := by
  have args : (words.map Word.of).filterMap Word.arg? =
      words.filter (·.behind? "-" = none) := by
    rw [List.filterMap_map, ← List.filterMap_eq_filter]
    refine List.filterMap_congr fun word _ => ?_
    rw [Function.comp_apply, arg?_of, Option.guard]
    simp
  have flags : (words.map Word.of).filterMap Word.flag? = words.filterMap flagOf? :=
    List.filterMap_map
  rw [ofWords, args, flags]

/-! ## Writing -/

/-- How a flag is written. One dash is for keys that would end at an equals sign behind two. -/
def flagWord (entry : Text × Flag) : Text :=
  match entry.2 with
  | .value value => "--" ++ (entry.1 ++ CodePoint.ofChar '=' :: value)
  | .switch => if CodePoint.ofChar '=' ∈ entry.1 then "-" ++ entry.1 else "--" ++ entry.1

/-- The command, the arguments and the flags, each as a word. -/
def toWords (invocation : Invocation) : List Text :=
  invocation.command :: invocation.args ++ invocation.flags.map flagWord

/-- Read and written again, a flag is the same flag. -/
theorem Spelt.flagWord {word key : Text} {flag : Flag} (h : Spelt word key flag) :
    Spelt (flagWord (key, flag)) key flag := by
  cases h with
  | value plain some_value => exact .value plain some_value
  | noValue plain | bare plain =>
    rw [Invocation.flagWord]
    exact (if_neg plain).symm ▸ .bare plain
  | short single =>
    rw [Invocation.flagWord]
    dsimp only
    split
    · exact .short single
    · rename_i plain
      exact .bare plain

theorem Spelt.isWord_flagWord {word key : Text} {flag : Flag} (h : Spelt word key flag)
    (its_word : word.IsWord) : (Invocation.flagWord (key, flag)).IsWord := by
  have within : ∀ c ∈ Invocation.flagWord (key, flag), c ∈ word := by
    cases h with
    | value => exact fun _ mem => mem
    | noValue plain =>
      rw [Invocation.flagWord]
      dsimp only
      rw [if_neg plain, ← List.append_assoc]
      exact fun _ mem => List.mem_append_left _ mem
    | bare plain =>
      rw [Invocation.flagWord]
      dsimp only
      rw [if_neg plain]
      exact fun _ mem => mem
    | short =>
      rw [Invocation.flagWord]
      dsimp only
      split
      · exact fun _ mem => mem
      · rw [twoDashes_append]
        simp +contextual
  refine ⟨fun none => ?_, fun c mem => its_word.2 c (within c mem)⟩
  obtain ⟨rest, dash⟩ := h.flagWord.exists_behind?
  rw [none] at dash
  cases dash

/-- What lines are read as: the command and the arguments are words, the flags are spelt in words,
and no key comes twice. -/
structure Fits (invocation : Invocation) : Prop where
  command : invocation.command.IsWord
  args : ∀ arg ∈ invocation.args, arg.IsWord ∧ arg.behind? "-" = none
  flags : ∀ entry ∈ invocation.flags, ∃ word : Text, word.IsWord ∧ Spelt word entry.1 entry.2
  distinct : (Keyed.keys invocation.flags).Nodup

theorem fits_of_ofLine? {line : Text} {invocation : Invocation}
    (read : ofLine? line = some invocation) : invocation.Fits := by
  unfold ofLine? at read
  split at read
  · cases read
  · rename_i command words parts
    have all : ∀ word ∈ command :: words, word.IsWord := by
      rw [← parts]
      exact fun word => Text.isWord_of_mem_words
    obtain rfl := Option.some.inj read
    rw [ofWords_eq]
    refine ⟨all command List.mem_cons_self, fun arg mem => ?_, fun entry mem => ?_,
      Keyed.nodup_keys_ofEntries _⟩
    · obtain ⟨mem, dashless⟩ := List.mem_filter.1 mem
      exact ⟨all arg (List.mem_cons_of_mem _ mem), of_decide_eq_true dashless⟩
    · obtain ⟨word, mem, its⟩ := List.mem_filterMap.1 (Keyed.mem_of_mem_ofEntries mem)
      exact ⟨word, all word (List.mem_cons_of_mem _ mem), flagOf?_eq_some_iff.1 its⟩

namespace Fits

variable {invocation : Invocation}

theorem isWord_of_mem_toWords (fits : invocation.Fits) {word : Text}
    (mem : word ∈ invocation.toWords) : word.IsWord := by
  rw [toWords, List.mem_append, List.mem_cons] at mem
  rcases mem with (rfl | mem) | mem
  · exact fits.command
  · exact (fits.args word mem).1
  · obtain ⟨entry, among, rfl⟩ := List.mem_map.1 mem
    obtain ⟨word, its_word, spelt⟩ := fits.flags entry among
    exact spelt.isWord_flagWord its_word

theorem ofWords_toWords (fits : invocation.Fits) :
    ofWords invocation.command (invocation.args ++ invocation.flags.map flagWord) = invocation := by
  have spelt (entry : Text × Flag) (mem : entry ∈ invocation.flags) :
      Spelt (flagWord entry) entry.1 entry.2 := by
    obtain ⟨_, -, spelt⟩ := fits.flags entry mem
    exact spelt.flagWord
  have args : (invocation.args ++ invocation.flags.map flagWord).filter (·.behind? "-" = none) =
      invocation.args := by
    have all : invocation.args.filter (·.behind? "-" = none) = invocation.args :=
      List.filter_eq_self.2 fun arg mem => decide_eq_true (fits.args arg mem).2
    have none : (invocation.flags.map flagWord).filter (·.behind? "-" = none) = [] := by
      rw [List.filter_eq_nil_iff]
      intro word mem
      obtain ⟨entry, among, rfl⟩ := List.mem_map.1 mem
      obtain ⟨rest, dash⟩ := (spelt entry among).exists_behind?
      simp [dash]
    rw [List.filter_append, all, none, List.append_nil]
  have flags : (invocation.args ++ invocation.flags.map flagWord).filterMap flagOf? =
      invocation.flags := by
    have none : invocation.args.filterMap flagOf? = [] :=
      List.filterMap_eq_nil_iff.2 fun arg mem => flagOf?_of_behind? (fits.args arg mem).2
    have all : (invocation.flags.map flagWord).filterMap flagOf? = invocation.flags := by
      rw [List.filterMap_map]
      refine (List.filterMap_congr fun entry mem => ?_).trans List.filterMap_some
      exact flagOf?_eq_some_iff.2 (spelt entry mem)
    rw [List.filterMap_append, none, all, List.nil_append]
  rw [ofWords_eq, args, flags, Keyed.ofEntries_of_nodup fits.distinct]

/-- However wide the blanks are between the words that it is written as, it is read again. -/
theorem ofLine?_of_spaced (fits : invocation.Fits) {t : Text}
    (spaced : Text.Spaced invocation.toWords t) : ofLine? t = some invocation := by
  have words : t.words = invocation.toWords :=
    Text.words_eq_iff_spaced.2 ⟨spaced, fun _ => fits.isWord_of_mem_toWords⟩
  rw [ofLine?, words]
  exact congrArg some fits.ofWords_toWords

end Fits

theorem ofLine?_strip (line : Text) : ofLine? line.strip = ofLine? line := by
  rw [ofLine?, ofLine?, Text.words_strip]

/-- A line is no invocation exactly when it is blank, and the blanks at its ends do not matter.
What it is read as is read again from every line that it is written as. The arguments are the words
behind the first that do not begin with a dash, in their order; every other one is spelt as a flag,
each key has the value that it came with last, and the keys stand in the order in which they first
came. -/
theorem ofLine?_of_spaced_toWords (line : Text) :
    (ofLine? line = none ↔ line.strip = []) ∧ ofLine? line.strip = ofLine? line ∧
      (∀ word key flag, flagOf? word = some (key, flag) ↔ Spelt word key flag) ∧
      ∀ invocation, ofLine? line = some invocation →
        (∀ t, Text.Spaced invocation.toWords t → ofLine? t = some invocation) ∧
        ∃ words, line.words = invocation.command :: words ∧
          invocation.args = words.filter (fun word => ¬(Text.ofString "-" <+: word)) ∧
          Keyed.keys invocation.flags = ((words.filterMap flagOf?).map (·.1)).eraseDups ∧
          ∀ key, Keyed.get? invocation.flags key =
            ((words.filterMap flagOf?).filter (·.1 = key)).getLast?.map (·.2) := by
  refine ⟨ofLine?_eq_none_iff line, ofLine?_strip line, fun _ _ _ => flagOf?_eq_some_iff, ?_⟩
  intro invocation read
  refine ⟨fun t => (fits_of_ofLine? read).ofLine?_of_spaced, ?_⟩
  unfold ofLine? at read
  split at read
  · cases read
  · rename_i command words parts
    obtain rfl := Option.some.inj read
    rw [ofWords_eq]
    refine ⟨words, parts, ?_, Keyed.keys_ofEntries _, Keyed.get?_ofEntries _⟩
    refine List.filter_congr fun word _ => decide_eq_decide.2 ?_
    rw [Text.behind?_eq_none_iff]

/-- A line with all kinds of flags, some of them twice. -/
def cornerLine : Text := "run -k=v a --x=1=2 --x - -b b ---y= --= --x=3"

def cornerInvocation : Invocation where
  command := "run"
  args := ["a", "b"]
  flags := [("k=v", .switch), ("x", .value "3"), ("", .switch), ("b", .switch), ("-y", .switch)]

/-- Written with other blanks, in another order and with other dashes, the line is the same
invocation. -/
theorem ofLine?_of_spaced_toWords_corners :
    ofLine? cornerLine = some cornerInvocation ∧
      Text.Spaced cornerInvocation.toWords "\trun  a b\u3000-k=v --x=3 -- --b ---y\n" ∧
      ofLine? "\trun  a b\u3000-k=v --x=3 -- --b ---y\n" = some cornerInvocation := by
  have read : ofLine? cornerLine = some cornerInvocation := by decide
  have spaced : Text.Spaced cornerInvocation.toWords "\trun  a b\u3000-k=v --x=3 -- --b ---y\n" :=
    (Text.words_eq_iff_spaced.1 (by decide)).1
  obtain ⟨-, -, -, again⟩ := ofLine?_of_spaced_toWords cornerLine
  exact ⟨read, spaced, (again cornerInvocation read).1 _ spaced⟩

end Invocation

end GatedConsole
