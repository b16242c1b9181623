import GatedConsole.Proofs.Interpreter.Answering
import GatedConsole.Proofs.Interpreter.Offers
import GatedConsole.Proofs.Invocation
import GatedConsole.Proofs.Task.Runs
import GatedConsole.Proofs.Text.Numeral

/-!
The listing of the history. Main statement: a line that asks for it is answered with the end of the
log of all lines, itself the last of them, each with its position, and as many as the last limit on
the line says; or it is refused, exactly when that limit is no numeral of a positive number.
-/

set_option autoImplicit false
set_option relaxedAutoImplicit false

namespace GatedConsole

namespace Interpreter

open Program

variable {η : Type}

/-! ## Limits -/

/-- What a word says of the limit, if it says anything of it. -/
def limitFlag? (word : Text) : Option Flag :=
  if word = "--limit" ∨ word = "--limit=" ∨ word = "-limit" then some .switch
  else (word.behind? "--limit=").map .value

theorem limitFlag?_eq_some_iff {word : Text} {flag : Flag} :
    limitFlag? word = some flag ↔ Invocation.Spelt word limitWord flag := by
  have plain : CodePoint.ofChar '=' ∉ limitWord := by decide
  have spelt {word : Text} {flag : Flag} (h : limitFlag? word = some flag) :
      Invocation.Spelt word limitWord flag := by
    unfold limitFlag? at h
    split at h
    · rename_i bare
      obtain rfl := Option.some.inj h
      rcases bare with rfl | rfl | rfl
      · exact .bare plain
      · exact .noValue plain
      · exact .short rfl
    · rename_i other
      obtain ⟨value, behind, rfl⟩ := Option.map_eq_some_iff.1 h
      rw [Text.behind?_eq_some_iff] at behind
      subst behind
      refine .value plain ?_
      rintro rfl
      exact other (.inr (.inl rfl))
  refine ⟨spelt, fun h => ?_⟩
  cases said : limitFlag? word with
  | some flag' => rw [(h.unique (spelt said)).2]
  | none =>
    unfold limitFlag? at said
    split at said
    · cases said
    · rename_i other
      cases h with
      | @value _ value =>
        have behind : Text.behind? ("--" ++ (limitWord ++ CodePoint.ofChar '=' :: value))
            "--limit=" = some value := Text.behind?_eq_some_iff.2 rfl
        rw [behind] at said
        cases said
      | noValue => exact absurd (.inr (.inl rfl)) other
      | bare => exact absurd (.inl rfl) other
      | short => exact absurd (.inr (.inr rfl)) other

/-- The last word about the limit counts. -/
theorem get?_limitWord {line command : Text} {words : List Text} {invocation : Invocation}
    (parts : line.words = command :: words) (read : Invocation.ofLine? line = some invocation) :
    Keyed.get? invocation.flags limitWord = (words.filterMap limitFlag?).getLast? := by
  have said (word : Text) : limitFlag? word =
      (Option.filter (·.1 = limitWord) (Invocation.flagOf? word)).map (·.2) := by
    ext flag
    rw [limitFlag?_eq_some_iff, ← Invocation.flagOf?_eq_some_iff]
    simp
  rw [Invocation.ofLine?, parts] at read
  obtain rfl := Option.some.inj read
  rw [Invocation.ofWords_eq, Keyed.get?_ofEntries, funext said, ← List.map_filterMap,
    ← List.filter_filterMap, List.getLast?_map]

/-- The limit that a line asks for: none is the usual one, and so is a switch. -/
inductive Limit : Option Flag → Int → Prop
  | absent : Limit none History.defaultView
  | switch : Limit (some .switch) History.defaultView
  | given {t : Text} {n : Int} (denotes : t.Denotes n) (positive : 1 ≤ n) :
      Limit (some (.value t)) n

/-- A limit that is no numeral of a positive number. -/
def BadLimit (flag : Option Flag) : Prop :=
  ∃ t, flag = some (.value t) ∧ ∀ n, t.Denotes n → n < 1

theorem historyLimit?_eq_some_iff {flags : Keyed Text Flag} {n : Int} :
    historyLimit? flags = some n ↔ Limit (Keyed.get? flags limitWord) n := by
  unfold historyLimit?
  constructor
  · intro h
    split at h
    · rename_i t found
      rw [found]
      split at h
      · rename_i read
        split at h
        · cases h
        · rename_i positive
          obtain rfl := Option.some.inj h
          exact .given (Text.integer?_eq_some_iff.1 read) (Int.not_lt.1 positive)
      · cases h
    · obtain rfl := Option.some.inj h
      rename_i other
      cases found : Keyed.get? flags limitWord with
      | none => exact .absent
      | some flag =>
        cases flag with
        | switch => exact .switch
        | value t => exact absurd found (other t)
  · intro h
    generalize Keyed.get? flags limitWord = flag at h ⊢
    cases h with
    | absent | switch => rfl
    | given denotes positive =>
      dsimp only
      rw [Text.integer?_eq_some_iff.2 denotes]
      exact if_neg (Int.not_lt.2 positive)

theorem historyLimit?_eq_none_iff {flags : Keyed Text Flag} :
    historyLimit? flags = none ↔ BadLimit (Keyed.get? flags limitWord) := by
  rw [Option.eq_none_iff_forall_ne_some]
  simp only [ne_eq, historyLimit?_eq_some_iff]
  generalize Keyed.get? flags limitWord = flag
  constructor
  · intro h
    rcases flag with _ | _ | t
    · exact absurd .absent (h _)
    · exact absurd .switch (h _)
    · exact ⟨t, rfl, fun n denotes => Int.not_le.1 fun positive => h n (.given denotes positive)⟩
  · rintro ⟨t, rfl, bad⟩ n limit
    cases limit with
    | given denotes positive => exact absurd (bad n denotes) (Int.not_lt.2 positive)

/-! ## Listings -/

/-- What asks for the history is answered when it has been recorded, and then nothing changes. -/
theorem reaches_showHistory (commands : CommandSet η) {line : Text} {invocation : Invocation}
    (read : Invocation.ofLine? line.strip = some invocation)
    (first : invocation.command = historyWord) (left : Nat) (m : Memory η) :
    (run commands left line).Reaches m
      (.done (showHistory (record line.strip m).history invocation.flags))
      (record line.strip m) := by
  have way := reaches_answer commands read left m
  have answered := answeredBy commands (stepsAt commands left) line.strip invocation
  generalize answer commands (stepsAt commands left) line.strip invocation = p at way answered
  cases answered with
  | history => exact way.trans (.look (.here _ _))
  | replay name marked => rw [first] at marked; cases marked
  | define second | clear second | macros second => rw [first] at second; cases second
  | registered other => rw [first] at other; cases other

/-- So many lines, the last of which tells of the last line of the log: each is a line of the log
behind its position and two blanks, and the position is right-aligned in four columns. -/
structure Lists (log : List Text) (count : Nat) (shown : List Text) : Prop where
  length_eq : shown.length = count
  getElem?_eq : ∀ k < count, ∃ entry, log[log.length - count + k]? = some entry ∧
    shown[k]? = some ((Text.ofNat (log.length - count + k + 1)).padLeft 4 ++ "  " ++ entry)

theorem lists_map_historyLine {log : List Text} {count : Nat} (within : count ≤ log.length) :
    Lists log count (((History.enumerate log).rtake count).map historyLine) where
  length_eq := by
    rw [List.length_map, History.length_rtake, History.length_enumerate, Nat.min_eq_left within]
  getElem?_eq k small := by
    have there : log.length - count + k < log.length := by omega
    refine ⟨_, List.getElem?_eq_getElem there, ?_⟩
    rw [List.getElem?_map, History.getElem?_rtake, History.length_enumerate,
      History.getElem?_enumerate, List.getElem?_eq_getElem there, Nat.add_comm 1]
    rfl

theorem showHistory_eq {history : History} {log : List Text} (window : history.WindowOf log)
    {flags : Keyed Text Flag} {limit : Int} (h : historyLimit? flags = some limit) :
    showHistory history flags = .ok (Text.ofString "═══ INVOCATION HISTORY ═══" ::
      ((History.enumerate log).rtake (min limit.toNat history.size)).map historyLine) := by
  rw [showHistory, h]
  dsimp only
  rw [window.recent_eq]

/-- A limit is at least one. -/
theorem Limit.one_le {flag : Option Flag} {n : Int} (h : Limit flag n) : 1 ≤ n := by
  cases h with
  | absent | switch => decide
  | given _ positive => exact positive

/-- A line whose first word asks for the history, typed or as a step of a macro, is recorded and
changes nothing else. It is refused exactly when the last limit on it is no numeral of a positive
number. Otherwise it is answered with a heading and the end of the log of all lines, each behind its
position in the log: as many lines as the limit says, if so many are retained, and itself the last
of them. -/
theorem execute_history (commands : CommandSet η) {line : Text} {words : List Text}
    (first : line.words = historyWord :: words) (m : Memory η) :
    ∃ result,
      Loop.run (execute commands line) m = (.done result, record line.strip m) ∧
      (∀ left, (run commands left line).Reaches m (.done result) (record line.strip m)) ∧
      (result = .fail "HISTORY FAULT: --limit must be a positive integer" ↔
        BadLimit (words.filterMap limitFlag?).getLast?) ∧
      (¬BadLimit (words.filterMap limitFlag?).getLast? →
        ∃ limit, Limit (words.filterMap limitFlag?).getLast? limit ∧
          ∀ log, m.history.WindowOf log → ∃ shown,
            result = .ok (Text.ofString "═══ INVOCATION HISTORY ═══" :: shown) ∧
            Lists (log ++ [line.strip])
              (min limit.toNat (record line.strip m).history.size) shown ∧
            shown.getLast? = some ((Text.ofNat (record line.strip m).history.total).padLeft 4 ++
              "  " ++ line.strip)) ∧
      (∃ log, m.history.WindowOf log) ∧
      ∀ log, m.history.WindowOf log →
        (record line.strip m).history.WindowOf (log ++ [line.strip]) := by
  have read : Invocation.ofLine? line = some (.ofWords historyWord words) := by
    rw [Invocation.ofLine?, first]
  have reaches := reaches_showHistory commands ((Invocation.ofLine?_strip line).trans read) rfl
  have said := get?_limitWord first read
  generalize (words.filterMap limitFlag?).getLast? = flag at said ⊢
  refine ⟨_, ?_, fun left => reaches left m, ?_, ?_, m.history.exists_windowOf,
    fun log window => window.append line.strip⟩
  · have alone : (execute commands line).alone false m = (.done _, false, record line.strip m) :=
      alone_underLock ((reaches depthBound m).alone_eq true) (by simp)
    rw [Loop.run_eq_of_alone _ _ (by simp [alone]), alone]
  · rw [← said, ← historyLimit?_eq_none_iff, showHistory]
    split
    · rename_i refused
      simp [refused]
    · rename_i limit granted
      simp [granted, Result.fail, Result.ok]
  · intro good
    rw [← said, ← historyLimit?_eq_none_iff] at good
    obtain ⟨limit, granted⟩ := Option.ne_none_iff_exists'.1 good
    refine ⟨limit, said ▸ historyLimit?_eq_some_iff.1 granted, fun log window => ?_⟩
    have after : (record line.strip m).history.WindowOf (log ++ [line.strip]) :=
      window.append line.strip
    have within := (record line.strip m).history.size_le_total
    rw [after.total_eq] at within
    refine ⟨_, showHistory_eq after granted, lists_map_historyLine ?_, ?_⟩
    · exact (Nat.min_le_right _ _).trans within
    · have positive := (historyLimit?_eq_some_iff.1 granted).one_le
      have last := m.history.getLast?_recent_append line.strip positive
      rw [← after.recent_eq, List.getLast?_map]
      refine (congrArg (Option.map historyLine) last).trans ?_
      rw [record, History.total_append]
      rfl

/-- A memory in which two of three lines are retained. -/
def rollingMemory : Memory Unit where
  user := { username := "eve" }
  macros := ⟨.empty, .empty, Macros.defaultKey⟩
  history := [Text.ofString "a", "b", "c"].foldl History.append
    ((History.empty 2).toOption.getD default)
  host := ()

/-- The last of three limits is three, in digits of another script, but only two lines are
retained. -/
def rollingLine : Text := " history --limit=x -limit --limit=+\u0663 "

theorem execute_history_rolling :
    rollingLine.words = historyWord :: ["--limit=x", "-limit", "--limit=+\u0663"] ∧
      rollingMemory.history.WindowOf ["a", "b", "c"] ∧
      ∃ shown, Loop.run (execute shadowCommands rollingLine) rollingMemory =
          (.done (.ok (Text.ofString "═══ INVOCATION HISTORY ═══" :: shown)),
            record rollingLine.strip rollingMemory) ∧
        shown.length = 2 ∧ shown[0]? = some (Text.ofString "   3  c") ∧
        shown[1]? = some (Text.ofString "   4  history --limit=x -limit --limit=+\u0663") := by
  have first : rollingLine.words = historyWord :: ["--limit=x", "-limit", "--limit=+\u0663"] := by
    decide +kernel
  have window : rollingMemory.history.WindowOf ["a", "b", "c"] :=
    ⟨by decide +kernel, by decide +kernel⟩
  have last : ([Text.ofString "--limit=x", "-limit", "--limit=+\u0663"].filterMap
      limitFlag?).getLast? = some (.value "+\u0663") := by decide +kernel
  obtain ⟨result, ran, -, -, listed, -⟩ := execute_history shadowCommands first rollingMemory
  rw [last] at listed
  have three : Text.Denotes "+\u0663" 3 := Text.integer?_eq_some_iff.1 (by decide +kernel)
  have good : ¬BadLimit (some (.value "+\u0663")) := by
    rintro ⟨t, same, bad⟩
    obtain rfl := Flag.value.inj (Option.some.inj same)
    exact absurd (bad 3 three) (by decide)
  obtain ⟨limit, granted, lists⟩ := listed good
  have limit_eq : limit = 3 := by
    cases granted with
    | given denotes =>
      exact Option.some.inj
        ((Text.integer?_eq_some_iff.2 denotes).symm.trans (Text.integer?_eq_some_iff.2 three))
  obtain ⟨shown, rfl, listing, -⟩ := lists _ window
  have two : min limit.toNat (record rollingLine.strip rollingMemory).history.size = 2 := by
    rw [limit_eq]; decide +kernel
  rw [two] at listing
  refine ⟨first, window, shown, ran, listing.length_eq, ?_, ?_⟩
  · obtain ⟨entry, there, at_zero⟩ := listing.getElem?_eq 0 (by decide)
    obtain rfl : Text.ofString "c" = entry := Option.some.inj there
    exact at_zero.trans (by decide +kernel)
  · obtain ⟨entry, there, at_one⟩ := listing.getElem?_eq 1 (by decide)
    obtain rfl : rollingLine.strip = entry := Option.some.inj there
    exact at_one.trans (by decide +kernel)

end Interpreter

end GatedConsole
