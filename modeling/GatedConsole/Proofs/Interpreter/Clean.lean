import GatedConsole.Proofs.Interpreter.Answering
import GatedConsole.Proofs.Interpreter.Offers
import GatedConsole.Proofs.Macro.Format
import GatedConsole.Proofs.Macro.Keeping
import GatedConsole.Proofs.Task.Runs
import GatedConsole.Proofs.Text.Clean

/-!
Memories in which no text has a control sequence. Main statement: from such a memory a clean line is
answered by clean texts, at every depth of macros and whatever comes between, unless it is its own
first word that asks for the terminal to be emptied; and such a memory is left.
-/

set_option autoImplicit false
set_option relaxedAutoImplicit false

namespace GatedConsole

variable {η : Type}

/-! ## Clean things -/

def Flag.Clean : Flag → Prop
  | .switch => True
  | .value t => t.Clean

structure Invocation.Clean (invocation : Invocation) : Prop where
  command : invocation.command.Clean
  args : ∀ arg ∈ invocation.args, arg.Clean
  flags : ∀ entry ∈ invocation.flags, entry.1.Clean ∧ entry.2.Clean

/-- No text of a result has a control sequence. -/
structure Result.Clean (result : Result) : Prop where
  output : ∀ line ∈ result.output, line.Clean
  error : ∀ error, result.error = some error → error.Clean

def Outcome.Clean : Outcome → Prop
  | .result r => r.Clean
  | .noResult => True
  | .fault message => message.Clean

def Registry.Clean (registry : Registry) : Prop :=
  ∀ t ∈ identifiersOf registry.commands, t.Clean

instance (registry : Registry) : Decidable registry.Clean :=
  inferInstanceAs (Decidable (∀ t ∈ _, Text.Clean t))

def MacroBook.Clean (book : MacroBook) : Prop :=
  ∀ entry ∈ book.entries, entry.1.Clean ∧ ∀ step ∈ entry.2, step.Clean

instance (book : MacroBook) : Decidable book.Clean :=
  inferInstanceAs (Decidable (∀ entry ∈ book.entries, entry.1.Clean ∧ ∀ step ∈ entry.2, step.Clean))

/-- The texts that an interpreter remembers have no control sequence, and what stands around it has
a property that it has no part in. -/
structure Memory.Clean (H : η → Prop) (m : Memory η) : Prop where
  user : m.user.username.Clean
  book : m.macros.book.Clean
  history : ∀ line ∈ m.history.entries, line.Clean
  host : H m.host

/-- The identifiers have no control sequence. A body that is called with clean words by a clean user
comes back with clean texts, and leaves the memory clean, if everything that comes between its
moves does. -/
structure CommandSet.Clean (H : η → Prop) (commands : CommandSet η) : Prop where
  registry : commands.registry.Clean
  bodies : ∀ d invocation user m, invocation.Clean → user.username.Clean → Memory.Clean H m →
    (commands.body d invocation user).Ensures (Memory.Clean H)
      (fun outcome t => Memory.Clean H t ∧ outcome.Clean) m

/-! ## Results -/

theorem Result.clean_ok {lines : List Text} (each : ∀ line ∈ lines, line.Clean) :
    (Result.ok lines).Clean :=
  ⟨each, nofun⟩

theorem Result.clean_fail {error : Text} (h : error.Clean) : (Result.fail error).Clean :=
  ⟨nofun, fun _ same => Option.some.inj same ▸ h⟩

theorem Outcome.Clean.toResult {outcome : Outcome} (h : outcome.Clean) :
    outcome.toResult.Clean := by
  cases outcome with
  | result r => exact h
  | noResult => exact Result.clean_fail (by decide)
  | fault message =>
    refine Result.clean_fail (Text.clean_append.2 ⟨by decide, ?_⟩)
    split
    · decide
    · exact h

theorem MacroBook.Clean.of_get? {book : MacroBook} (h : book.Clean) {name : Text}
    {steps : List Text} (stored : book.get? name = some steps) :
    name.Clean ∧ ∀ step ∈ steps, step.Clean :=
  h _ (mem_entries_of_get? stored)

/-! ## Invocations -/

namespace Invocation

def Word.Clean : Word → Prop
  | .arg t => t.Clean
  | .flag key value => key.Clean ∧ value.Clean

theorem clean_word {word : Text} (h : word.Clean) : (Word.of word).Clean := by
  unfold Word.of
  split
  · rename_i body its
    obtain ⟨key, value⟩ := (h.behind? its).cut '='
    split
    · rename_i parts
      rw [parts] at key value
      exact ⟨key, value _ rfl⟩
    · rename_i parts
      rw [parts] at key
      exact ⟨key, trivial⟩
  · split
    · rename_i key its
      exact ⟨h.behind? its, trivial⟩
    · exact h

/-- A clean line is a clean invocation. -/
theorem clean_of_ofLine? {line : Text} {invocation : Invocation} (h : line.Clean)
    (parsed : ofLine? line = some invocation) : invocation.Clean := by
  unfold ofLine? at parsed
  split at parsed
  · cases parsed
  · rename_i command words parts
    obtain rfl := Option.some.inj parsed
    have each : ∀ word ∈ words, (Word.of word).Clean := fun word mem =>
      clean_word (h.of_mem_words (parts ▸ List.mem_cons_of_mem _ mem))
    refine ⟨h.of_mem_words (parts ▸ List.mem_cons_self), fun arg mem => ?_, fun entry mem => ?_⟩
    · obtain ⟨_, among, its⟩ := List.mem_filterMap.1 mem
      obtain ⟨word, mem, rfl⟩ := List.mem_map.1 among
      have clean := each word mem
      cases kind : Word.of word with
      | arg t =>
        rw [kind] at clean its
        exact Option.some.inj its ▸ clean
      | flag => rw [kind] at its; cases its
    · obtain ⟨_, among, its⟩ := List.mem_filterMap.1 (Keyed.mem_of_mem_ofEntries mem)
      obtain ⟨word, mem, rfl⟩ := List.mem_map.1 among
      have clean := each word mem
      cases kind : Word.of word with
      | arg => rw [kind] at its; cases its
      | flag key flag =>
        rw [kind] at clean its
        exact Option.some.inj its ▸ clean

end Invocation

/-! ## What the interpreter says -/

namespace Interpreter

open Program

variable {H : η → Prop} {commands : CommandSet η}

/-- What may answer a line: the sequence that empties the terminal, if the first word of the line
asks for that, and clean texts otherwise. -/
def Heeds (line : Text) (result : Result) : Prop :=
  if line.words.head? = some clearWord then result = .ok [clearSequence] else result.Clean

/-! ### Refusals and listings -/

theorem clean_of_mem_candidates {registry : Registry} (registered : registry.Clean) {user : User}
    {book : MacroBook} (named : book.Clean) {t : Text} (mem : t ∈ candidates registry user book) :
    t.Clean := by
  obtain ⟨d, known, its, -⟩ | builtin | ⟨name, steps, rfl, stored⟩ :=
    (mem_candidates_iff registry user book t).1 mem
  · exact registered t (List.mem_flatMap.2 ⟨d, known, (d.isNamed_iff t).1 its⟩)
  · have all : ∀ word ∈ builtinWords, Text.Clean word := by decide
    exact all t builtin
  · exact Text.clean_append.2 ⟨by decide, (named.of_get? stored).1⟩

theorem clean_unknown {token : Text} {offers : List Text} (h : token.Clean)
    (each : ∀ offer ∈ offers, offer.Clean) : (unknown token offers).Clean := by
  have offered : (Text.join ", " (offers.take shownBound)).Clean :=
    Text.clean_join (by decide) fun offer mem => each offer (List.mem_of_mem_take mem)
  unfold unknown
  split
  · refine Result.clean_fail ?_
    simp only [Text.clean_append]
    exact ⟨⟨by decide, h⟩, by decide⟩
  · refine Result.clean_fail ?_
    simp only [Text.clean_append]
    exact ⟨⟨⟨⟨by decide, h⟩, by decide⟩, offered⟩, by decide⟩

theorem clean_denied (required : Access) : (denied required).Clean :=
  Result.clean_fail (Text.clean_append.2 ⟨by decide, required.clean_title⟩)

theorem clean_showHistory {history : History} (each : ∀ line ∈ history.entries, line.Clean)
    (flags : Keyed Text Flag) : (showHistory history flags).Clean := by
  unfold showHistory
  split
  · exact Result.clean_fail (by decide)
  · refine Result.clean_ok fun line mem => ?_
    obtain rfl | mem := List.mem_cons.1 mem
    · decide
    · obtain ⟨entry, among, rfl⟩ := List.mem_map.1 mem
      obtain ⟨numbered, its, rfl⟩ := List.mem_map.1 (List.mem_of_mem_drop among)
      have known : numbered.1 ∈ history.entries := List.fst_mem_of_mem_zipIdx its
      simp only [historyLine, Text.clean_append]
      exact ⟨⟨Text.clean_padLeft 4 (Text.clean_ofNat _), by decide⟩, each _ known⟩

theorem clean_listMacros {book : MacroBook} (h : book.Clean) : (listMacros book).Clean := by
  unfold listMacros
  split
  · refine Result.clean_ok fun line mem => ?_
    simp only [List.mem_cons, List.not_mem_nil, or_false] at mem
    obtain rfl | rfl := mem <;> decide
  · refine Result.clean_ok fun line mem => ?_
    obtain rfl | mem := List.mem_cons.1 mem
    · decide
    · obtain ⟨entry, known, its⟩ := List.mem_flatMap.1 mem
      obtain ⟨name, steps⟩ := h entry known
      simp only [macroLines, List.mem_cons, List.not_mem_nil, or_false] at its
      obtain rfl | rfl := its
      · simp only [Text.clean_append]
        exact ⟨⟨⟨⟨by decide, name⟩, by decide⟩, Text.clean_ofNat _⟩, by decide⟩
      · exact Text.clean_append.2 ⟨by decide, Text.clean_join (by decide) steps⟩

/-! ### Macros -/

theorem clean_inscribed {name : Text} {steps : List Text} (h : name.Clean)
    (each : ∀ step ∈ steps, step.Clean) : (inscribed name steps).Clean := by
  refine Result.clean_ok fun line mem => ?_
  simp only [List.mem_cons, List.not_mem_nil, or_false] at mem
  obtain rfl | rfl | rfl := mem
  · simp only [Text.clean_append]
    exact ⟨⟨by decide, h⟩, by decide⟩
  · simp only [Text.clean_append]
    exact ⟨⟨⟨by decide, Text.clean_ofNat _⟩, by decide⟩, Text.clean_join (by decide) each⟩
  · simp only [Text.clean_append]
    exact ⟨⟨by decide, by decide⟩, h⟩

theorem clean_unsaved {name : Text} (h : name.Clean) : (unsaved name).Clean := by
  refine Result.clean_fail ?_
  simp only [Text.clean_append]
  exact ⟨⟨by decide, h⟩, by decide⟩

theorem clean_macroNotFound {name : Text} (h : name.Clean) : (macroNotFound name).Clean := by
  refine Result.clean_fail ?_
  simp only [Text.clean_append]
  exact ⟨⟨by decide, h⟩, by decide⟩

theorem clean_inset {line : Text} (h : line.Clean) : (inset line).Clean :=
  Text.clean_append.2 ⟨by decide, h⟩

/-- In a report no step empties the terminal: what `clear` shows is left out. -/
theorem clean_stepBody {step : Text} {result : Result} (h : Heeds step result) :
    ∀ line ∈ stepBody result, line.Clean := by
  intro line mem
  unfold stepBody at mem
  split at mem
  · obtain ⟨shown, its, rfl⟩ := List.mem_map.1 mem
    obtain ⟨among, other⟩ := List.mem_filter.1 its
    refine clean_inset ?_
    unfold Heeds at h
    split at h
    · rw [h, Result.ok, List.mem_singleton] at among
      exact absurd among (of_decide_eq_true other)
    · exact h.output shown among
  · rename_i failed
    rw [List.mem_singleton] at mem
    rw [mem]
    refine clean_inset ?_
    unfold Heeds at h
    split at h
    · rw [h] at failed
      exact absurd rfl failed
    · cases its : result.error with
      | none => decide
      | some error => exact h.error error its

theorem clean_report {name : Text} {steps : List (Text × Result)} (h : name.Clean)
    (each : ∀ step ∈ steps, step.1.Clean ∧ Heeds step.1 step.2) :
    (report name steps).Clean := by
  refine Result.clean_ok fun line mem => ?_
  rw [List.mem_append, List.mem_cons, List.mem_singleton] at mem
  obtain (rfl | mem) | rfl := mem
  · simp only [reportHead, Text.clean_append]
    exact ⟨⟨⟨⟨by decide, h⟩, by decide⟩, Text.clean_ofNat _⟩, by decide⟩
  · obtain ⟨numbered, known, its⟩ := List.mem_flatMap.1 mem
    obtain ⟨step, heeds⟩ := each _ (List.fst_mem_of_mem_zipIdx known)
    obtain rfl | mem := List.mem_cons.1 its
    · simp only [stepLine, Text.clean_append]
      refine ⟨⟨⟨⟨⟨⟨by decide, Text.clean_ofNat _⟩, by decide⟩, Text.clean_ofNat _⟩, by decide⟩,
        ?_⟩, step⟩
      split <;> decide
    · exact clean_stepBody heeds line mem
  · simp only [reportFoot, Text.clean_append]
    exact ⟨⟨⟨⟨by decide, Text.clean_ofNat _⟩, by decide⟩, Text.clean_ofNat _⟩, by decide⟩

/-! ## Runs -/

section Runs

variable {m : Memory η}

theorem clean_record (now : Memory.Clean H m) {line : Text} (h : line.Clean) :
    Memory.Clean H (record line m) where
  user := now.user
  book := now.book
  history t mem := by
    rw [record, History.entries_append] at mem
    obtain mem | mem := List.mem_append.1 (List.mem_of_mem_drop mem)
    · exact now.history t mem
    · rw [List.mem_singleton.1 mem]
      exact h
  host := now.host

theorem clean_inscribe (now : Memory.Clean H m) {name : Text} {steps : List Text} (h : name.Clean)
    (each : ∀ step ∈ steps, step.Clean) (some_step : steps ≠ []) :
    Memory.Clean H { m with macros := (m.macros.inscribe name steps some_step).1 } where
  user := now.user
  book entry mem := by
    rw [Macros.inscribe, Macros.book_save] at mem
    obtain rfl | old := Keyed.mem_put mem
    · exact ⟨h, each⟩
    · exact now.book entry old
  history := now.history
  host := now.host

theorem clean_of_definition? {line name : Text} {steps : List Text} {some_step : steps ≠ []}
    (h : line.Clean) (parts : definition? line = some (name, ⟨steps, some_step⟩)) :
    name.Clean ∧ ∀ step ∈ steps, step.Clean := by
  unfold definition? at parts
  split at parts
  · rename_i words
    cases parts
    have each {word : Text} (mem : word ∈ line.words) : word.Clean := h.of_mem_words mem
    rw [words] at each
    exact ⟨each (by simp), fun step mem => each (by simp [List.mem_cons.1 mem])⟩
  · cases parts

theorem ensures_defineMacro_clean {line : Text} (h : line.Clean) (now : Memory.Clean H m) :
    (defineMacro line).Ensures (Memory.Clean H) (fun r t => Memory.Clean H t ∧ r.Clean) m := by
  unfold defineMacro
  split
  · exact ⟨now, Result.clean_fail (by decide)⟩
  · rename_i name steps some_step parts
    obtain ⟨clean_name, each⟩ := clean_of_definition? h parts
    have after := clean_inscribe now clean_name each some_step
    refine (ensures_bind _ _ _ _).2 ?_
    dsimp only [Program.act, Ensures]
    split
    · exact ⟨after, clean_inscribed clean_name each⟩
    · exact ⟨after, clean_unsaved clean_name⟩
    · exact after

theorem ensures_dispatch_clean (clean : commands.Clean H) {invocation : Invocation}
    (h : invocation.Clean) (now : Memory.Clean H m) :
    (dispatch commands invocation).Ensures (Memory.Clean H)
      (fun r t => Memory.Clean H t ∧ r.Clean) m := by
  change ((Program.read : Work η (Memory η)).bind _).Ensures _ _ m
  dsimp only [Program.read, Program.bind, Ensures]
  split
  · refine ⟨now, clean_unknown h.command fun offer mem => ?_⟩
    exact clean_of_mem_candidates clean.registry now.book (mem_candidates_of_mem_suggestions mem)
  · rename_i d _
    split
    · have called : Memory.Clean H
          { m with calls := m.calls ++ [⟨d.name, invocation.args, invocation.flags, m.user⟩] } :=
        ⟨now.user, now.book, now.history, now.host⟩
      change ((commands.body d invocation m.user).bind fun outcome =>
        .done outcome.toResult).Ensures _ _ _
      refine (ensures_bind _ _ _ _).2 (ensures_mono ?_
        (clean.bodies d invocation m.user _ h now.user called))
      exact fun outcome t kept => ⟨kept.1, kept.2.toResult⟩
    · exact ⟨now, clean_denied _⟩

theorem ensures_replay_clean {runStep : Option (Text → Work η Result)}
    (runs : ∀ run, runStep = some run → ∀ (line : Text) m, line.Clean → Memory.Clean H m →
      (run line).Ensures (Memory.Clean H) (fun r t => Memory.Clean H t ∧ Heeds line r) m)
    {name : Text} (h : name.Clean) (now : Memory.Clean H m) :
    (replay runStep name).Ensures (Memory.Clean H) (fun r t => Memory.Clean H t ∧ r.Clean) m := by
  change ((Program.read : Work η (Memory η)).bind _).Ensures _ _ m
  dsimp only [Program.read, Program.bind, Ensures]
  split
  · exact ⟨now, clean_macroNotFound h⟩
  · rename_i steps stored
    have each := (now.book.of_get? stored).2
    split
    · exact ⟨now, Result.clean_fail (by decide)⟩
    · rename_i run
      refine (ensures_bind _ _ _ _).2 (ensures_mono ?_
        (ensures_forEach (fun step mem m => runs run rfl step m (each step mem)) now))
      rintro results t ⟨after, heeds⟩
      refine ⟨after, clean_report h fun pair mem => ⟨?_, heeds pair mem⟩⟩
      exact each pair.1 (List.of_mem_zip mem).1

theorem heeds_of_clean {line : Text} {invocation : Invocation} {result : Result}
    (parsed : Invocation.ofLine? line = some invocation) (other : invocation.command ≠ clearWord)
    (h : result.Clean) : Heeds line result := by
  rw [Heeds, head?_words_of_ofLine? parsed, if_neg fun same => other (Option.some.inj same)]
  exact h

theorem ensures_answer_clean (clean : commands.Clean H)
    {runStep : Option (Text → Work η Result)}
    (runs : ∀ run, runStep = some run → ∀ (line : Text) m, line.Clean → Memory.Clean H m →
      (run line).Ensures (Memory.Clean H) (fun r t => Memory.Clean H t ∧ Heeds line r) m)
    {line : Text} {invocation : Invocation} (h : line.Clean)
    (parsed : Invocation.ofLine? line = some invocation) (now : Memory.Clean H m) :
    (answer commands runStep line invocation).Ensures (Memory.Clean H)
      (fun r t => Memory.Clean H t ∧ Heeds line r) m := by
  have words := Invocation.clean_of_ofLine? h parsed
  have heeds (other : invocation.command ≠ clearWord) (r : Result) (t : Memory η)
      (kept : Memory.Clean H t ∧ r.Clean) : Memory.Clean H t ∧ Heeds line r :=
    ⟨kept.1, heeds_of_clean parsed other kept.2⟩
  have answered := answeredBy commands runStep line invocation
  generalize answer commands runStep line invocation = p at answered ⊢
  cases answered with
  | replay name marked =>
    have other : invocation.command ≠ clearWord := by
      intro same
      rw [same, show clearWord.behind? macroMark = none by decide] at marked
      cases marked
    exact ensures_mono (heeds other)
      (ensures_replay_clean runs (words.command.behind? marked) now)
  | define first =>
    exact ensures_mono (heeds (by rw [first]; decide)) (ensures_defineMacro_clean h now)
  | history first =>
    exact heeds (by rw [first]; decide) _ m ⟨now, clean_showHistory now.history _⟩
  | clear first =>
    refine ⟨now, ?_⟩
    rw [Heeds, head?_words_of_ofLine? parsed, first, if_pos rfl]
  | macros first =>
    exact heeds (by rw [first]; decide) _ m ⟨now, clean_listMacros now.book⟩
  | registered unknown =>
    have other : invocation.command ≠ clearWord := by
      intro same
      rw [same] at unknown
      exact absurd unknown (by decide)
    exact ensures_mono (heeds other) (ensures_dispatch_clean clean words now)

theorem ensures_runLine_clean (clean : commands.Clean H)
    {runStep : Option (Text → Work η Result)}
    (runs : ∀ run, runStep = some run → ∀ (line : Text) m, line.Clean → Memory.Clean H m →
      (run line).Ensures (Memory.Clean H) (fun r t => Memory.Clean H t ∧ Heeds line r) m)
    {line : Text} (h : line.Clean) (now : Memory.Clean H m) :
    (runLine commands runStep line).Ensures (Memory.Clean H)
      (fun r t => Memory.Clean H t ∧ Heeds line r) m := by
  have same_words (r : Result) : Heeds line.strip r ↔ Heeds line r := by
    rw [Heeds, Heeds, Text.words_strip]
  unfold runLine
  split
  · rename_i unparsed
    have blank : line.words = [] := by
      rw [Text.words_eq_nil_iff_strip, ← Text.strip_strip]
      exact (Invocation.ofLine?_eq_none_iff _).1 unparsed
    refine ⟨now, ?_⟩
    rw [Heeds, blank, if_neg (by decide)]
    exact Result.clean_fail (by decide)
  · rename_i invocation parsed
    change (answer commands runStep line.strip invocation).Ensures _ _ (record line.strip m)
    refine ensures_mono ?_
      (ensures_answer_clean clean runs h.strip parsed (clean_record now h.strip))
    exact fun r t kept => ⟨kept.1, (same_words r).1 kept.2⟩

/-- A clean line heeds what its own first word asks for, at every depth of macros. -/
theorem ensures_run_clean (clean : commands.Clean H) (left : Nat) {line : Text} (h : line.Clean)
    (now : Memory.Clean H m) :
    (run commands left line).Ensures (Memory.Clean H)
      (fun r t => Memory.Clean H t ∧ Heeds line r) m := by
  -- The steps of a macro are clean lines as well, and run with one level less.
  induction left generalizing line m with
  | zero => exact ensures_runLine_clean clean (fun _ none => by cases none) h now
  | succ left ih =>
    refine ensures_runLine_clean clean ?_ h now
    rintro _ ⟨⟩ step m its now
    exact ih its now

theorem ensures_execute_clean (clean : commands.Clean H) {line : Text} (h : line.Clean)
    (now : Memory.Clean H m) :
    (execute commands line).Ensures (Memory.Clean H)
      (fun r t => Memory.Clean H t ∧ Heeds line r) m := by
  refine ⟨now, fun m now => ?_⟩
  exact (ensures_andFinally_giveBack _ _ m).2 (ensures_run_clean clean depthBound h now)

end Runs

/-! ### Clearing -/

theorem runLine_of_clear {runStep : Option (Text → Work η Result)} {line : Text}
    (first : line.words.head? = some clearWord) :
    runLine commands runStep line =
      (Program.update (record line.strip)).bind fun _ => .done (.ok [clearSequence]) := by
  rw [← Text.words_strip] at first
  unfold runLine
  split
  · rename_i unparsed
    have blank : line.strip.words = [] := by
      rw [Text.words_eq_nil_iff_strip]
      exact (Invocation.ofLine?_eq_none_iff _).1 unparsed
    rw [blank] at first
    cases first
  · rename_i invocation parsed
    rw [head?_words_of_ofLine? parsed] at first
    have answered : answer commands runStep line.strip invocation =
        .done (.ok [clearSequence]) := by
      unfold answer
      rw [Option.some.inj first]
      rfl
    rw [answered]
    rfl

/-- A line that asks for the terminal to be emptied is always answered. -/
theorem unbroken_execute_of_clear {line : Text} (first : line.words.head? = some clearWord) :
    (execute commands line).Unbroken := by
  change ((run commands depthBound line).andFinally giveBack).Unbroken
  rw [depthBound, run, runLine_of_clear first]
  exact fun _ => trivial

end Interpreter

end GatedConsole
