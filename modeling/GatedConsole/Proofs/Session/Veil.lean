import GatedConsole.Proofs.Command.Registry
import GatedConsole.Proofs.Session.Course

/-!
Commands beyond a user's level. Main statement: with two sets of commands that differ only in what
is beyond the level, steps lead to the same answers and the same session, as long as both sets
demand the same level of whoever types one of the recorded first words.
-/

set_option autoImplicit false
set_option relaxedAutoImplicit false

namespace GatedConsole

variable {η α β : Type}

namespace Registry

/-- The level that a word demands, if it names a command beyond the given one. -/
def beyond? (registry : Registry) (level : Access) (word : Text) : Option Access :=
  (registry.resolve? word).bind fun d => if d.isVisibleTo level then none else some d.access

end Registry

/-- The two sets show the level the same commands with the same bodies. -/
structure SameVisible (level : Access) (commands commands' : CommandSet η) : Prop where
  visible : commands.registry.visible level = commands'.registry.visible level
  bodies : ∀ d ∈ commands.registry.visible level, ∀ invocation user,
    commands.body d invocation user = commands'.body d invocation user

/-- What the level may run leaves the user alone. -/
def CommandSet.KeepsUser (level : Access) (commands : CommandSet η) : Prop :=
  ∀ d ∈ commands.registry.visible level, ∀ invocation user m,
    (commands.body d invocation user).Only (fun m m' => m'.user = m.user) m

/-- Whoever types the first word of a recorded line learns no more from one registry than from the
other. -/
def Recorded.Fair (level : Access) (registry registry' : Registry) (r : Recorded η) : Prop :=
  ∀ word, r.line.words.head? = some word →
    registry.beyond? level word = registry'.beyond? level word

namespace Interpreter

open Program

variable {level : Access} {commands commands' : CommandSet η}

/-- A word that demands the same of the level finds nothing, the same command, or two commands that
are refused alike. -/
theorem resolve?_cases (same : SameVisible level commands commands') {word : Text}
    (fair : commands.registry.beyond? level word = commands'.registry.beyond? level word) :
    (commands.registry.resolve? word = none ∧ commands'.registry.resolve? word = none) ∨
      (∃ d ∈ commands.registry.visible level, commands.registry.resolve? word = some d ∧
        commands'.registry.resolve? word = some d) ∨
      ∃ d d', commands.registry.resolve? word = some d ∧
        commands'.registry.resolve? word = some d' ∧ d.isVisibleTo level = false ∧
          d'.isVisibleTo level = false ∧ d.access = d'.access := by
  have shared {d : Descriptor} (visible : d.isVisibleTo level) :
      commands.registry.resolve? word = some d ↔ commands'.registry.resolve? word = some d := by
    have mem : d ∈ commands.registry.commands ∧ d.isVisibleTo level ↔
        d ∈ commands'.registry.commands ∧ d.isVisibleTo level := by
      rw [← Registry.mem_visible_iff, same.visible, Registry.mem_visible_iff]
    simp only [visible, and_true] at mem
    rw [Registry.resolve?_eq_some_iff, Registry.resolve?_eq_some_iff, mem]
  cases found : commands.registry.resolve? word with
  | none =>
    left
    refine ⟨rfl, ?_⟩
    cases found' : commands'.registry.resolve? word with
    | none => rfl
    | some d' =>
      cases visible : d'.isVisibleTo level with
      | true =>
        have back := (shared visible).2 found'
        rw [found] at back
        cases back
      | false => simp [Registry.beyond?, found, found', visible] at fair
  | some d =>
    right
    cases visible : d.isVisibleTo level with
    | true =>
      have mem := List.mem_of_find?_eq_some found
      exact .inl ⟨d, (commands.registry.mem_visible_iff level d).2 ⟨mem, visible⟩, rfl,
        (shared visible).1 found⟩
    | false =>
      right
      cases found' : commands'.registry.resolve? word with
      | none => simp [Registry.beyond?, found, found', visible] at fair
      | some d' =>
        cases visible' : d'.isVisibleTo level with
        | true =>
          have back := (shared visible').2 found'
          rw [found] at back
          cases back
          rw [visible] at visible'
          cases visible'
        | false =>
          simp only [Registry.beyond?, found, found', visible, visible', Option.bind_some,
            Bool.false_eq_true, if_false, Option.some.injEq] at fair
          exact ⟨d, d', rfl, rfl, visible, visible', fair⟩

theorem candidates_eq (same : SameVisible level commands commands') {user : User}
    (its_level : user.access = level) (book : MacroBook) :
    candidates commands.registry user book = candidates commands'.registry user book := by
  rw [candidates, Registry.visibleIdentifiers, its_level, same.visible, candidates,
    Registry.visibleIdentifiers, its_level]

theorem suggestions_eq (same : SameVisible level commands commands') {user : User}
    (its_level : user.access = level) (book : MacroBook) (fragment : Text) :
    suggestions commands.registry user book fragment =
      suggestions commands'.registry user book fragment := by
  rw [suggestions, candidates_eq same its_level, suggestions]

/-- Every run of the one program by a user of the level is a run of the other, and leaves the user
as it is, if the recorded lines are fair. -/
def Follows (level : Access) (fair : Recorded η → Prop) (p q : Work η α) : Prop :=
  ∀ m e t log, m.user.access = level → p.Runs recordedBetween m e t log → (∀ r ∈ log, fair r) →
    q.Runs recordedBetween m e t log ∧ t.user = m.user

variable {fair : Recorded η → Prop}

theorem follows_self {p : Work η α} (h : ∀ m, p.Only (fun m m' => m'.user = m.user) m) :
    Follows level fair p p := by
  intro m e t log _ run _
  refine ⟨run, run.only ?_ ?_ (h m)⟩
  · exact fun _ => rfl
  · exact fun _ _ _ kept kept' => kept'.trans kept

theorem follows_done (a : α) : Follows level fair (.done a) (.done a) :=
  follows_self fun _ => trivial

theorem follows_bind {p q : Work η α} {f g : α → Work η β} (first : Follows level fair p q)
    (second : ∀ a, Follows level fair (f a) (g a)) :
    Follows level fair (p.bind f) (q.bind g) := by
  intro m e t log its_level run all_fair
  obtain ⟨a, t', before, after, one, other, rfl⟩ | ⟨cause, rfl, one⟩ := run.of_bind
  · obtain ⟨one, kept⟩ := first _ _ _ _ its_level one fun r mem =>
      all_fair r (List.mem_append_left _ mem)
    obtain ⟨other, kept'⟩ := second a _ _ _ _ (kept ▸ its_level) other fun r mem =>
      all_fair r (List.mem_append_right _ mem)
    exact ⟨one.bind other, kept'.trans kept⟩
  · obtain ⟨one, kept⟩ := first _ _ _ _ its_level one all_fair
    exact ⟨one.bind_escaped g, kept⟩

theorem follows_look {next next' : Memory η → Work η α}
    (h : ∀ m, m.user.access = level → Follows level fair (next m) (next' m)) :
    Follows level fair (.look next) (.look next') := by
  intro m e t log its_level run all_fair
  obtain ⟨run, kept⟩ := h m its_level m e t log its_level run.of_look all_fair
  exact ⟨.look run, kept⟩

theorem follows_forEach {f g : β → Work η α} (h : ∀ b, Follows level fair (f b) (g b))
    (bs : List β) : Follows level fair (forEach f bs) (forEach g bs) := by
  induction bs with
  | nil => exact follows_done []
  | cons b bs ih =>
    exact follows_bind (h b) fun a => follows_bind ih fun as => follows_done (a :: as)

theorem follows_dispatch (same : SameVisible level commands commands')
    (keeps : commands.KeepsUser level) {invocation : Invocation}
    (its_fair : commands.registry.beyond? level invocation.command =
      commands'.registry.beyond? level invocation.command) :
    Follows level fair (dispatch commands invocation) (dispatch commands' invocation) := by
  refine follows_look fun m its_level => ?_
  simp only [Program.bind]
  rcases resolve?_cases same its_fair with
    ⟨none, none'⟩ | ⟨d, visible, found, found'⟩ | ⟨d, d', found, found', hidden, hidden', demands⟩
  · rw [none, none', suggestions_eq same its_level]
    exact follows_done _
  · rw [found, found']
    have permitted : m.user.access.permits d.access := by
      rw [its_level]
      exact ((commands.registry.mem_visible_iff level d).1 visible).2
    simp only [permitted, if_true]
    refine follows_bind (follows_self fun _ => ⟨rfl, trivial⟩) fun _ => ?_
    rw [← same.bodies d visible invocation m.user]
    exact follows_bind (follows_self (keeps d visible invocation m.user)) fun outcome =>
      follows_done _
  · have refused : m.user.access.permits d.access = false := by
      rw [its_level]
      exact hidden
    have refused' : m.user.access.permits d'.access = false := by
      rw [its_level]
      exact hidden'
    rw [found, found']
    simp only [refused', Bool.false_eq_true, if_false, demands]
    exact follows_done _

theorem follows_replay {runStep runStep' : Option (Text → Work η Result)}
    (steps : (runStep = none ∧ runStep' = none) ∨ ∃ run run', runStep = some run ∧
      runStep' = some run' ∧ ∀ line, Follows level fair (run line) (run' line)) (name : Text) :
    Follows level fair (replay runStep name) (replay runStep' name) := by
  refine follows_look fun m _ => ?_
  simp only [Program.bind]
  cases m.macros.book.get? name with
  | none => exact follows_done _
  | some lines =>
    rcases steps with ⟨rfl, rfl⟩ | ⟨run, run', rfl, rfl, follows⟩
    · exact follows_done _
    · exact follows_bind (follows_forEach follows lines) fun results => follows_done _

theorem follows_answer (same : SameVisible level commands commands')
    (keeps : commands.KeepsUser level) {runStep runStep' : Option (Text → Work η Result)}
    (steps : (runStep = none ∧ runStep' = none) ∨ ∃ run run', runStep = some run ∧
      runStep' = some run' ∧ ∀ line, Follows level fair (run line) (run' line))
    (line : Text) {invocation : Invocation}
    (its_fair : commands.registry.beyond? level invocation.command =
      commands'.registry.beyond? level invocation.command) :
    Follows level fair (answer commands runStep line invocation)
      (answer commands' runStep' line invocation) := by
  unfold answer
  split
  · exact follows_replay steps _
  · split
    · exact follows_self ((woven_only fun _ _ own => own.user).defineMacro line)
    · split
      · exact follows_look fun _ _ => follows_done _
      · split
        · exact follows_done _
        · split
          · exact follows_look fun _ _ => follows_done _
          · exact follows_dispatch same keeps its_fair

theorem follows_runLine (same : SameVisible level commands commands')
    (keeps : commands.KeepsUser level) {runStep runStep' : Option (Text → Work η Result)}
    (steps : (runStep = none ∧ runStep' = none) ∨ ∃ run run', runStep = some run ∧
      runStep' = some run' ∧ ∀ line,
        Follows level (·.Fair level commands.registry commands'.registry) (run line) (run' line))
    (line : Text) :
    Follows level (·.Fair level commands.registry commands'.registry)
      (runLine commands runStep line) (runLine commands' runStep' line) := by
  unfold runLine
  split
  · exact follows_done _
  · rename_i invocation parsed
    intro m e t log its_level run all_fair
    obtain ⟨rest, answers, rfl⟩ := Runs.of_keep (Runs.of_look run)
    have recorded : (⟨line.strip, record line.strip m⟩ : Recorded η) ∈
        recordedBetween m (record line.strip m) := by
      rw [recordedBetween_record]
      exact List.mem_singleton.2 rfl
    have its_fair := all_fair _ (List.mem_append_left _ recorded) invocation.command
      (head?_words_of_ofLine? parsed)
    obtain ⟨answers, kept⟩ := follows_answer same keeps steps line.strip its_fair
      (record line.strip m) e t rest its_level answers fun r mem =>
        all_fair r (List.mem_append_right _ mem)
    exact ⟨.look (.keep answers), kept⟩

/-- A run of a line by a user of the level is one with the other commands as well. -/
theorem follows_run (same : SameVisible level commands commands')
    (keeps : commands.KeepsUser level) (left : Nat) (line : Text) :
    Follows level (·.Fair level commands.registry commands'.registry)
      (run commands left line) (run commands' left line) := by
  induction left generalizing line with
  | zero => exact follows_runLine same keeps (.inl ⟨rfl, rfl⟩) line
  | succ left ih =>
    exact follows_runLine same keeps (.inr ⟨_, _, rfl, rfl, ih⟩) line

end Interpreter

/-- The commands without the bodies of those that the level may not run. -/
def CommandSet.muted (level : Access) (commands : CommandSet η) : CommandSet η where
  registry := commands.registry
  body d invocation user :=
    if d ∈ commands.registry.visible level then commands.body d invocation user
    else .done .noResult

theorem sameVisible_muted (level : Access) (commands : CommandSet η) :
    SameVisible level (commands.muted level) commands where
  visible := rfl
  bodies _ mem _ _ := if_pos mem

theorem keepsUser_muted {level : Access} {commands : CommandSet η}
    (keeps : commands.KeepsUser level) : (commands.muted level).KeepsUser level := by
  intro d mem invocation user m
  rw [(sameVisible_muted level commands).bodies d mem]
  exact keeps d mem invocation user m

/-- What the level may run leaves the lock alone and has no parts. -/
def CommandSet.SolitaryTo (level : Access) (commands : CommandSet η) : Prop :=
  ∀ d ∈ commands.registry.visible level, ∀ invocation user,
    (commands.body d invocation user).Solitary

open Interpreter Program in
/-- A user of the level runs every line to an end, whatever is beyond the level. -/
theorem exists_runs_of_level {level : Access} {commands : CommandSet η}
    (solitary : commands.SolitaryTo level) (keeps : commands.KeepsUser level) (left : Nat)
    (line : Text) {m : Memory η} (its_level : m.user.access = level) :
    ∃ e t log, (run commands left line).Runs recordedBetween m e t log := by
  -- Bodies beyond the level may do anything, even wait for ever. Without them every line has a run,
  -- and since they are never called it is one with them as well.
  have muted : (commands.muted level).Solitary := by
    intro d invocation user
    unfold CommandSet.muted
    dsimp only
    split
    · rename_i mem
      exact solitary d mem invocation user
    · trivial
  obtain ⟨e, t, log, runs⟩ := (solitary_run muted left line).exists_runs recordedBetween m
  have follows := follows_run (sameVisible_muted level commands) (keepsUser_muted keeps) left line
  exact ⟨e, t, log, (follows m e t log its_level runs fun _ _ _ _ => rfl).1⟩

/-! ## Sessions -/

namespace Step

/-- Whether the step only asks the interpreter for something. -/
def asks : Step → Bool
  | .execute _ | .suggest _ | .candidates => true
  | _ => false

end Step

namespace Session

open Interpreter Program

variable {level : Access} {commands commands' : CommandSet Desk}

/-- A step that only answers leaves the session as it is and records nothing. -/
theorem take_of_answer {step : Step} {f : Session → Reply}
    (h : program commands step = Program.act fun s => (f s, s)) (s : Session) :
    take commands s step = (f s, s) ∧ Loop.log recordedBetween (program commands step) s = [] := by
  have runs : (program commands step).Runs recordedBetween s (.done (f s)) s
      (recordedBetween s s) := h ▸ .act recordedBetween (fun s => (f s, s)) s
  rw [recordedBetween_eq_nil rfl] at runs
  rw [take, Loop.run_eq_of_runs runs]
  exact ⟨rfl, Loop.log_eq_of_runs runs⟩

/-- One step: the same answer, the same session and the same recorded lines. -/
theorem take_eq (same : SameVisible level commands commands')
    (solitary : commands.SolitaryTo level) (keeps : commands.KeepsUser level) {s : Session}
    (its_level : s.user.access = level) {step : Step} (asks : step.asks = true)
    (fair : ∀ r ∈ Loop.log recordedBetween (program commands step) s,
      r.Fair level commands.registry commands'.registry) :
    take commands s step = take commands' s step ∧
      Loop.log recordedBetween (program commands step) s =
        Loop.log recordedBetween (program commands' step) s ∧
      (take commands s step).2.user.access = level := by
  have answers {f f' : Session → Reply}
      (h : program commands step = Program.act fun s => (f s, s))
      (h' : program commands' step = Program.act fun s => (f' s, s)) (agree : f s = f' s) :
      take commands s step = take commands' s step ∧
        Loop.log recordedBetween (program commands step) s =
          Loop.log recordedBetween (program commands' step) s ∧
        (take commands s step).2.user.access = level := by
    obtain ⟨taken, logged⟩ := take_of_answer h s
    obtain ⟨taken', logged'⟩ := take_of_answer h' s
    rw [taken, taken', logged, logged', agree]
    exact ⟨rfl, rfl, its_level⟩
  cases step with
  | execute line =>
    obtain ⟨e, t, log, runs⟩ := exists_runs_of_level solitary keeps depthBound line its_level
    obtain ⟨taken, logged⟩ := take_execute runs
    rw [logged] at fair
    obtain ⟨runs', kept⟩ := follows_run same keeps depthBound line s e t log its_level runs fair
    obtain ⟨taken', logged'⟩ := take_execute runs'
    rw [taken, taken', logged, logged']
    exact ⟨rfl, rfl, (congrArg User.access kept).trans its_level⟩
  | suggest fragment =>
    refine answers (by rw [program, work]) (by rw [program, work]) ?_
    exact congrArg Reply.texts (suggestions_eq same its_level s.macros.book fragment)
  | candidates =>
    refine answers (by rw [program, work]) (by rw [program, work]) ?_
    exact congrArg Reply.texts (candidates_eq same its_level s.macros.book)
  | _ => cases asks

/-- What is beyond the level of the user makes no difference: with two sets of commands that show
the level the same commands, steps that ask the interpreter lead to the same answers, the same
recorded lines and the same session, as long as both demand the same level of whoever types one of
the first words recorded on the way. -/
theorem takeAll_eq_of_sameVisible {level : Access} {commands commands' : CommandSet Desk}
    (same : SameVisible level commands commands') (solitary : commands.SolitaryTo level)
    (keeps : commands.KeepsUser level) {s : Session} (its_level : s.user.access = level)
    {steps : List Step} (asks : ∀ step ∈ steps, step.asks = true)
    (fair : ∀ r ∈ trace commands s steps,
      r.Fair level commands.registry commands'.registry) :
    takeAll commands s steps = takeAll commands' s steps ∧
      trace commands s steps = trace commands' s steps := by
  induction steps generalizing s with
  | nil => exact ⟨rfl, rfl⟩
  | cons step steps ih =>
    rw [trace] at fair
    obtain ⟨taken, logged, still⟩ := take_eq same solitary keeps its_level
      (asks step List.mem_cons_self) fun r mem => fair r (List.mem_append_left _ mem)
    obtain ⟨others, traced⟩ := ih still
      (fun step mem => asks step (List.mem_cons_of_mem _ mem))
      fun r mem => fair r (List.mem_append_right _ mem)
    rw [taken] at others traced
    rw [takeAll, takeAll, trace, trace, taken]
    dsimp only
    rw [others, logged, traced]
    exact ⟨rfl, rfl⟩

/-- The watch with other commands beyond a guest: one more, and another one in the place of the
first. -/
def zapCommands : CommandSet Desk where
  registry := ⟨[{ name := "zap", access := .executor }, { name := "look" },
    { name := "seal", access := .root, description := "Seals." }], by decide⟩
  body d invocation user :=
    if d.name = "look" then watchCommands.body d invocation user else .escape (.abort [])

/-- A refused seal, a look and two questions. -/
def sealSteps : List Step := [.execute "macro.m", .suggest "e", .candidates]

theorem takeAll_eq_of_sameVisible_seal :
    SameVisible .guest watchCommands zapCommands ∧ watchCommands.SolitaryTo .guest ∧
      watchCommands.KeepsUser .guest ∧ watchSession.user.access = .guest ∧
      (∀ step ∈ sealSteps, step.asks = true) ∧
      (∀ r ∈ trace watchCommands watchSession sealSteps,
        r.Fair .guest watchCommands.registry zapCommands.registry) ∧
      takeAll watchCommands watchSession sealSteps =
        takeAll zapCommands watchSession sealSteps := by
  have same : SameVisible .guest watchCommands zapCommands := by
    refine ⟨by decide, ?_⟩
    intro d mem invocation user
    have look : d.name = "look" := by
      have only : watchCommands.registry.visible .guest = [{ name := "look" }] := by decide
      rw [only, List.mem_singleton] at mem
      rw [mem]
    exact (if_pos look).symm
  have solitary : watchCommands.SolitaryTo .guest := fun _ _ _ _ => trivial
  have keeps : watchCommands.KeepsUser .guest := fun _ _ _ _ _ _ _ => trivial
  have asks : ∀ step ∈ sealSteps, step.asks = true := by simp [sealSteps, Step.asks]
  have recorded : (trace watchCommands watchSession sealSteps).map (·.line) =
      [Text.ofString "macro.m", Text.ofString "seal", Text.ofString "look"] := by
    have still : (Loop.turns 40 (Loop.start (listened (program watchCommands (.execute "macro.m")))
        false (watchSession, []))).turn = none := rfl
    have suggests (s : Session) :
        Loop.log recordedBetween (program watchCommands (.suggest "e")) s = [] :=
      (take_of_answer (by rw [program, work]) s).2
    have offers (s : Session) :
        Loop.log recordedBetween (program watchCommands .candidates) s = [] :=
      (take_of_answer (by rw [program, work]) s).2
    simp only [sealSteps, trace, suggests, offers, List.append_nil]
    rw [Loop.log, Loop.run, Loop.rest_eq_turns still]
    rfl
  have fair : ∀ r ∈ trace watchCommands watchSession sealSteps,
      r.Fair .guest watchCommands.registry zapCommands.registry := by
    intro r mem word first
    have all : ∀ line ∈ [Text.ofString "macro.m", Text.ofString "seal", Text.ofString "look"],
        ∀ word ∈ line.words.head?, watchCommands.registry.beyond? .guest word =
          zapCommands.registry.beyond? .guest word := by decide
    rw [← recorded] at all
    exact all r.line (List.mem_map_of_mem mem) word first
  exact ⟨same, solitary, keeps, rfl, asks, fair,
    (takeAll_eq_of_sameVisible same solitary keeps rfl asks fair).1⟩

end Session

end GatedConsole
