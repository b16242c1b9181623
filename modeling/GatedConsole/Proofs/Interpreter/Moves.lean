import GatedConsole.Interpreter.Execution
import GatedConsole.Proofs.Task.Ensures
import GatedConsole.Proofs.Task.Locked

/-!
The moves of the interpreter. Main statement: a property of programs that looks, records,
definitions and calls have, and that compositions inherit, holds of the run of every line. What all
of the interpreter's own moves have in common is such a property, if the bodies of the commands have
it.
-/

set_option autoImplicit false
set_option relaxedAutoImplicit false

namespace GatedConsole

variable {η α β : Type}

/-- A property of programs that compositions inherit, and that looks and the moves of a line have:
a line is recorded, it may define a macro, and it may call a command. -/
structure Fabric (commands : CommandSet η) (P : {α : Type} → Work η α → Prop) : Prop where
  done : ∀ {α : Type} (a : α), P (.done a : Work η α)
  look : ∀ {α : Type} {next : Memory η → Work η α}, (∀ m, P (next m)) → P (.look next)
  bind : ∀ {α β : Type} {p : Work η α} {f : α → Work η β}, P p → (∀ a, P (f a)) → P (p.bind f)
  record : ∀ line, P (Program.update (Interpreter.record line))
  define : ∀ line, P (Interpreter.defineMacro line)
  call : ∀ d invocation user, P (Interpreter.call commands d invocation user)

namespace Fabric

open Interpreter Program

variable {P : {α : Type} → Work η α → Prop} {commands : CommandSet η}

theorem forEach (fabric : Fabric commands P) {f : β → Work η α} (h : ∀ b, P (f b))
    (bs : List β) : P (Program.forEach f bs) := by
  induction bs with
  | nil => exact fabric.done []
  | cons b bs ih => exact fabric.bind (h b) fun a => fabric.bind ih fun as => fabric.done (a :: as)

theorem dispatch (fabric : Fabric commands P) (invocation : Invocation) :
    P (Interpreter.dispatch commands invocation) := by
  refine fabric.look fun m => ?_
  rw [Program.bind]
  split
  · exact fabric.done _
  · split
    · exact fabric.call _ invocation m.user
    · exact fabric.done _

theorem replay (fabric : Fabric commands P) {runStep : Option (Text → Work η Result)}
    (runs : ∀ run, runStep = some run → ∀ line, P (run line)) (name : Text) :
    P (Interpreter.replay runStep name) := by
  refine fabric.look fun m => ?_
  rw [Program.bind]
  split
  · exact fabric.done _
  · split
    · exact fabric.done _
    · exact fabric.bind (fabric.forEach (runs _ rfl) _) fun results => fabric.done _

theorem answer (fabric : Fabric commands P) {runStep : Option (Text → Work η Result)}
    (runs : ∀ run, runStep = some run → ∀ line, P (run line)) (line : Text)
    (invocation : Invocation) : P (Interpreter.answer commands runStep line invocation) := by
  unfold Interpreter.answer
  split
  · exact fabric.replay runs _
  · split
    · exact fabric.define line
    · split
      · exact fabric.look fun _ => fabric.done _
      · split
        · exact fabric.done _
        · split
          · exact fabric.look fun _ => fabric.done _
          · exact fabric.dispatch invocation

theorem runLine (fabric : Fabric commands P) {runStep : Option (Text → Work η Result)}
    (runs : ∀ run, runStep = some run → ∀ line, P (run line)) (line : Text) :
    P (Interpreter.runLine commands runStep line) := by
  unfold Interpreter.runLine
  split
  · exact fabric.done _
  · exact fabric.bind (fabric.record line.strip) fun _ => fabric.answer runs line.strip _

theorem run (fabric : Fabric commands P) (left : Nat) (line : Text) :
    P (Interpreter.run commands left line) := by
  induction left generalizing line with
  | zero => exact fabric.runLine (fun _ none => by cases none) line
  | succ left ih =>
    apply fabric.runLine _ line
    intro run same line
    rw [← Option.some.inj same]
    exact ih line

end Fabric

/-- A change of what the interpreter keeps: user and host stay. -/
structure OwnMove (before after : Memory η) : Prop where
  user : after.user = before.user
  host : after.host = before.host

/-- A property of programs that compositions inherit, and that looks and own moves have. -/
structure Woven (P : {α : Type} → Work η α → Prop) : Prop where
  done : ∀ {α : Type} (a : α), P (.done a : Work η α)
  escape : ∀ {α : Type} (cause : Escape), P (.escape cause : Work η α)
  look : ∀ {α : Type} {next : Memory η → Work η α}, (∀ m, P (next m)) → P (.look next)
  act : ∀ {α : Type} {f : Memory η → α × Memory η}, (∀ m, OwnMove m (f m).2) → P (Program.act f)
  bind : ∀ {α β : Type} {p : Work η α} {f : α → Work η β}, P p → (∀ a, P (f a)) → P (p.bind f)

namespace Woven

open Interpreter Program

variable {P : {α : Type} → Work η α → Prop} {commands : CommandSet η}

theorem update (woven : Woven P) {f : Memory η → Memory η} (h : ∀ m, OwnMove m (f m)) :
    P (Program.update f) :=
  woven.act (f := fun m => ((), f m)) h

theorem defineMacro (woven : Woven P) (line : Text) : P (Interpreter.defineMacro line) := by
  unfold Interpreter.defineMacro
  split
  · exact woven.done _
  · refine woven.bind (woven.act fun m => ⟨rfl, rfl⟩) fun saved => ?_
    split
    · exact woven.done _
    · exact woven.done _
    · exact woven.escape _

/-- A line is woven of own moves and of the bodies that it calls. -/
theorem fabric (woven : Woven P)
    (bodies : ∀ d invocation user, P (commands.body d invocation user)) : Fabric commands P where
  done := woven.done
  look := woven.look
  bind := woven.bind
  record _ := woven.update fun _ => ⟨rfl, rfl⟩
  define := woven.defineMacro
  call d invocation user := woven.bind (woven.update fun _ => ⟨rfl, rfl⟩) fun _ =>
    woven.bind (bodies d invocation user) fun outcome => woven.done outcome.toResult

theorem run (woven : Woven P) (bodies : ∀ d invocation user, P (commands.body d invocation user))
    (left : Nat) (line : Text) : P (Interpreter.run commands left line) :=
  (woven.fabric bodies).run left line

end Woven

/-- The bodies neither execute nor submit, and have no parts. -/
def CommandSet.Solitary (commands : CommandSet η) : Prop :=
  ∀ d invocation user, (commands.body d invocation user).Solitary

theorem woven_solitary : Woven (η := η) Program.Solitary where
  done _ := trivial
  escape _ := trivial
  look h := h
  act _ := fun _ => trivial
  bind := Program.Solitary.bind

/-- What all own moves have in common, all changes of the interpreter have. -/
theorem woven_only {G : Memory η → Memory η → Prop} (own : ∀ m m', OwnMove m m' → G m m') :
    Woven (η := η) fun p => ∀ m, Program.Only G p m where
  done _ _ := trivial
  escape _ _ := trivial
  look h m := h m m
  act h m := ⟨own m _ (h m), trivial⟩
  bind h rest m := Program.only_bind (h m) rest

/-- What all own moves and all changes of the bodies have in common, the changes of an execution
have. -/
theorem Interpreter.only_execute {commands : CommandSet η} {G : Memory η → Memory η → Prop}
    (own : ∀ m m', OwnMove m m' → G m m')
    (bodies : ∀ d invocation user m, (commands.body d invocation user).Only G m) (line : Text)
    (m : Memory η) : (execute commands line).Only G m :=
  fun m => Program.only_andFinally ((woven_only own).run bodies depthBound line m) fun _ => trivial

/-- Lines leave the lock alone and have no parts, if bodies do not. -/
theorem Interpreter.solitary_run {commands : CommandSet η} (solitary : commands.Solitary)
    (left : Nat) (line : Text) : (run commands left line).Solitary :=
  woven_solitary.run solitary left line

end GatedConsole
