import GatedConsole.Interpreter.Execution
import GatedConsole.Proofs.Task.Locked

/-!
What the interpreter has to do with the program around it: nothing. Main statement: in memories that
differ in their hosts alone, a line has the same course and the same result, and it never touches
the lock, if the bodies of the commands only wait and answer.
-/

set_option autoImplicit false
set_option relaxedAutoImplicit false

namespace GatedConsole

variable {η ι α β : Type}

/-- Looks at what the interpreter remembers, waits any number of times and ends in any way, but
changes nothing and does not depend on what is around the interpreter. -/
def Program.Passive {α : Type} : Work η α → Prop
  | .done _ => True
  | .escape _ => True
  | .look next => (∀ m host, next { m with host := host } = next m) ∧ ∀ m, (next m).Passive
  | .keep .. => False
  | .pause next => next.Passive
  | .acquire _ => False
  | .release _ => False
  | .fork .. => False

def CommandSet.Passive (commands : CommandSet η) : Prop :=
  ∀ d invocation user, (commands.body d invocation user).Passive

/-- Memories that differ in their hosts alone, and hosts that are related. -/
inductive SameBut (H : η → η → Prop) (m : Memory η) : Memory η → Prop
  | host (host : η) (h : H m.host host) : SameBut H m { m with host := host }

namespace Interpreter

open Program

variable {H : ι → η → η → Prop} {commands : CommandSet η}

/-- The program does the same in memories that differ in their hosts alone. -/
def Hosted (H : ι → η → η → Prop) (p : Work η α) : Prop :=
  ∀ k m n, SameBut (H k) m n → Alike (fun k => SameBut (H k)) k p m p n

/-- A program that does the same in all hosts and never touches the lock. -/
structure Guest (H : ι → η → η → Prop) (p : Work η α) : Prop where
  hosted : Hosted H p
  solitary : p.Solitary

theorem guest_done (a : α) : Guest H (.done a : Work η α) :=
  ⟨fun _ _ _ now => .done a now, trivial⟩

theorem guest_escape (e : Escape) : Guest H (.escape e : Work η α) :=
  ⟨fun _ _ _ now => .escape e now, trivial⟩

theorem guest_bind {p : Work η α} {f : α → Work η β} (h : Guest H p)
    (rest : ∀ a, Guest H (f a)) : Guest H (p.bind f) :=
  ⟨fun k m n now => (h.hosted k m n now).bind fun a => (rest a).hosted,
    h.solitary.bind fun a => (rest a).solitary⟩

theorem guest_look {next : Memory η → Work η α}
    (blind : ∀ m host, next { m with host := host } = next m) (h : ∀ m, Guest H (next m)) :
    Guest H (.look next) := by
  refine ⟨?_, fun m => (h m).solitary⟩
  rintro k m _ ⟨host, related⟩
  refine .look ?_
  rw [blind m host]
  exact (h m).hosted k m _ (.host host related)

theorem guest_act {f : Memory η → α × Memory η}
    (blind : ∀ m host, f { m with host := host } = ((f m).1, { (f m).2 with host := host }))
    (leaves : ∀ m, (f m).2.host = m.host) : Guest H (act f) := by
  refine ⟨?_, fun _ => trivial⟩
  rintro k m _ ⟨host, related⟩
  apply Alike.act
  · rw [blind m host]
  · rw [blind m host]
    exact .host host (by rwa [leaves m])

theorem guest_update {f : Memory η → Memory η}
    (blind : ∀ m host, f { m with host := host } = { f m with host := host })
    (leaves : ∀ m, (f m).host = m.host) : Guest H (update f) :=
  guest_act (f := fun m => ((), f m)) (fun m host => by rw [blind m host]) leaves

theorem guest_forEach {f : β → Work η α} (h : ∀ b, Guest H (f b)) (bs : List β) :
    Guest H (forEach f bs) :=
  ⟨fun _ _ _ now => .forEach (fun b => (h b).hosted) bs now,
    solitary_forEach (fun b => (h b).solitary) bs⟩

theorem guest_of_passive {p : Work η α} (h : p.Passive) : Guest H p := by
  induction p with
  | done a => exact guest_done a
  | escape e => exact guest_escape e
  | look next ih => exact guest_look h.1 fun m => ih m (h.2 m)
  | pause next ih => exact ⟨fun _ _ _ now => .pause now (ih h).hosted, (ih h).solitary⟩
  | keep | acquire | release | fork => exact h.elim

/-! ## Lines -/

theorem guest_defineMacro (line : Text) : Guest H (defineMacro line : Work η Result) := by
  unfold defineMacro
  split
  · exact guest_done _
  · refine guest_bind (guest_act (fun _ _ => rfl) fun _ => rfl) fun saved => ?_
    split
    · exact guest_done _
    · exact guest_done _
    · exact guest_escape _

theorem guest_call (passive : commands.Passive) (d : Descriptor) (invocation : Invocation)
    (user : User) : Guest H (call commands d invocation user) :=
  guest_bind (guest_update (fun _ _ => rfl) fun _ => rfl) fun _ =>
    guest_bind (guest_of_passive (passive d invocation user)) fun outcome =>
      guest_done outcome.toResult

theorem guest_dispatch (passive : commands.Passive) (invocation : Invocation) :
    Guest H (dispatch commands invocation) := by
  refine guest_look (fun _ _ => rfl) fun m => ?_
  rw [Program.bind]
  split
  · exact guest_done _
  · split
    · exact guest_call passive _ invocation m.user
    · exact guest_done _

theorem guest_replay {runStep : Option (Text → Work η Result)}
    (runs : ∀ run, runStep = some run → ∀ line, Guest H (run line)) (name : Text) :
    Guest H (replay runStep name) := by
  refine guest_look (fun _ _ => rfl) fun m => ?_
  rw [Program.bind]
  split
  · exact guest_done _
  · split
    · exact guest_done _
    · exact guest_bind (guest_forEach (runs _ rfl) _) fun results => guest_done _

theorem guest_answer (passive : commands.Passive) {runStep : Option (Text → Work η Result)}
    (runs : ∀ run, runStep = some run → ∀ line, Guest H (run line)) (line : Text)
    (invocation : Invocation) : Guest H (answer commands runStep line invocation) := by
  unfold answer
  split
  · exact guest_replay runs _
  · split
    · exact guest_defineMacro line
    · split
      · exact guest_look (fun _ _ => rfl) fun _ => guest_done _
      · split
        · exact guest_done _
        · split
          · exact guest_look (fun _ _ => rfl) fun _ => guest_done _
          · exact guest_dispatch passive invocation

theorem guest_runLine (passive : commands.Passive) {runStep : Option (Text → Work η Result)}
    (runs : ∀ run, runStep = some run → ∀ line, Guest H (run line)) (line : Text) :
    Guest H (runLine commands runStep line) := by
  unfold runLine
  split
  · exact guest_done _
  · exact guest_bind (guest_update (fun _ _ => rfl) fun _ => rfl) fun _ =>
      guest_answer passive runs line.strip _

/-- A line has the same course and the same result, whatever is around the interpreter. -/
theorem guest_run (passive : commands.Passive) (depth : Nat) (line : Text) :
    Guest H (run commands depth line) := by
  induction depth generalizing line with
  | zero => exact guest_runLine passive (fun _ none => by cases none) line
  | succ depth ih =>
    apply guest_runLine passive _ line
    intro run same line
    rw [← Option.some.inj same]
    exact ih line

/-- What `execute` does when it has the lock. -/
def locked (commands : CommandSet η) (line : Text) : Work η Result :=
  (run commands depthBound line).andFinally giveBack

theorem holding_locked (passive : commands.Passive) (line : Text) :
    (locked commands line).Holding :=
  (guest_run (H := fun (_ : Unit) _ _ => True) passive depthBound line).solitary.holding

theorem hosted_execute (passive : commands.Passive) (line : Text) :
    Hosted H (execute commands line) :=
  fun _ _ _ now => .acquire now fun k m n now =>
    ((guest_run passive depthBound line).hosted k m n now).andFinally fun _ _ _ now =>
      .giveBack now

end Interpreter

end GatedConsole
