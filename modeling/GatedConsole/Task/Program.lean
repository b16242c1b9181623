/-!
Programs that share a state and a lock, and may be suspended between two of their moves.

A program looks at the state, puts a new one in its place, pauses, takes the lock and gives it back,
starts parts and waits for all of them, and in the end yields a value or breaks off. Main
statements: programs form a lawful monad, and a program that runs alone does one part after the
other.
-/

set_option autoImplicit false
set_option relaxedAutoImplicit false

namespace GatedConsole

/-- How a program ended. One that waits for a lock that is never given back is stuck. -/
inductive Ending (ε α : Type) where
  | done (value : α)
  | escaped (cause : ε)
  | stuck
deriving DecidableEq

inductive Program (ε σ : Type) : Type → Type 1 where
  | done {α : Type} (value : α) : Program ε σ α
  | escape {α : Type} (cause : ε) : Program ε σ α
  | look {α : Type} (next : σ → Program ε σ α) : Program ε σ α
  | keep {α : Type} (state : σ) (next : Program ε σ α) : Program ε σ α
  | pause {α : Type} (next : Program ε σ α) : Program ε σ α
  | acquire {α : Type} (next : Program ε σ α) : Program ε σ α
  | release {α : Type} (next : Program ε σ α) : Program ε σ α
  /-- Starts programs and goes on when all of them have ended. -/
  | fork {α β : Type} (count : Nat) (part : Fin count → Program ε σ β)
      (next : List (Ending ε β) → Program ε σ α) : Program ε σ α

namespace Program

variable {ε σ α β γ : Type}

def bind {α β : Type} : Program ε σ α → (α → Program ε σ β) → Program ε σ β
  | .done a, f => f a
  | .escape e, _ => .escape e
  | .look next, f => .look fun s => (next s).bind f
  | .keep s next, f => .keep s (next.bind f)
  | .pause next, f => .pause (next.bind f)
  | .acquire next, f => .acquire (next.bind f)
  | .release next, f => .release (next.bind f)
  | .fork count part next, f => .fork count part fun endings => (next endings).bind f

instance : Monad (Program ε σ) where
  pure := .done
  bind := bind

theorem bind_done (p : Program ε σ α) : p.bind .done = p := by
  induction p <;> simp_all [bind]

theorem bind_assoc (p : Program ε σ α) (f : α → Program ε σ β) (g : β → Program ε σ γ) :
    (p.bind f).bind g = p.bind fun a => (f a).bind g := by
  induction p <;> simp_all [bind]

instance : LawfulMonad (Program ε σ) :=
  LawfulMonad.mk' (Program ε σ)
    (fun p => bind_done p)
    (fun _ _ => rfl)
    (fun p f g => bind_assoc p f g)

def read : Program ε σ σ := .look .done

/-- One move on the state, with an answer. -/
def act (f : σ → α × σ) : Program ε σ α := .look fun s => .keep (f s).2 (.done (f s).1)

def update (f : σ → σ) : Program ε σ Unit := .look fun s => .keep (f s) (.done ())

/-- Waits its turn for the lock, and then goes on. -/
def take : Program ε σ Unit := .acquire (.done ())

def giveBack : Program ε σ Unit := .release (.done ())

def pauses : Nat → Program ε σ Unit
  | 0 => .done ()
  | n + 1 => .pause (pauses n)

/-- Starts the parts in order and waits for all of them. -/
def forkAll (parts : List (Program ε σ β)) : Program ε σ (List (Ending ε β)) :=
  .fork parts.length (fun i => parts.get i) .done

/-- The program, and behind it the cleanup, however the program ends. -/
def andFinally {α : Type} (p : Program ε σ α) (cleanup : Program ε σ Unit) : Program ε σ α :=
  match p with
  | .done a => cleanup.bind fun _ => .done a
  | .escape e => cleanup.bind fun _ => .escape e
  | .look next => .look fun s => (next s).andFinally cleanup
  | .keep s next => .keep s (next.andFinally cleanup)
  | .pause next => .pause (next.andFinally cleanup)
  | .acquire next => .acquire (next.andFinally cleanup)
  | .release next => .release (next.andFinally cleanup)
  | .fork count part next => .fork count part fun endings => (next endings).andFinally cleanup

/-- One program for every element, one after the other. -/
def forEach (f : β → Program ε σ α) : List β → Program ε σ (List α)
  | [] => .done []
  | b :: rest => do
    let a ← f b
    let as ← forEach f rest
    pure (a :: as)

/-- A program that runs alone: how it ends, whether the lock is held, and the state. One that starts
parts is not alone, and counts as stuck. -/
def alone {α : Type} : Program ε σ α → Bool → σ → Ending ε α × Bool × σ
  | .done a, held, s => (.done a, held, s)
  | .escape e, held, s => (.escaped e, held, s)
  | .look next, held, s => (next s).alone held s
  | .keep s next, held, _ => next.alone held s
  | .pause next, held, s => next.alone held s
  | .acquire next, held, s => if held then (.stuck, held, s) else next.alone true s
  | .release next, _, s => next.alone false s
  | .fork count _ next, held, s =>
    if count = 0 then (next []).alone held s else (.stuck, held, s)

@[simp] theorem alone_done (a : α) (held : Bool) (s : σ) :
    (Program.done (ε := ε) a).alone held s = (.done a, held, s) := rfl

/-- A program runs its first part to the end, and the second part from there. -/
theorem alone_bind (p : Program ε σ α) (f : α → Program ε σ β) (held : Bool) (s : σ) :
    (p.bind f).alone held s =
      match p.alone held s with
      | (.done a, held, s) => (f a).alone held s
      | (.escaped e, held, s) => (.escaped e, held, s)
      | (.stuck, held, s) => (.stuck, held, s) := by
  induction p generalizing held s with
  | done a => rfl
  | escape e => rfl
  | look next ih => exact ih s f held s
  | keep s' next ih => exact ih f held s'
  | pause next ih => exact ih f held s
  | acquire next ih =>
    cases held with
    | false => exact ih f true s
    | true => rfl
  | release next ih => exact ih f false s
  | fork count part next _ ih =>
    simp only [bind, alone]
    split
    · exact ih [] f held s
    · rfl

/-- The cleanup runs behind a value and behind a break alike. -/
theorem alone_andFinally (p : Program ε σ α) (cleanup : Program ε σ Unit) (held : Bool) (s : σ) :
    (p.andFinally cleanup).alone held s =
      match p.alone held s with
      | (.done a, held, s) => (cleanup.bind fun _ => .done a).alone held s
      | (.escaped e, held, s) => (cleanup.bind fun _ => .escape e).alone held s
      | (.stuck, held, s) => (.stuck, held, s) := by
  induction p generalizing held s with
  | done a => rfl
  | escape e => rfl
  | look next ih => exact ih s held s
  | keep s' next ih => exact ih held s'
  | pause next ih => exact ih held s
  | acquire next ih =>
    cases held with
    | false => exact ih true s
    | true => rfl
  | release next ih => exact ih false s
  | fork count part next _ ih =>
    simp only [andFinally, alone]
    split
    · exact ih [] held s
    · rfl

end Program

end GatedConsole
