import GatedConsole.Task.Program

/-!
Programs under way, on a floor that they share.

A thread is a program that still runs, one that waits for its parts, or one that has ended. A thread
is found by its address: the numbers of the parts that lead to it from the first program. Ready
threads have tickets in a queue. One that pauses gets a ticket at its end; one that finds the lock
held waits in a second queue, and the lock is handed on to the first of those when it is given back.
Nothing else interrupts a program. When a part has ended, its whole is told in a turn of its own,
and when it has been told of all its parts it gets a ticket. Main statement: whatever a ticket does
to a thread leaves less of it, in a well-founded order.
-/

set_option autoImplicit false
set_option relaxedAutoImplicit false

namespace GatedConsole

abbrev Address := List Nat

/-- What is to be done in a turn. -/
inductive Ticket where
  | resume (address : Address)
  /-- A part of the thread has ended. -/
  | tell (address : Address)
deriving DecidableEq

/-- What programs share: the state, the lock, the queue of tickets, and who waits for the lock. -/
structure Floor (σ : Type) where
  state : σ
  held : Bool := false
  ready : List Ticket := []
  waiting : List Address := []

namespace Floor

variable {σ : Type}

def queue (floor : Floor σ) (tickets : List Ticket) : Floor σ :=
  { floor with ready := floor.ready ++ tickets }

/-- The thread at an address has ended; its whole, if it is a part, will be told. -/
def leave (floor : Floor σ) (address : Address) : Floor σ :=
  if address = [] then floor else floor.queue [.tell address.dropLast]

end Floor

inductive Thread (ε σ : Type) : Type → Type 1 where
  | running {α : Type} (p : Program ε σ α) : Thread ε σ α
  /-- Waits for its parts; of `untold` of them it has not been told that they ended. -/
  | joining {α β : Type} (count untold : Nat) (parts : Fin count → Thread ε σ β)
      (next : List (Ending ε β) → Program ε σ α) : Thread ε σ α
  | ended {α : Type} (ending : Ending ε α) : Thread ε σ α

/-- Runs the program of the thread at `address` until it ends, pauses or has to wait. -/
def Program.advance {ε σ α : Type} (address : Address) :
    Program ε σ α → Floor σ → Thread ε σ α × Floor σ
  | .done a, floor => (.ended (.done a), floor.leave address)
  | .escape e, floor => (.ended (.escaped e), floor.leave address)
  | .look next, floor => (next floor.state).advance address floor
  | .keep s next, floor => next.advance address { floor with state := s }
  | .pause next, floor => (.running next, floor.queue [.resume address])
  | .acquire next, floor =>
    if floor.held then (.running next, { floor with waiting := floor.waiting ++ [address] })
    else next.advance address { floor with held := true }
  | .release next, floor =>
    match floor.waiting with
    | [] => next.advance address { floor with held := false }
    | first :: waiting =>
      next.advance address ({ floor with waiting := waiting }.queue [.resume first])
  | .fork count part next, floor =>
    if count = 0 then (next []).advance address floor
    else
      (.joining count count (fun i => .running (part i)) next,
        floor.queue ((List.range count).map fun i => .resume (address ++ [i])))

namespace Thread

variable {ε σ α β : Type}

def ending : Thread ε σ α → Ending ε α
  | .ended ending => ending
  | _ => .stuck

/-- The thread goes on; one whose parts have not all ended does not. -/
def goOn (address : Address) {α : Type} : Thread ε σ α → Floor σ → Thread ε σ α × Floor σ
  | .running p, floor => p.advance address floor
  | .joining _ 0 parts next, floor =>
    (next (List.ofFn fun i => (parts i).ending)).advance address floor
  | t, floor => (t, floor)

/-- The thread is told that one more of its parts has ended. -/
def hear (address : Address) {α : Type} : Thread ε σ α → Floor σ → Thread ε σ α × Floor σ
  | .joining count (untold + 1) parts next, floor =>
    (.joining count untold parts next,
      if untold = 0 then floor.queue [.resume address] else floor)
  | t, floor => (t, floor)

/-- The parts with another one in the place of one of them. -/
def replace {τ : Type 1} {count : Nat} (parts : Fin count → τ) (i : Fin count) (t : τ) :
    Fin count → τ :=
  fun j => if j = i then t else parts j

/-- Does something to the thread at an address, if there is one. -/
def visit (act : {α : Type} → Thread ε σ α → Floor σ → Thread ε σ α × Floor σ) {α : Type} :
    Address → Thread ε σ α → Floor σ → Thread ε σ α × Floor σ
  | [], t, floor => act t floor
  | i :: rest, .joining count untold parts next, floor =>
    if h : i < count then
      let (t, floor) := visit act rest (parts ⟨i, h⟩) floor
      (.joining count untold (replace parts ⟨i, h⟩ t) next, floor)
    else (.joining count untold parts next, floor)
  | _ :: _, t, floor => (t, floor)

/-- Does what a ticket says. -/
def obey (t : Thread ε σ α) (ticket : Ticket) (floor : Floor σ) : Thread ε σ α × Floor σ :=
  match ticket with
  | .resume address => visit (goOn address) address t floor
  | .tell address => visit (hear address) address t floor

end Thread

/-! ## What gets less -/

namespace Program

variable {ε σ α : Type}

/-- `Rest p q` says that `p` is what is left of `q` after one move. -/
inductive Rest : Program ε σ α → Program ε σ α → Prop
  | look (next : σ → Program ε σ α) (s : σ) : Rest (next s) (.look next)
  | keep (s : σ) (next : Program ε σ α) : Rest next (.keep s next)
  | pause (next : Program ε σ α) : Rest next (.pause next)
  | acquire (next : Program ε σ α) : Rest next (.acquire next)
  | release (next : Program ε σ α) : Rest next (.release next)
  | fork {β : Type} (count : Nat) (part : Fin count → Program ε σ β)
      (next : List (Ending ε β) → Program ε σ α) (endings : List (Ending ε β)) :
      Rest (next endings) (.fork count part next)

/-- `Later p q` says that `p` is what is left of `q` after some moves, at least one. -/
abbrev Later : Program ε σ α → Program ε σ α → Prop := Relation.TransGen Rest

theorem later_of_rest {p q r : Program ε σ α} (h : Rest q r) (h' : p = q ∨ Later p q) :
    Later p r := by
  rcases h' with rfl | h'
  · exact .single h
  · exact .tail h' h

theorem eq_or_later_of_later {p r : Program ε σ α} (h : Later p r) :
    ∃ q, Rest q r ∧ (p = q ∨ Later p q) := by
  cases h with
  | single h => exact ⟨_, h, .inl rfl⟩
  | tail h h' => exact ⟨_, h', .inr h⟩

end Program

/-- One place of a list has become less, and the others are as they were. -/
inductive OneLess {τ : Type 1} (r : τ → τ → Prop) : List τ → List τ → Prop
  | head {a b : τ} (l : List τ) : r a b → OneLess r (a :: l) (b :: l)
  | tail (a : τ) {l m : List τ} : OneLess r l m → OneLess r (a :: l) (a :: m)

namespace OneLess

variable {τ : Type 1} {r : τ → τ → Prop}

private theorem acc_cons {b : τ} (hb : Acc r b) {m : List τ} (hm : Acc (OneLess r) m) :
    Acc (OneLess r) (b :: m) := by
  induction hb generalizing m with
  | intro b _ ihb =>
    induction hm with
    | intro m hm ihm =>
      constructor
      intro l h
      cases h with
      | head _ less => exact ihb _ less ⟨_, hm⟩
      | tail _ less => exact ihm _ less

theorem acc {l : List τ} (h : ∀ a ∈ l, Acc r a) : Acc (OneLess r) l := by
  induction l with
  | nil => exact ⟨_, fun _ h => nomatch h⟩
  | cons a l ih =>
    exact acc_cons (h a List.mem_cons_self) (ih fun b mem => h b (List.mem_cons_of_mem a mem))

theorem set {l : List τ} {i : Nat} {a b : τ} (h : l[i]? = some b) (less : r a b) :
    OneLess r (l.set i a) l := by
  induction l generalizing i with
  | nil => simp at h
  | cons c l ih =>
    cases i with
    | zero =>
      simp only [List.getElem?_cons_zero, Option.some.injEq] at h
      exact h ▸ .head l less
    | succ i => exact .tail c (ih h)

end OneLess

namespace Thread

variable {ε σ α β : Type}

open Program

/-- `Less t u` says that `t` is what is left of `u` after something was done to it. -/
inductive Less : {α : Type} → Thread ε σ α → Thread ε σ α → Prop
  | ended {α : Type} (e : Ending ε α) (p : Program ε σ α) : Less (.ended e) (.running p)
  | moved {α : Type} {p q : Program ε σ α} (h : Later p q) : Less (.running p) (.running q)
  | split {α β : Type} {count : Nat} {part : Fin count → Program ε σ β}
      {next : List (Ending ε β) → Program ε σ α} {q : Program ε σ α}
      (h : .fork count part next = q ∨ Later (.fork count part next) q) :
      Less (.joining count count (fun i => .running (part i)) next) (.running q)
  | part {α β : Type} {count untold : Nat} {parts : Fin count → Thread ε σ β}
      {next : List (Ending ε β) → Program ε σ α} {t : Thread ε σ β} (i : Fin count)
      (less : Less t (parts i)) :
      Less (.joining count untold (replace parts i t) next) (.joining count untold parts next)
  | told {α β : Type} {count untold : Nat} {parts : Fin count → Thread ε σ β}
      {next : List (Ending ε β) → Program ε σ α} :
      Less (.joining count untold parts next) (.joining count (untold + 1) parts next)
  | woken {α β : Type} {count untold : Nat} {parts : Fin count → Thread ε σ β}
      {next : List (Ending ε β) → Program ε σ α} {t : Thread ε σ α} (endings : List (Ending ε β))
      (less : Less t (.running (next endings))) : Less t (.joining count untold parts next)

theorem less_of_rest {t : Thread ε σ α} {p q : Program ε σ α} (h : Rest p q)
    (less : Less t (.running p)) : Less t (.running q) := by
  cases less with
  | ended e => exact .ended e q
  | moved later => exact .moved (later_of_rest h (.inr later))
  | split later => exact .split (.inr (later_of_rest h later))

theorem ofFn_replace {τ : Type 1} {count : Nat} (parts : Fin count → τ) (i : Fin count) (t : τ) :
    List.ofFn (replace parts i t) = (List.ofFn parts).set i t := by
  apply List.ext_getElem
  · simp
  · intro j h h'
    simp only [List.getElem_ofFn, List.getElem_set, replace, Fin.ext_iff]
    by_cases same : i.val = j
    · rw [if_pos same, if_pos same.symm]
    · rw [if_neg same, if_neg fun h => same h.symm]

theorem replace_self {τ : Type 1} {count : Nat} (parts : Fin count → τ) (i : Fin count) :
    replace parts i (parts i) = parts := by
  funext j
  simp only [replace]
  split <;> simp_all

theorem acc_ended (e : Ending ε α) : Acc Less (.ended e : Thread ε σ α) :=
  ⟨_, fun _ h => nomatch h⟩

private theorem acc_joining_of {count untold : Nat} {next : List (Ending ε β) → Program ε σ α}
    (hn : ∀ endings, Acc Less (.running (next endings)))
    (fewer : ∀ n, untold = n + 1 → ∀ parts : Fin count → Thread ε σ β,
      (∀ i, Acc Less (parts i)) → Acc Less (.joining count n parts next))
    {parts : Fin count → Thread ε σ β} (hp : ∀ i, Acc Less (parts i)) :
    Acc Less (.joining count untold parts next) := by
  have all : Acc (OneLess Less) (List.ofFn parts) := OneLess.acc (by simpa [List.mem_ofFn] using hp)
  generalize same : List.ofFn parts = l at all
  induction all generalizing parts with
  | intro l _ ih =>
    subst same
    constructor
    intro t h
    cases h with
    | part i less =>
      refine ih _ ?_ (fun j => ?_) rfl
      · rw [ofFn_replace]
        exact OneLess.set (by simp) less
      · simp only [replace]
        split
        · exact (hp i).inv less
        · exact hp j
    | told => exact fewer _ rfl parts hp
    | woken endings less => exact (hn endings).inv less

private theorem acc_joining {count : Nat} {next : List (Ending ε β) → Program ε σ α}
    (hn : ∀ endings, Acc Less (.running (next endings))) (untold : Nat)
    {parts : Fin count → Thread ε σ β} (hp : ∀ i, Acc Less (parts i)) :
    Acc Less (.joining count untold parts next) := by
  induction untold generalizing parts with
  | zero => exact acc_joining_of hn (fun _ h => absurd h (by omega)) hp
  | succ untold ih =>
    exact acc_joining_of hn (fun n h parts hp => Nat.succ.inj h ▸ ih hp) hp

private theorem acc_step {q : Program ε σ α}
    (hr : ∀ p, Rest p q → Acc Less (.running p))
    (hf : ∀ {β : Type} {count : Nat} {part : Fin count → Program ε σ β}
      {next : List (Ending ε β) → Program ε σ α}, .fork count part next = q →
        Acc Less (.joining count count (fun i => .running (part i)) next)) :
    Acc Less (.running q) := by
  constructor
  intro t h
  cases h with
  | ended e => exact acc_ended e
  | moved later =>
    obtain ⟨p, rest, rfl | later⟩ := eq_or_later_of_later later
    · exact hr _ rest
    · exact (hr p rest).inv (.moved later)
  | split later =>
    rcases later with same | later
    · exact hf same
    · obtain ⟨p, rest, same⟩ := eq_or_later_of_later later
      exact (hr p rest).inv (.split same)

private theorem acc_running (p : Program ε σ α) : Acc Less (.running p) := by
  induction p with
  | done a => exact acc_step (fun _ h => nomatch h) (fun h => nomatch h)
  | escape e => exact acc_step (fun _ h => nomatch h) (fun h => nomatch h)
  | look next ih =>
    exact acc_step (fun _ h => by cases h; exact ih _) (fun h => nomatch h)
  | keep s next ih => exact acc_step (fun _ h => by cases h; exact ih) (fun h => nomatch h)
  | pause next ih => exact acc_step (fun _ h => by cases h; exact ih) (fun h => nomatch h)
  | acquire next ih => exact acc_step (fun _ h => by cases h; exact ih) (fun h => nomatch h)
  | release next ih => exact acc_step (fun _ h => by cases h; exact ih) (fun h => nomatch h)
  | fork count part next ihp ihn =>
    exact acc_step (fun _ h => by cases h; exact ihn _)
      (fun h => by cases h; exact acc_joining ihn _ ihp)

theorem less_wellFounded : WellFounded (Less (ε := ε) (σ := σ) (α := α)) := by
  constructor
  intro t
  suffices ∀ {γ : Type} (t : Thread ε σ γ), Acc Less t from this t
  intro γ t
  induction t with
  | running p => exact acc_running p
  | joining count untold parts next ih => exact acc_joining (fun _ => acc_running _) untold ih
  | ended e => exact acc_ended e

/-- A program that has its turn leaves less of its thread. -/
theorem advance_less (p : Program ε σ α) (address : Address) (floor : Floor σ) :
    Less (p.advance address floor).1 (.running p) := by
  induction p generalizing floor with
  | done a => exact .ended _ _
  | escape e => exact .ended _ _
  | look next ih => exact less_of_rest (.look next floor.state) (ih _ _)
  | keep s next ih => exact less_of_rest (.keep s next) (ih _)
  | pause next ih => exact .moved (.single (.pause next))
  | acquire next ih =>
    unfold advance
    split
    · exact .moved (.single (.acquire next))
    · exact less_of_rest (.acquire next) (ih _)
  | release next ih =>
    unfold advance
    split
    · exact less_of_rest (.release next) (ih _)
    · exact less_of_rest (.release next) (ih _)
  | fork count part next _ ih =>
    unfold advance
    split
    · exact less_of_rest (.fork count part next []) (ih [] _)
    · exact .split (.inl rfl)

theorem goOn_less (address : Address) (t : Thread ε σ α) (floor : Floor σ) :
    t.goOn address floor = (t, floor) ∨ Less (t.goOn address floor).1 t := by
  unfold goOn
  split
  · exact .inr (advance_less _ _ _)
  · exact .inr (.woken _ (advance_less _ _ _))
  · exact .inl rfl

theorem hear_less (address : Address) (t : Thread ε σ α) (floor : Floor σ) :
    t.hear address floor = (t, floor) ∨ Less (t.hear address floor).1 t := by
  unfold hear
  split
  · exact .inr .told
  · exact .inl rfl

theorem visit_less {act : {α : Type} → Thread ε σ α → Floor σ → Thread ε σ α × Floor σ}
    (h : ∀ {α : Type} (t : Thread ε σ α) (floor : Floor σ),
      act t floor = (t, floor) ∨ Less (act t floor).1 t)
    (address : Address) {α : Type} (t : Thread ε σ α) (floor : Floor σ) :
    visit act address t floor = (t, floor) ∨ Less (visit act address t floor).1 t := by
  induction address generalizing α with
  | nil => exact h t floor
  | cons i rest ih =>
    cases t with
    | running p => exact .inl rfl
    | ended e => exact .inl rfl
    | joining count untold parts next =>
      unfold visit
      split
      · rename_i inside
        rcases ih (parts ⟨i, inside⟩) with same | less
        · left
          simp [same, replace_self]
        · exact .inr (.part _ less)
      · exact .inl rfl

/-- A ticket changes nothing at all, or leaves less of the thread. -/
theorem obey_less (ticket : Ticket) (t : Thread ε σ α) (floor : Floor σ) :
    t.obey ticket floor = (t, floor) ∨ Less (t.obey ticket floor).1 t := by
  cases ticket with
  | resume address => exact visit_less (goOn_less address) address t floor
  | tell address => exact visit_less (hear_less address) address t floor

end Thread

end GatedConsole
