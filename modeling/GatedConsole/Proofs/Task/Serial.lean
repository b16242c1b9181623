import GatedConsole.Proofs.Task.Locked
import GatedConsole.Task.Loop
import Mathlib.Data.List.FinRange

/-!
Parts that queue for one lock. Each does something of its own before it asks for the lock, and that
is allowed to come early: the parts before it do the same whether it has happened or not. Main
statement: run together, the parts end as they do one after the other, in the same state.
-/

set_option autoImplicit false
set_option relaxedAutoImplicit false

namespace GatedConsole

variable {ε σ α β : Type} {n : Nat}

open Program

/-- From the guarded state `s`, the state `t` is `s` with the opening done or not. -/
def Shifted (guard : σ → Prop) (opening : σ → σ) (opened : Bool) (s t : σ) : Prop :=
  guard s ∧ t = if opened then opening s else s

/-- Programs that contend for the lock. -/
structure Contenders (ε σ β : Type) (n : Nat) where
  part : Fin n → Program ε σ β
  /-- What holds until the part opens. -/
  guard : Fin n → σ → Prop
  /-- What the part does before it asks for the lock. -/
  opening : Fin n → σ → σ
  behind : Fin n → Program ε σ β
  opens : ∀ i s, guard i s → (part i).Reaches s (behind i) (opening i s)
  standby : ∀ i, (behind i).Standby
  apart : ∀ i j, i < j → ∀ k s t, Shifted (guard j) (opening j) k s t →
    Alike (Shifted (guard j) (opening j)) k (part i) s (part i) t

namespace Contenders

/-- Runs programs alone, one after the other. -/
def inTurn : List (Program ε σ β) → σ → List (Ending ε β) × σ
  | [], s => ([], s)
  | p :: rest, s =>
    let (ending, _, s) := p.alone false s
    let (endings, s) := inTurn rest s
    (ending :: endings, s)

/-- The relation for the time around the opening of a part. -/
abbrev Around (c : Contenders ε σ β n) (j : Fin n) : Bool → σ → σ → Prop :=
  Shifted (c.guard j) (c.opening j)

theorem around_self {c : Contenders ε σ β n} {j : Fin n} {s : σ} (h : c.guard j s) :
    c.Around j false s s :=
  ⟨h, rfl⟩

/-- Run alone one after the other from `s`, the programs end as foretold, and the last of them
in `t`. -/
def Plays (final : Fin n → Ending ε β) (held : Bool) :
    List (Fin n × Program ε σ β) → σ → σ → Prop
  | [], s, t => s = t
  | (i, p) :: rest, s, t =>
    (p.alone held s).1 = final i ∧ Plays final held rest (p.alone held s).2.2 t

theorem plays_append {final : Fin n → Ending ε β} {held : Bool}
    {first second : List (Fin n × Program ε σ β)} {s t : σ} :
    Plays final held (first ++ second) s t ↔
      ∃ u, Plays final held first s u ∧ Plays final held second u t := by
  induction first generalizing s with
  | nil => simp [Plays]
  | cons one first ih => simp [Plays, ih, and_assoc]

/-- The tickets in the queue: one of the thread that has the lock, those of the parts that have not
opened, in order, and those that tell of ended parts. -/
inductive Queue : List Ticket → Option (Fin n) → List (Fin n) → Nat → Prop
  | nil : Queue [] none [] 0
  | holder {queue : List Ticket} {fresh : List (Fin n)} {told : Nat} (i : Fin n)
      (h : Queue queue none fresh told) : Queue (.resume [i.val] :: queue) (some i) fresh told
  | fresh {queue : List Ticket} {holder : Option (Fin n)} {fresh : List (Fin n)} {told : Nat}
      (i : Fin n) (h : Queue queue holder fresh told) :
      Queue (.resume [i.val] :: queue) holder (i :: fresh) told
  | tell {queue : List Ticket} {holder : Option (Fin n)} {fresh : List (Fin n)} {told : Nat}
      (h : Queue queue holder fresh told) : Queue (.tell [] :: queue) holder fresh (told + 1)

namespace Queue

theorem of_fresh (fresh : List (Fin n)) :
    Queue (fresh.map fun i => .resume [i.val]) none fresh 0 := by
  induction fresh with
  | nil => exact .nil
  | cons i fresh ih => exact .fresh i ih

theorem append_tell {queue : List Ticket} {holder : Option (Fin n)} {fresh : List (Fin n)}
    {told : Nat} (h : Queue queue holder fresh told) :
    Queue (queue ++ [.tell []]) holder fresh (told + 1) := by
  induction h with
  | nil => exact .tell .nil
  | holder i _ ih => exact .holder i ih
  | fresh i _ ih => exact .fresh i ih
  | tell _ ih => exact .tell ih

theorem append_holder {queue : List Ticket} {fresh : List (Fin n)} {told : Nat} (i : Fin n)
    (h : Queue queue none fresh told) :
    Queue (queue ++ [.resume [i.val]]) (some i) fresh told := by
  generalize nobody : (none : Option (Fin n)) = holder at h
  induction h with
  | nil => exact .holder i .nil
  | holder => cases nobody
  | fresh j _ ih => exact .fresh j (ih nobody)
  | tell _ ih => exact .tell (ih nobody)

end Queue

/-- Threads and floor at some time: `holders` have opened and not ended, and the first of them has
the lock; `fresh` have not opened. One after the other they will end as foretold. -/
structure Serving (c : Contenders ε σ β n) (final : Fin n → Ending ε β) (last : σ)
    (holders : List (Fin n × Program ε σ β)) (fresh : List (Fin n))
    (threads : Fin n → Thread ε σ β) (floor : Floor σ) : Prop where
  order : (holders.map (·.1) ++ fresh).Pairwise (· < ·)
  holding : ∀ h ∈ holders, h.2.Holding ∧ threads h.1 = .running h.2
  untouched : ∀ i ∈ fresh, threads i = .running (c.part i)
  finished : ∀ i, i ∉ holders.map (·.1) → i ∉ fresh → threads i = .ended (final i)
  held : floor.held = !holders.isEmpty
  waiting : floor.waiting = holders.tail.map fun h => [h.1.val]
  guarded : ∀ j ∈ fresh, c.guard j floor.state
  apart : ∀ j ∈ fresh, ∀ h ∈ holders, ∀ k s t, c.Around j k s t → Alike (c.Around j) k h.2 s h.2 t
  foretold : ∃ u, Plays final true holders floor.state u ∧
    Plays final false (fresh.map fun i => (i, c.part i)) u last

namespace Serving

variable {c : Contenders ε σ β n} {final : Fin n → Ending ε β} {last : σ}
  {holders rest : List (Fin n × Program ε σ β)} {fresh : List (Fin n)} {i : Fin n}
  {r next : Program ε σ β} {threads : Fin n → Thread ε σ β} {floor : Floor σ} {t : σ}

private theorem replace_at (threads : Fin n → Thread ε σ β) (i : Fin n) (new : Thread ε σ β) :
    Thread.replace threads i new i = new :=
  if_pos rfl

private theorem replace_of_ne {j : Fin n} (other : j ≠ i) (new : Thread ε σ β) :
    Thread.replace threads i new j = threads j :=
  if_neg other

private theorem holds_alike (h : Serving c final last ((i, r) :: rest) fresh threads floor)
    {j : Fin n} (mem : j ∈ fresh) : Alike (c.Around j) false r floor.state r floor.state :=
  h.apart j mem (i, r) List.mem_cons_self false _ _ (around_self (h.guarded j mem))

private theorem order_cons (h : Serving c final last ((i, r) :: rest) fresh threads floor) :
    (∀ j ∈ rest.map (·.1) ++ fresh, i < j) ∧ (rest.map (·.1) ++ fresh).Pairwise (· < ·) :=
  List.pairwise_cons.1 h.order

private theorem ne_of_mem_rest (h : Serving c final last ((i, r) :: rest) fresh threads floor)
    {other : Fin n × Program ε σ β} (mem : other ∈ rest) : other.1 ≠ i :=
  Fin.ne_of_gt (h.order_cons.1 _ (List.mem_append_left _ (List.mem_map_of_mem mem)))

private theorem ne_of_mem_fresh (h : Serving c final last ((i, r) :: rest) fresh threads floor)
    {j : Fin n} (mem : j ∈ fresh) : j ≠ i :=
  Fin.ne_of_gt (h.order_cons.1 j (List.mem_append_right _ mem))

/-- The first holder pauses and keeps the lock. -/
private theorem paused (h : Serving c final last ((i, r) :: rest) fresh threads floor)
    (way : r.Reaches floor.state (.pause next) t) (next_holding : next.Holding)
    (ready : List Ticket) :
    Serving c final last ((i, next) :: rest) fresh (Thread.replace threads i (.running next))
      { floor with state := t, ready := ready } := by
  refine ⟨h.order, ?_, ?_, ?_, h.held, h.waiting, ?_, ?_, ?_⟩
  · intro holder mem
    rcases List.mem_cons.1 mem with rfl | mem
    · exact ⟨next_holding, replace_at threads i _⟩
    · obtain ⟨holding, running⟩ := h.holding holder (List.mem_cons_of_mem _ mem)
      exact ⟨holding, (replace_of_ne (h.ne_of_mem_rest mem) _).trans running⟩
  · intro j mem
    exact (replace_of_ne (h.ne_of_mem_fresh mem) _).trans (h.untouched j mem)
  · intro j no_holder not_fresh
    have other : j ≠ i := fun same => no_holder (by simp [same])
    exact (replace_of_ne other _).trans (h.finished j no_holder not_fresh)
  · intro j mem
    cases way.alike (h.holds_alike mem) with
    | pause now later => exact now.1
  · intro j mem holder among
    rcases List.mem_cons.1 among with rfl | among
    · cases way.alike (h.holds_alike mem) with
      | pause now later => exact later
    · exact h.apart j mem holder (List.mem_cons_of_mem _ among)
  · obtain ⟨u, ⟨ends, plays⟩, others⟩ := h.foretold
    rw [way.alone_eq true] at ends plays
    exact ⟨u, ⟨ends, plays⟩, others⟩

/-- The first holder gives the lock back and ends. -/
private theorem released (h : Serving c final last ((i, r) :: rest) fresh threads floor)
    (way : r.Reaches floor.state (.release next) t) (ready : List Ticket) :
    Serving c final last rest fresh
      (Thread.replace threads i (.ended (next.alone false t).1))
      { state := (next.alone false t).2.2, held := !rest.isEmpty, ready := ready,
        waiting := rest.tail.map fun h => [h.1.val] } := by
  obtain ⟨u, ⟨ends, plays⟩, others⟩ := h.foretold
  rw [way.alone_eq true] at ends plays
  refine ⟨h.order_cons.2, ?_, ?_, ?_, rfl, rfl, ?_, ?_, ⟨u, plays, others⟩⟩
  · intro holder mem
    obtain ⟨holding, running⟩ := h.holding holder (List.mem_cons_of_mem _ mem)
    exact ⟨holding, (replace_of_ne (h.ne_of_mem_rest mem) _).trans running⟩
  · intro j mem
    exact (replace_of_ne (h.ne_of_mem_fresh mem) _).trans (h.untouched j mem)
  · intro j no_holder not_fresh
    by_cases same : j = i
    · rw [same, replace_at]
      exact congrArg Thread.ended ends
    · rw [replace_of_ne same]
      exact h.finished j (by simpa [same] using no_holder) not_fresh
  · intro j mem
    cases way.alike (h.holds_alike mem) with
    | release after => exact (after.alone false).2.1
  · intro j mem holder among
    exact h.apart j mem holder (List.mem_cons_of_mem _ among)

/-- In its turn the first holder pauses, or ends and hands the lock on. -/
private theorem serve {told : Nat}
    (h : Serving c final last ((i, r) :: rest) fresh threads floor)
    (queue : Queue floor.ready none fresh told) :
    ∃ holders told', holders.length + told' = rest.length + 1 + told ∧
      Serving c final last holders fresh
        (Thread.replace threads i (r.advance [i.val] floor).1) (r.advance [i.val] floor).2 ∧
      Queue (r.advance [i.val] floor).2.ready (holders.head?.map (·.1)) fresh told' := by
  obtain ⟨next, t, way, next_holding⟩ | ⟨next, t, way, prompt⟩ :=
    (h.holding _ List.mem_cons_self).1.reaches floor.state
  · rw [show r.advance [i.val] floor = _ from way.advance_eq [i.val] floor]
    exact ⟨(i, next) :: rest, told, rfl, h.paused way next_holding _, queue.append_holder i⟩
  · rw [show r.advance [i.val] floor = _ from way.advance_eq [i.val] floor]
    have waits := h.waiting
    have has := h.held
    have finished := h.released way
    cases rest with
    | nil =>
      simp only [Program.advance, waits, List.tail_cons, List.map_nil,
        prompt.advance_eq false]
      exact ⟨[], told + 1, by simp; omega, finished _, queue.append_tell⟩
    | cons first rest =>
      simp only [Program.advance, waits, has, List.tail_cons, List.map_cons,
        prompt.advance_eq false]
      exact ⟨first :: rest, told + 1, by simp; omega, finished _,
        (queue.append_holder first.1).append_tell⟩

/-- The holders play alike whether the part has opened or not. -/
private theorem plays_opening {s u : σ}
    (apart : ∀ h ∈ holders, ∀ k s t, c.Around i k s t → Alike (c.Around i) k h.2 s h.2 t)
    (now : c.guard i s) (plays : Plays final true holders s u) :
    c.guard i u ∧ Plays final true holders (c.opening i s) (c.opening i u) := by
  induction holders generalizing s with
  | nil =>
    cases plays
    exact ⟨now, rfl⟩
  | cons first rest ih =>
    obtain ⟨ends, plays⟩ := plays
    have both : c.Around i true s (c.opening i s) := ⟨now, rfl⟩
    obtain ⟨same, after, shifted⟩ := (apart first List.mem_cons_self true _ _ both).alone true
    obtain ⟨last_guard, others⟩ :=
      ih (fun h mem => apart h (List.mem_cons_of_mem _ mem)) after plays
    rw [if_pos rfl] at shifted
    exact ⟨last_guard, same.symm.trans ends, by rwa [shifted]⟩

private theorem foretold_opened (h : Serving c final last holders (i :: fresh) threads floor) :
    ∃ u, Plays final true holders (c.opening i floor.state) u ∧
      ((c.behind i).alone false u).1 = final i ∧
      Plays final false (fresh.map fun j => (j, c.part j)) ((c.behind i).alone false u).2.2
        last := by
  obtain ⟨u, plays, ends, others⟩ := h.foretold
  obtain ⟨then_guarded, shifted⟩ :=
    plays_opening (h.apart i List.mem_cons_self) (h.guarded i List.mem_cons_self) plays
  have way := c.opens i u then_guarded
  rw [way.alone_eq false] at ends others
  exact ⟨c.opening i u, shifted, ends, others⟩

private theorem lt_of_mem_fresh (h : Serving c final last holders (i :: fresh) threads floor)
    {j : Fin n} (mem : j ∈ fresh) : i < j :=
  (List.pairwise_cons.1 (List.pairwise_append.1 h.order).2.1).1 j mem

private theorem ne_of_mem_holders
    (h : Serving c final last holders (i :: fresh) threads floor)
    {other : Fin n × Program ε σ β} (mem : other ∈ holders) : other.1 ≠ i :=
  Fin.ne_of_lt ((List.pairwise_append.1 h.order).2.2 _ (List.mem_map_of_mem mem) i
    List.mem_cons_self)

private theorem behind_alike (h : Serving c final last holders (i :: fresh) threads floor)
    {j : Fin n} (mem : j ∈ fresh) :
    Alike (c.Around j) false (c.behind i) (c.opening i floor.state) (c.behind i)
      (c.opening i floor.state) := by
  have way := c.opens i floor.state (h.guarded i List.mem_cons_self)
  exact way.alike (c.apart i j (h.lt_of_mem_fresh mem) false _ _
    (around_self (h.guarded j (List.mem_cons_of_mem i mem))))

/-- A part that needs no lock has ended when it has opened. -/
private theorem left {ending : Ending ε β}
    (h : Serving c final last holders (i :: fresh) threads floor) (ends : ending = final i)
    (guarded : ∀ j ∈ fresh, c.guard j t)
    (foretold : ∃ u, Plays final true holders t u ∧
      Plays final false (fresh.map fun j => (j, c.part j)) u last) (ready : List Ticket) :
    Serving c final last holders fresh (Thread.replace threads i (.ended ending))
      { floor with state := t, ready := ready } := by
  refine ⟨h.order.sublist ((List.sublist_cons_self i fresh).append_left _), ?_, ?_, ?_, h.held,
    h.waiting, guarded, ?_, foretold⟩
  · intro holder mem
    obtain ⟨holding, running⟩ := h.holding holder mem
    exact ⟨holding, (replace_of_ne (h.ne_of_mem_holders mem) _).trans running⟩
  · intro j mem
    have other : j ≠ i := Fin.ne_of_gt (h.lt_of_mem_fresh mem)
    exact (replace_of_ne other _).trans (h.untouched j (List.mem_cons_of_mem i mem))
  · intro j no_holder not_fresh
    by_cases same : j = i
    · rw [same, replace_at, ends]
    · rw [replace_of_ne same]
      exact h.finished j no_holder (by simpa [same] using not_fresh)
  · intro j mem
    exact h.apart j (List.mem_cons_of_mem i mem)

/-- A part that has opened gets the lock, or waits for it behind the others. -/
private theorem joined (h : Serving c final last holders (i :: fresh) threads floor)
    (r_holding : r.Holding) (guarded : ∀ j ∈ fresh, c.guard j t)
    (apart : ∀ j ∈ fresh, ∀ k s t, c.Around j k s t → Alike (c.Around j) k r s r t)
    (foretold : ∃ u, Plays final true (holders ++ [(i, r)]) t u ∧
      Plays final false (fresh.map fun j => (j, c.part j)) u last) (ready : List Ticket) :
    Serving c final last (holders ++ [(i, r)]) fresh (Thread.replace threads i (.running r))
      { state := t, held := true, ready := ready,
        waiting := (holders ++ [(i, r)]).tail.map fun h => [h.1.val] } := by
  refine ⟨?_, ?_, ?_, ?_, ?_, rfl, guarded, ?_, foretold⟩
  · have order := h.order
    simpa using order
  · intro holder mem
    rcases List.mem_append.1 mem with mem | mem
    · obtain ⟨holding, running⟩ := h.holding holder mem
      exact ⟨holding, (replace_of_ne (h.ne_of_mem_holders mem) _).trans running⟩
    · cases List.mem_singleton.1 mem
      exact ⟨r_holding, replace_at threads i _⟩
  · intro j mem
    have other : j ≠ i := Fin.ne_of_gt (h.lt_of_mem_fresh mem)
    exact (replace_of_ne other _).trans (h.untouched j (List.mem_cons_of_mem i mem))
  · intro j no_holder not_fresh
    have other : j ≠ i := fun same => no_holder (by simp [same])
    rw [replace_of_ne other]
    refine h.finished j (fun among => no_holder ?_) (by simpa [other] using not_fresh)
    simp only [List.map_append, List.mem_append]
    exact .inl among
  · simp
  · intro j mem holder among
    rcases List.mem_append.1 among with among | among
    · exact h.apart j (List.mem_cons_of_mem i mem) holder among
    · cases List.mem_singleton.1 among
      exact apart j mem

private theorem replace_replace (threads : Fin n → Thread ε σ β) (i : Fin n)
    (old new : Thread ε σ β) :
    Thread.replace (Thread.replace threads i old) i new = Thread.replace threads i new := by
  funext j
  simp only [Thread.replace]
  split <;> rfl

/-- A part that has opened and needs the lock gets it, or waits for it. -/
private theorem opens_acquire {told : Nat}
    (h : Serving c final last holders (i :: fresh) threads floor)
    (queue : Queue floor.ready (holders.head?.map (·.1)) fresh told)
    (joins : Serving c final last (holders ++ [(i, r)]) fresh
      (Thread.replace threads i (.running r))
      { state := t, held := true, ready := floor.ready,
        waiting := (holders ++ [(i, r)]).tail.map fun h => [h.1.val] }) :
    ∃ holders' told', holders'.length + told' = holders.length + 1 + told ∧
      Serving c final last holders' fresh
        (Thread.replace threads i
          ((Program.acquire r).advance [i.val] { floor with state := t }).1)
        ((Program.acquire r).advance [i.val] { floor with state := t }).2 ∧
      Queue ((Program.acquire r).advance [i.val] { floor with state := t }).2.ready
        (holders'.head?.map (·.1)) fresh told' := by
  have has := h.held
  have waits := h.waiting
  cases holders with
  | nil =>
    have served := joins.serve queue
    rw [replace_replace] at served
    have out : (Program.acquire r).advance [i.val] { floor with state := t } =
        r.advance [i.val] ⟨t, true, floor.ready, []⟩ := by
      simp only [Program.advance, has, waits, List.isEmpty_nil, List.tail_nil, List.map_nil]
      rfl
    rw [out]
    exact served
  | cons first rest =>
    have out : (Program.acquire r).advance [i.val] { floor with state := t } =
        (.running r, ⟨t, true, floor.ready,
          (first :: rest ++ [(i, r)]).tail.map fun h => [h.1.val]⟩) := by
      simp [Program.advance, has, waits]
    rw [out]
    exact ⟨first :: rest ++ [(i, r)], told, by simp, joins, queue⟩

/-- In its first turn a part opens, and then has the lock, waits for it or has ended. -/
private theorem opens {told : Nat}
    (h : Serving c final last holders (i :: fresh) threads floor)
    (queue : Queue floor.ready (holders.head?.map (·.1)) fresh told) :
    ∃ holders' told', holders'.length + told' = holders.length + 1 + told ∧
      Serving c final last holders' fresh
        (Thread.replace threads i ((c.part i).advance [i.val] floor).1)
        ((c.part i).advance [i.val] floor).2 ∧
      Queue ((c.part i).advance [i.val] floor).2.ready (holders'.head?.map (·.1)) fresh
        told' := by
  have way := c.opens i floor.state (h.guarded i List.mem_cons_self)
  have alike := fun {j} (mem : j ∈ fresh) => h.behind_alike mem
  have foretold := h.foretold_opened
  have standby := c.standby i
  rw [show (c.part i).advance [i.val] floor = _ from way.advance_eq [i.val] floor]
  generalize c.behind i = behind at alike foretold standby
  cases standby with
  | done a =>
    obtain ⟨u, plays, ends, others⟩ := foretold
    refine ⟨holders, told + 1, by omega, h.left ends ?_ ⟨u, plays, others⟩ _, queue.append_tell⟩
    intro j mem
    cases alike mem with
    | done _ now => exact now.1
  | escape e =>
    obtain ⟨u, plays, ends, others⟩ := foretold
    refine ⟨holders, told + 1, by omega, h.left ends ?_ ⟨u, plays, others⟩ _, queue.append_tell⟩
    intro j mem
    cases alike mem with
    | escape _ now => exact now.1
  | @acquire r r_holding =>
    obtain ⟨u, plays, ends, others⟩ := foretold
    have all : Plays final true (holders ++ [(i, r)]) (c.opening i floor.state)
        (r.alone true u).2.2 :=
      plays_append.2 ⟨u, plays, ends, rfl⟩
    have guarded : ∀ j ∈ fresh, c.guard j (c.opening i floor.state) := by
      intro j mem
      cases alike mem with
      | acquire now later => exact now.1
    have apart : ∀ j ∈ fresh, ∀ k s t, c.Around j k s t → Alike (c.Around j) k r s r t := by
      intro j mem
      cases alike mem with
      | acquire now later => exact later
    exact h.opens_acquire queue (h.joined r_holding guarded apart ⟨_, all, others⟩ floor.ready)

end Serving

/-! ## The loop -/

section Turns

variable {c : Contenders ε σ β n} {final : Fin n → Ending ε β} {last : σ}
  {next : List (Ending ε β) → Program ε σ α} {loop : Loop ε σ α}

/-- Some parts are still to be told of. -/
def Underway (c : Contenders ε σ β n) (final : Fin n → Ending ε β) (last : σ)
    (next : List (Ending ε β) → Program ε σ α) (loop : Loop ε σ α) : Prop :=
  ∃ (holders : List (Fin n × Program ε σ β)) (fresh : List (Fin n)) (told : Nat)
    (threads : Fin n → Thread ε σ β),
    0 < holders.length + fresh.length + told ∧
      loop.root = .joining n (holders.length + fresh.length + told) threads next ∧
      Serving c final last holders fresh threads loop.floor ∧
      Queue loop.floor.ready (holders.head?.map (·.1)) fresh told

/-- All parts have ended, and the program that waits for them has its turn. -/
def Joined (final : Fin n → Ending ε β) (last : σ) (next : List (Ending ε β) → Program ε σ α) :
    Loop ε σ α where
  root := .joining n 0 (fun i => .ended (final i)) next
  floor := { state := last, ready := [.resume []] }

private theorem turn_part {untold : Nat} {threads : Fin n → Thread ε σ β} {floor : Floor σ}
    {i : Fin n} {ready : List Ticket} {p : Program ε σ β}
    (queue : floor.ready = .resume [i.val] :: ready) (running : threads i = .running p) :
    (Loop.mk (.joining n untold threads next) floor).turn =
      some ⟨.joining n untold
          (Thread.replace threads i (p.advance [i.val] { floor with ready := ready }).1) next,
        (p.advance [i.val] { floor with ready := ready }).2⟩ := by
  simp [Loop.turn, queue, Loop.draw, Thread.obey, Thread.visit, i.isLt, running, Thread.goOn]

private theorem turn_tell {untold : Nat} {threads : Fin n → Thread ε σ β} {floor : Floor σ}
    {ready : List Ticket} (queue : floor.ready = .tell [] :: ready) :
    (Loop.mk (.joining n (untold + 1) threads next) floor).turn =
      some ⟨.joining n untold threads next,
        { floor with ready := if untold = 0 then ready ++ [.resume []] else ready }⟩ := by
  simp only [Loop.turn, queue, Loop.draw, Thread.obey, Thread.visit, Thread.hear]
  split <;> rfl

private theorem Serving.requeue {holders : List (Fin n × Program ε σ β)} {fresh : List (Fin n)}
    {threads : Fin n → Thread ε σ β} {floor : Floor σ}
    (h : Serving c final last holders fresh threads floor) (ready : List Ticket) :
    Serving c final last holders fresh threads { floor with ready := ready } :=
  ⟨h.order, h.holding, h.untouched, h.finished, h.held, h.waiting, h.guarded, h.apart, h.foretold⟩

private theorem Serving.joined_of_nobody {threads : Fin n → Thread ε σ β} {floor : Floor σ}
    (h : Serving c final last [] [] threads floor) :
    Loop.mk (.joining n 0 threads next) { floor with ready := [.resume []] } =
      Joined final last next := by
  obtain ⟨u, plays, others⟩ := h.foretold
  have ended : threads = fun i => .ended (final i) :=
    funext fun i => h.finished i List.not_mem_nil List.not_mem_nil
  have free : floor.held = false := h.held
  have nobody : floor.waiting = [] := h.waiting
  have state : floor.state = last := Eq.trans plays others
  rw [ended, free, nobody, state, Joined]

/-- A turn of a part that is under way, or the news that one has ended. -/
private theorem underway_turn (h : Underway c final last next loop) :
    ∃ later, loop.turn = some later ∧
      (Underway c final last next later ∨ later = Joined final last next) := by
  obtain ⟨holders, fresh, told, threads, some_untold, root, serving, queue⟩ := h
  obtain ⟨_, floor⟩ := loop
  cases root
  dsimp only at serving queue
  generalize tickets : floor.ready = ready, whose : holders.head?.map (·.1) = holder at queue
  cases queue with
  | nil =>
    cases holders with
    | nil => simp at some_untold
    | cons first rest => simp at whose
  | holder i queue =>
    cases holders with
    | nil => simp at whose
    | cons first rest =>
      obtain ⟨j, r⟩ := first
      cases whose
      have running := (serving.holding _ List.mem_cons_self).2
      obtain ⟨holders, told', count, after, queue⟩ := (serving.requeue _).serve queue
      have total : ((j, r) :: rest).length + fresh.length + told =
          holders.length + fresh.length + told' := by
        rw [List.length_cons]
        omega
      exact ⟨_, turn_part tickets running,
        .inl ⟨holders, fresh, told', _, total ▸ some_untold, by rw [total], after, queue⟩⟩
  | @fresh _ _ fresh _ i queue =>
    have running := serving.untouched i List.mem_cons_self
    subst whose
    obtain ⟨holders', told', count, after, queue⟩ := (serving.requeue _).opens queue
    have total : holders.length + (i :: fresh).length + told =
        holders'.length + fresh.length + told' := by
      rw [List.length_cons]
      omega
    exact ⟨_, turn_part tickets running,
      .inl ⟨holders', fresh, told', _, total ▸ some_untold, by rw [total], after, queue⟩⟩
  | @tell ready _ _ told queue =>
    subst whose
    refine ⟨_, turn_tell tickets, ?_⟩
    by_cases nobody : holders.length + fresh.length + told = 0
    · right
      obtain rfl : holders = [] := List.eq_nil_of_length_eq_zero (by omega)
      obtain rfl : fresh = [] := List.eq_nil_of_length_eq_zero (by omega)
      obtain rfl : told = 0 := by omega
      cases queue
      exact serving.joined_of_nobody
    · left
      rw [if_neg (by exact nobody)]
      exact ⟨holders, fresh, told, threads, by omega, rfl, serving.requeue ready, queue⟩

private theorem rest_of_underway (h : Underway c final last next loop) :
    loop.rest = (Joined final last next).rest := by
  induction loop using Loop.less_wellFounded.induction with
  | _ loop ih =>
    obtain ⟨later, turn, underway | rfl⟩ := underway_turn h
    · exact (Loop.rest_of_turn_eq_some turn).trans (ih later (Loop.turn_less turn) underway)
    · exact Loop.rest_of_turn_eq_some turn

private theorem rest_joined (g : List (Ending ε β) → α) :
    (Joined final last fun endings => .done (g endings)).rest =
      ⟨.ended (.done (g (List.ofFn final))), { state := last }⟩ :=
  (Loop.rest_of_turn_eq_some rfl).trans (Loop.rest_of_turn_eq_none rfl)

end Turns

private theorem plays_congr {final final' : Fin n → Ending ε β} {held : Bool}
    {l : List (Fin n × Program ε σ β)} (same : ∀ h ∈ l, final h.1 = final' h.1) {s t : σ}
    (h : Plays final held l s t) : Plays final' held l s t := by
  induction l generalizing s with
  | nil => exact h
  | cons first l ih =>
    refine ⟨h.1.trans (same first List.mem_cons_self), ?_⟩
    exact ih (fun h mem => same h (List.mem_cons_of_mem _ mem)) h.2

/-- How parts end that run one after the other can be foretold. -/
private theorem exists_plays (part : Fin n → Program ε σ β) {l : List (Fin n)} (distinct : l.Nodup)
    (s : σ) :
    ∃ final, l.map final = (inTurn (l.map part) s).1 ∧
      Plays final false (l.map fun i => (i, part i)) s (inTurn (l.map part) s).2 := by
  induction l generalizing s with
  | nil => exact ⟨fun _ => .stuck, rfl, rfl⟩
  | cons i l ih =>
    obtain ⟨i_new, distinct⟩ := List.nodup_cons.1 distinct
    obtain ⟨final, endings, plays⟩ := ih distinct ((part i).alone false s).2.2
    let all := fun j => if j = i then ((part i).alone false s).1 else final j
    have others : ∀ j ∈ l, final j = all j :=
      fun j mem => (if_neg fun same : j = i => i_new (same ▸ mem)).symm
    have own : all i = ((part i).alone false s).1 := if_pos rfl
    refine ⟨all, ?_, own.symm, ?_⟩
    · simp only [List.map_cons, inTurn, own, ← endings, List.cons.injEq, true_and]
      exact (List.map_congr_left others).symm
    · refine plays_congr ?_ plays
      intro h mem
      obtain ⟨j, among, rfl⟩ := List.mem_map.1 mem
      exact others j among

/-- The loop when the parts have been started. -/
private def started (part : Fin n → Program ε σ β) (next : List (Ending ε β) → Program ε σ α)
    (s : σ) : Loop ε σ α where
  root := .joining n n (fun i => .running (part i)) next
  floor := { state := s, ready := (List.finRange n).map fun i => .resume [i.val] }

private theorem turn_start (part : Fin n → Program ε σ β)
    (next : List (Ending ε β) → Program ε σ α) (s : σ) (some_part : n ≠ 0) :
    (Loop.start (.fork n part next) false s).turn = some (started part next s) := by
  have tickets : ((List.range n).map fun i => Ticket.resume [i]) =
      (List.finRange n).map fun i => .resume [i.val] := by
    rw [← List.map_coe_finRange_eq_range, List.map_map]
    rfl
  simp [Loop.turn, Loop.start, Loop.draw, Thread.obey, Thread.visit, Thread.goOn,
    Program.advance, Floor.queue, some_part, tickets, started]

private theorem underway_started (c : Contenders ε σ β n) {s last : σ}
    (guarded : ∀ i, c.guard i s) {final : Fin n → Ending ε β}
    (plays : Plays final false ((List.finRange n).map fun i => (i, c.part i)) s last)
    (next : List (Ending ε β) → Program ε σ α) (some_part : n ≠ 0) :
    Underway c final last next (started c.part next s) := by
  refine ⟨[], List.finRange n, 0, fun i => .running (c.part i), ?_, ?_, ?_, Queue.of_fresh _⟩
  · simp
    omega
  · simp [started]
  · refine ⟨List.pairwise_lt_finRange n, nofun, fun _ _ => rfl, ?_, rfl, rfl,
      fun j _ => guarded j, nofun, ⟨s, rfl, plays⟩⟩
    exact fun i _ absent => absurd (List.mem_finRange i) absent

/-- The parts of a program that waits for all of them end as they do one after the other. -/
theorem run_fork (c : Contenders ε σ β n) {s : σ} (guarded : ∀ i, c.guard i s)
    (g : List (Ending ε β) → α) :
    Loop.run (.fork n c.part fun endings => .done (g endings)) s =
      (.done (g (inTurn (List.ofFn c.part) s).1), (inTurn (List.ofFn c.part) s).2) := by
  by_cases nothing : n = 0
  · subst nothing
    exact Loop.run_eq_of_alone _ s nofun
  · obtain ⟨final, endings, plays⟩ := exists_plays c.part (List.nodup_finRange n) s
    have rests := (Loop.rest_of_turn_eq_some (turn_start c.part _ s nothing)).trans
      (rest_of_underway (underway_started c guarded plays (fun endings => .done (g endings))
        nothing))
    rw [rest_joined] at rests
    simp only [Loop.run, rests, Thread.ending, List.ofFn_eq_map, endings]

end Contenders

end GatedConsole
