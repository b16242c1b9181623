import GatedConsole.Text.CodePoint

/-!
The history of entered lines: a window of limited size on the log of all of them. A line keeps the
position that it got when it came, for as long as it is retained.
-/

set_option autoImplicit false
set_option relaxedAutoImplicit false

namespace GatedConsole

/-- The retained lines are in two parts, so that recording a line takes few steps however many
there are. -/
structure History where
  capacity : Nat
  /-- The part that came first, oldest first. -/
  older : List Text
  /-- The part that came last, newest first. -/
  newer : List Text
  /-- How many lines are retained. -/
  size : Nat
  /-- How many lines ever came. -/
  total : Nat
  capacity_pos : 0 < capacity
  size_eq : size = older.length + newer.length
  size_le_capacity : size ≤ capacity
  size_le_total : size ≤ total

namespace History

def defaultCapacity : Nat := 100

/-- The largest capacity that a window may have. -/
def capacityBound : Nat := Nat.pow 2 63 - 1

inductive CapacityFault where
  | notPositive
  | tooLarge
deriving DecidableEq

def CapacityFault.message : CapacityFault → Text
  | .notPositive => "history capacity must be at least 1"
  | .tooLarge => "Python int too large to convert to C ssize_t"

def empty (capacity : Int) : Except CapacityFault History :=
  if h : capacity < 1 then .error .notPositive
  else if capacity > capacityBound then .error .tooLarge
  else .ok ⟨capacity.toNat, [], [], 0, 0, by omega, rfl, by omega, by omega⟩

def ofDefaultCapacity : History :=
  ⟨defaultCapacity, [], [], 0, 0, by decide, rfl, by decide, by decide⟩

instance : Inhabited History := ⟨ofDefaultCapacity⟩

/-- The retained lines, oldest first. -/
def entries (h : History) : List Text := h.older ++ h.newer.reverse

theorem length_entries (h : History) : h.entries.length = h.size := by
  simp [entries, h.size_eq]

/-- Records a line. The oldest one leaves when the window is full; if it is in the newer part, that
becomes the older one. -/
def append (h : History) (line : Text) : History :=
  if room : h.size < h.capacity then
    { h with
      newer := line :: h.newer
      size := h.size + 1
      total := h.total + 1
      size_eq := by
        have := h.size_eq
        simp only [List.length_cons]
        omega
      size_le_capacity := room
      size_le_total := Nat.succ_le_succ h.size_le_total }
  else
    match older : h.older with
    | _ :: rest =>
      { h with
        older := rest
        newer := line :: h.newer
        total := h.total + 1
        size_eq := by
          have := h.size_eq
          simp only [older, List.length_cons] at this ⊢
          omega
        size_le_total := Nat.le_succ_of_le h.size_le_total }
    | [] =>
      { h with
        older := h.newer.reverse.tail
        newer := [line]
        total := h.total + 1
        size_eq := by
          have := h.size_eq
          have := h.capacity_pos
          simp only [older, List.length_nil] at *
          simp only [List.length_tail, List.length_reverse, List.length_cons, List.length_nil]
          omega
        size_le_total := Nat.le_succ_of_le h.size_le_total }

/-- The retained lines with their positions; the first line ever has position one. -/
def numbered (h : History) : List (Nat × Text) :=
  h.entries.zipIdx (h.total - h.size + 1) |>.map fun (line, position) => (position, line)

/-- The most recent lines with their positions, at most `limit`, oldest first. -/
def recent (h : History) (limit : Int) : List (Nat × Text) :=
  h.numbered.drop (h.numbered.length - limit.toNat)

/-- How many lines are listed when no limit is given. -/
def defaultView : Nat := 10

@[simp] theorem total_append (h : History) (line : Text) :
    (h.append line).total = h.total + 1 := by
  unfold append
  split
  · rfl
  · split <;> rfl

@[simp] theorem capacity_append (h : History) (line : Text) :
    (h.append line).capacity = h.capacity := by
  unfold append
  split
  · rfl
  · split <;> rfl

end History

end GatedConsole
