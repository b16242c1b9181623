import GatedConsole.Text.CodePoint

/-!
Access levels: guest, executor, root, each permitting what the ones before it permit.
-/

set_option autoImplicit false
set_option relaxedAutoImplicit false

namespace GatedConsole

inductive Access where
  | guest
  | executor
  | root
deriving DecidableEq, Repr

namespace Access

instance : Inhabited Access := ⟨guest⟩

def all : List Access := [guest, executor, root]

def rank : Access → Nat
  | guest => 1
  | executor => 2
  | root => 3

/-- Whether a user of level `held` may run what demands level `required`. -/
def permits (held required : Access) : Bool := required.rank ≤ held.rank

def name : Access → Text
  | guest => "guest"
  | executor => "executor"
  | root => "root"

def ofName? (name : Text) : Option Access := all.find? (·.name = name)

/-- The name in capitals, as banners and denials show it. -/
def title (level : Access) : Text := level.name.upperAscii

def description : Access → Text
  | root => "Supreme Mystical Authority - Full bastion control"
  | executor => "Advanced Practitioner - Ritual and chamber operations"
  | guest => "Initiate Observer - Basic system queries only"

/-- The sign at the end of the prompt. -/
def symbol : Access → Text
  | root => "#"
  | executor => "$"
  | guest => ">"

theorem permits_refl (level : Access) : level.permits level := by simp [permits]

theorem permits_trans {a b c : Access} (h : a.permits b) (h' : b.permits c) : a.permits c := by
  simp only [permits, decide_eq_true_eq] at *
  omega

theorem ofName?_name (level : Access) : ofName? level.name = some level := by
  cases level <;> decide

end Access

/-- Who invokes commands. Authentication happens elsewhere. -/
structure User where
  username : Text
  access : Access := .guest
  authenticated : Bool := true
deriving DecidableEq

end GatedConsole
