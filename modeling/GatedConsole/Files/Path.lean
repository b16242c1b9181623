import GatedConsole.Text.CodePoint

/-!
Paths as names separated by slashes. A lone dot and an empty name say nothing and are left out; two
dots go up when the path is followed.
-/

set_option autoImplicit false
set_option relaxedAutoImplicit false

namespace GatedConsole

/-- The slashes at the start of an absolute path (one, or exactly two), and the names. -/
structure Path where
  start : Text
  parts : List Text
deriving DecidableEq

namespace Path

instance : Inhabited Path := ⟨⟨[], []⟩⟩

def ofText (t : Text) : Path where
  start :=
    match (t.takeWhile fun (c : CodePoint) => c = '/').length with
    | 0 => []
    | 2 => "//"
    | _ => "/"
  parts := (t.splitOn '/').filter fun part => part ≠ [] && part ≠ "."

def text (p : Path) : Text :=
  if p.start = [] ∧ p.parts = [] then "." else p.start ++ Text.join "/" p.parts

/-- The path `q` seen from `p`; an absolute one stands for itself. -/
def join (p q : Path) : Path := if q.start = [] then ⟨p.start, p.parts ++ q.parts⟩ else q

/-- The directory that holds what the path names. -/
def parent (p : Path) : Path := ⟨p.start, p.parts.dropLast⟩

/-- A name without the last dot and what stands behind it; a dot at either end is no such dot. -/
def stem (name : Text) : Text :=
  let backwards := name.reverse
  match backwards.dropWhile fun (c : CodePoint) => c ≠ '.' with
  | [] => name
  | [_] => name
  | _ :: before => if backwards.head? = some (CodePoint.ofChar '.') then name else before.reverse

/-- The path whose last name has `suffix` in place of its own. -/
def withSuffix (p : Path) (suffix : Text) : Path :=
  match p.parts.getLast? with
  | none => p
  | some name => ⟨p.start, p.parts.dropLast ++ [stem name ++ suffix]⟩

end Path

end GatedConsole
