import GatedConsole.Access
import GatedConsole.Text.Digit

/-!
The command line of the launcher. Long options may be cut short as long as one option is meant, and
carry their value behind an equals sign or in the next word; short switches may be joined, also by
an equals sign behind the first. Every word is classified before any is obeyed.
-/

set_option autoImplicit false
set_option relaxedAutoImplicit false

namespace GatedConsole

/-- What the launcher is asked for. A data directory can be asked for and not be named. -/
structure Arguments where
  user : Option Text := none
  access : Option Access := none
  dataDirectory : Option Text := some "bastion_data"
  tabbed : Bool := false
  noBanner : Bool := false
  verbose : Bool := false
deriving DecidableEq

namespace Arguments

inductive Switch where
  | help
  | tabbed
  | noBanner
  | verbose
deriving DecidableEq

inductive Setting where
  | user
  | access
  | dataDirectory
deriving DecidableEq

inductive Known where
  | switch (s : Switch)
  | setting (s : Setting)
deriving DecidableEq

def longNames : List (Text × Known) :=
  [("--help", .switch .help), ("--user", .setting .user), ("--access", .setting .access),
    ("--data-dir", .setting .dataDirectory), ("--tui", .switch .tabbed),
    ("--no-banner", .switch .noBanner), ("--verbose", .switch .verbose)]

def shortNames : List (CodePoint × Switch) := [('h', .help), ('q', .noBanner), ('v', .verbose)]

def shortSwitch? (c : CodePoint) : Option Switch :=
  (shortNames.find? (·.1 = c)).map (·.2)

/-- The option with exactly this name. -/
def named? (name : Text) : Option Known :=
  match longNames.find? (·.1 = name) with
  | some (_, known) => some known
  | none =>
    match name with
    | [dash, c] => if dash = '-' then (shortSwitch? c).map .switch else none
    | _ => none

/-- What a word of the command line is. -/
inductive Word where
  | operand (t : Text)
  | separator
  | switch (s : Switch)
  /-- A setting with its value, if that is in the same word. -/
  | setting (s : Setting) (attached : Option Text)
  /-- A short switch with the letters of others behind it. -/
  | joined (first : Switch) (letters : Text)
  /-- A long switch with a value, which no switch has. -/
  | valued (s : Switch)
  | unknown
deriving DecidableEq

/-- How reading the command line ends, other than with arguments. -/
inductive Stop where
  | help
  | usage
deriving DecidableEq

/-- The code that the launcher exits with. -/
def Stop.code : Stop → Nat
  | .help => 0
  | .usage => 2

def areDigits (t : Text) : Bool := t.all (·.digit?.isSome)

/-- A word like `-5` or `-.5` is a value and not an option. -/
def looksNegative (t : Text) : Bool :=
  let t := if t.getLast? = some (CodePoint.ofChar '\n') then t.dropLast else t
  match t with
  | [] => false
  | dash :: body =>
    if dash ≠ '-' then false
    else
      match Text.cut '.' body with
      | (whole, none) => whole ≠ [] && areDigits whole
      | (whole, some fraction) => areDigits whole && fraction ≠ [] && areDigits fraction

/-- A word that begins with a dash and names no option. -/
def nameless (t : Text) : Word :=
  if looksNegative t || t.any (· = CodePoint.ofChar ' ') then .operand t else .unknown

/-- An option in its long form. -/
def long (known : Known) (attached : Option Text) : Word :=
  match known, attached with
  | .setting s, _ => .setting s attached
  | .switch s, none => .switch s
  | .switch s, some _ => .valued s

/-- An option whose name has been found in full; a short switch may have letters behind a sign. -/
def known (name : Text) (option : Known) (attached : Option Text) : Word :=
  match option, attached with
  | .switch s, some letters => if name.length = 2 then .joined s letters else .valued s
  | _, _ => long option attached

/-- A word with two dashes that is no full name: the start of one or of none, or, as a fault, of
several. -/
def shortened (t : Text) : Except Stop Word :=
  let (name, attached) := Text.cut '=' t
  match longNames.filter fun (long, _) => name.isPrefixOf long with
  | [] => .ok (nameless t)
  | [(_, option)] => .ok (long option attached)
  | _ => .error .usage

def classify (t : Text) : Except Stop Word :=
  match t with
  | [] => .ok (.operand t)
  | [_] => .ok (.operand t)
  | dash :: second :: tail =>
    if dash ≠ '-' then .ok (.operand t)
    else
      match named? t with
      | some option => .ok (known t option none)
      | none =>
        match Text.cut '=' t with
        | (name, some attached) =>
          match named? name with
          | some option => .ok (known name option (some attached))
          | none => rest second tail
        | (_, none) => rest second tail
where
  rest (second : CodePoint) (tail : Text) : Except Stop Word :=
    if second = '-' then shortened t
    else
      match shortSwitch? second with
      | some switch => .ok (.joined switch tail)
      | none => .ok (nameless t)

/-- The words in order; behind a lone pair of dashes all are operands. -/
def classifyAll : List Text → Except Stop (List Word)
  | [] => .ok []
  | t :: rest =>
    if t = "--" then .ok (.separator :: rest.map .operand)
    else do
      let word ← classify t
      let words ← classifyAll rest
      pure (word :: words)

def obeySwitch (arguments : Arguments) : Switch → Except Stop Arguments
  | .help => .error .help
  | .tabbed => .ok { arguments with tabbed := true }
  | .noBanner => .ok { arguments with noBanner := true }
  | .verbose => .ok { arguments with verbose := true }

/-- The value that a pair of dashes attached to a setting stands for: none at all. -/
def valueOf (attached : Text) : Option Text := if attached = "--" then none else some attached

def obeySetting (arguments : Arguments) (value : Option Text) : Setting → Except Stop Arguments
  | .user => .ok { arguments with user := value }
  | .access =>
    match value with
    | none => .ok { arguments with access := none }
    | some value =>
      match Access.ofName? value with
      | some level => .ok { arguments with access := some level }
      | none => .error .usage
  | .dataDirectory => .ok { arguments with dataDirectory := value }

/-- The switches of joined letters, of which there is at least one; each has to be known. -/
def joinedSwitches (first : Switch) (letters : Text) : Except Stop (List Switch) :=
  match letters, letters.mapM shortSwitch? with
  | _ :: _, some switches => .ok (first :: switches)
  | _, _ => .error .usage

/-- Obeys the words in order. Something that is no option is a fault, but only at the end. -/
def obey (arguments : Arguments) (extra : Bool) : List Word → Except Stop Arguments
  | [] => if extra then .error .usage else .ok arguments
  | .switch switch :: rest => do
    let arguments ← obeySwitch arguments switch
    obey arguments extra rest
  | .valued _ :: _ => .error .usage
  | .joined first letters :: rest => do
    let switches ← joinedSwitches first letters
    let arguments ← switches.foldlM obeySwitch arguments
    obey arguments extra rest
  | .setting setting (some attached) :: rest => do
    let arguments ← obeySetting arguments (valueOf attached) setting
    obey arguments extra rest
  | .setting setting none :: .operand value :: rest => do
    let arguments ← obeySetting arguments (some value) setting
    obey arguments extra rest
  | .setting _ none :: _ => .error .usage
  | _ :: rest => obey arguments true rest

def parse (words : List Text) : Except Stop Arguments := do
  let words ← classifyAll words
  obey {} false words

end Arguments

end GatedConsole
