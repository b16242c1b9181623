import GatedConsole.Session.Tab

/-!
The tabs of a session, one of which is active. Main statements: the tabs in order are those before
the active one, the active one and those after it, and an update reaches exactly the tab with its
number.
-/

set_option autoImplicit false
set_option relaxedAutoImplicit false

namespace GatedConsole

structure Tabs where
  before : List Tab
  active : Tab
  after : List Tab
  nextId : Nat

namespace Tabs

def toList (tabs : Tabs) : List Tab := tabs.before ++ tabs.active :: tabs.after

def get? (tabs : Tabs) (id : Nat) : Option Tab := tabs.toList.find? (·.id = id)

def defaultTitle (id : Nat) : Text := "Terminal " ++ Text.ofNat id

/-- The tabs of a new session. -/
def ofUser (user : User) : Tabs := ⟨[], .new 1 (defaultTitle 1) user, [], 2⟩

/-- The title of a new tab; an empty one does not count. -/
def titleOf (title : Option Text) (id : Nat) : Text :=
  match title with
  | none => defaultTitle id
  | some [] => defaultTitle id
  | some title => title

/-- Opens a tab behind all others and makes it active. -/
def openTab (tabs : Tabs) (title : Option Text) (user : User) : Tabs where
  before := tabs.toList
  active := .new tabs.nextId (titleOf title tabs.nextId) user
  after := []
  nextId := tabs.nextId + 1

/-- The list around its first tab with a number. -/
def splitAt? (id : Nat) : List Tab → Option (List Tab × Tab × List Tab)
  | [] => none
  | tab :: rest =>
    if tab.id = id then some ([], tab, rest)
    else (splitAt? id rest).map fun (before, found, after) => (tab :: before, found, after)

/-- Makes the tab with a number active, if it is open. -/
def switch? (tabs : Tabs) (id : Nat) : Option Tabs :=
  (splitAt? id tabs.toList).map fun (before, tab, after) => ⟨before, tab, after, tabs.nextId⟩

/-- Closes the active tab: the one after it becomes active, or else the last. -/
def closeActive? (tabs : Tabs) : Option Tabs :=
  match tabs.after with
  | next :: after => some { tabs with active := next, after := after }
  | [] =>
    match tabs.before.reverse with
    | [] => none
    | last :: before => some { tabs with before := before.reverse, active := last }

/-- Closes the tab with a number, if it is open and not the only one. -/
def close? (tabs : Tabs) (id : Nat) : Option Tabs :=
  match splitAt? id tabs.before with
  | some (first, _, rest) => some { tabs with before := first ++ rest }
  | none =>
    if tabs.active.id = id then tabs.closeActive?
    else
      match splitAt? id tabs.after with
      | some (first, _, rest) => some { tabs with after := first ++ rest }
      | none => none

/-- Changes the tab with a number, if it is open. -/
def update (tabs : Tabs) (id : Nat) (change : Tab → Tab) : Tabs :=
  let at? (tab : Tab) := if tab.id = id then change tab else tab
  { tabs with
    before := tabs.before.map at?, active := at? tabs.active, after := tabs.after.map at? }

theorem toList_update (tabs : Tabs) (id : Nat) (change : Tab → Tab) :
    (tabs.update id change).toList =
      tabs.toList.map fun tab => if tab.id = id then change tab else tab := by
  simp [update, toList]

theorem toList_openTab (tabs : Tabs) (title : Option Text) (user : User) :
    (tabs.openTab title user).toList =
      tabs.toList ++ [.new tabs.nextId (titleOf title tabs.nextId) user] := by
  simp [openTab, toList]

theorem id_of_get? {tabs : Tabs} {id : Nat} {tab : Tab} (h : tabs.get? id = some tab) :
    tab.id = id := by
  simpa using List.find?_some h

/-- A tab is found under its number after an update as before it. -/
theorem get?_update (tabs : Tabs) (number id : Nat) {change : Tab → Tab}
    (same_id : ∀ tab, (change tab).id = tab.id) :
    (tabs.update number change).get? id =
      (tabs.get? id).map fun tab => if id = number then change tab else tab := by
  have same (tab : Tab) :
      ((fun tab : Tab => decide (tab.id = id)) ∘ fun tab =>
        if tab.id = number then change tab else tab) tab = decide (tab.id = id) := by
    dsimp only [Function.comp]
    split
    · rw [same_id]
    · rfl
  rw [get?, get?, toList_update, List.find?_map, funext same]
  cases found : tabs.toList.find? fun tab => decide (tab.id = id) with
  | none => rfl
  | some tab => rw [Option.map_some, Option.map_some, id_of_get? found]

theorem mem_toList_active (tabs : Tabs) : tabs.active ∈ tabs.toList := by
  simp [toList]

end Tabs

end GatedConsole
