import GatedConsole.Proofs.Console.Opening
import GatedConsole.Proofs.Console.Turns
import GatedConsole.Proofs.Session.Stored

/-!
What a run of the line console may write. Main statement: whatever the arguments, the files that are
there and the lines that are typed, a run that returns has written to no file but the settings, the
macros and the backup of the macros in its data directory. Settings that were there are as they
were, and where there were none the defaults stand now; nothing is written to the macros before a
line defines one, and if every definition is written they are the book of the session in the end.
-/

set_option autoImplicit false
set_option relaxedAutoImplicit false

namespace GatedConsole

open Files

/-! ## The stock commands -/

namespace CommandSet

/-- The body of a stock command ends at once. -/
theorem body_stock {η : Type} (now : Moment) (d : Descriptor) (invocation : Invocation)
    (user : User) : ∃ answer, (stock now : CommandSet η).body d invocation user = .done answer := by
  unfold stock
  dsimp only
  split
  · exact ⟨_, rfl⟩
  · exact ⟨_, rfl⟩

theorem only_stock (now : Moment) (G : Session → Session → Prop) :
    (stock now : CommandSet Desk).Only G := by
  intro d invocation user m
  obtain ⟨answer, its⟩ := body_stock now d invocation user
  rw [its]
  trivial

theorem solitary_stock (now : Moment) : (stock now : CommandSet Desk).Solitary := by
  intro d invocation user
  obtain ⟨answer, its⟩ := body_stock now d invocation user
  rw [its]
  trivial

end CommandSet

/-! ## The settings file -/

/-- The place of the settings file in a directory. -/
def configPlace (home : Place) : Place := home ++ [Name.ofText ".bastion_config.json"]

/-- The places in a data directory that a run may write to. -/
def dataPlaces (home : Place) : List Place := configPlace home :: macrosPlaces home

theorem configPlace_not_mem (home : Place) : configPlace home ∉ macrosPlaces home := by
  rw [configPlace, macrosPlaces, macrosPlace, backupPlace, List.mem_cons, List.mem_singleton,
    List.append_cancel_left_eq, List.append_cancel_left_eq]
  decide

/-- The default settings are at the place of the settings file, unless a directory is. -/
def DefaultsAt (tree : Tree) (home : Place) : Prop :=
  tree.at? (configPlace home) = some .directory ∨
    ∃ bytes, Utf8.encode (Json.write (.object Config.defaults)) = .ok bytes ∧
      tree.at? (configPlace home) = some (.file bytes)

namespace Config

variable {tree made : Tree} {directory : Path} {home : Place}

theorem place_of_pathIn {place : Place} (h : tree.follow (pathIn directory) = .ok place)
    (reached : tree.follow directory = .ok home) : place = configPlace home := by
  rw [pathIn_eq] at h
  exact Tree.place_of_child h reached (by decide)

/-- In a directory that has been made, the settings file can be reached if it was found to be
missing before. -/
theorem follow_pathIn (missing : tree.exists? (pathIn directory) = .ok false)
    (reached : made.follow directory = .ok home) (found : made.at? home = some .directory) :
    made.follow (pathIn directory) = .ok (configPlace home) := by
  obtain ⟨whole, relative⟩ := Tree.pathFault?_of_follow reached
  have nameable : Text.Nameable ".bastion_config.json" := by decide
  rw [pathIn_eq] at missing ⊢
  rcases pathFault?_child whole relative nameable with fine | long
  · rw [Tree.follow_child reached found fine (by decide), enter, if_neg]
    · rfl
    · have down : Name.ofText ".bastion_config.json" ≠ Name.up := by decide
      simp [down]
  · rw [Tree.exists?, Tree.entry, Tree.follow, long] at missing
    cases missing

/-- Where no settings were found, and their directory is there, the defaults can be written. -/
theorem defaultsAt_writeText (missing : tree.exists? (pathIn directory) = .ok false)
    (reached : made.follow directory = .ok home) (found : made.at? home = some .directory) :
    DefaultsAt (made.writeText (pathIn directory) (Json.write (.object defaults))).1 home := by
  have encoded := (Json.isPlain_write (.object defaults)).encode_eq
  have way := follow_pathIn missing reached found
  by_cases taken : made.at? (configPlace home) = some .directory
  · left
    rw [Tree.writeText, Tree.placeToWrite, way]
    dsimp only
    rw [taken]
    exact taken
  · right
    refine ⟨_, encoded, ?_⟩
    have target : made.placeToWrite (pathIn directory) = .ok (configPlace home) := by
      rw [Tree.placeToWrite, way]
      dsimp only
      split
      · rename_i its
        exact absurd its taken
      · rfl
    rw [Tree.writeText, target, encoded]
    exact Tree.at?_put_self (Tree.isAbove_eq_false taken) _

end Config

theorem DefaultsAt.spared {tree after : Tree} {home : Place} {touched : List Place}
    (h : DefaultsAt tree home) (spares : tree.Spares touched after)
    (apart : configPlace home ∉ touched) : DefaultsAt after home :=
  h.imp (spares.at?_eq apart) fun ⟨bytes, encoded, file⟩ =>
    ⟨bytes, encoded, spares.at?_eq apart file⟩

namespace Launch

variable {tree settled made : Tree} {directory : Path} {home : Place} {config : Config}
  {s : Session}

/-! ## Before the first prompt -/

/-- Settings were there and are left alone, or they were missing and the defaults are saved. -/
theorem settle_cases (h : settle tree directory = (settled, .ok config)) :
    (tree.exists? (Config.pathIn directory) = .ok true ∧ settled = tree) ∨
      tree.exists? (Config.pathIn directory) = .ok false ∧
        ∃ saved, Config.save Config.defaults tree directory = (settled, .ok saved) := by
  unfold settle at h
  split at h
  · cases h
  · rename_i loaded load
    split at h
    · cases h
    · rename_i found
      cases h
      exact .inl ⟨found, rfl⟩
    · rename_i missing
      right
      rw [Config.load, missing] at load
      cases load
      split at h
      · rename_i saved its
        cases h
        exact ⟨missing, saved, its⟩
      · cases h

theorem openSession_ok (h : openSession config tree directory = (made, .ok s)) :
    tree.makeDirectories directory = (made, .ok ()) ∧ s.macros.key = Macros.defaultKey ∧
      s.macros.store.medium = .files directory made := by
  unfold openSession Store.openFiles at h
  cases makes : tree.makeDirectories directory with
  | mk after outcome =>
    rw [makes] at h
    cases outcome with
    | error fault => cases h
    | ok _ =>
      dsimp only at h
      unfold Macros.ofStore at h
      cases its : Store.get ⟨.files directory after, false⟩ Macros.defaultKey with
      | error fault =>
        rw [its] at h
        cases h
      | ok stored =>
        rw [its] at h
        dsimp only [Except.map] at h
        split at h
        · cases h
        · cases h
          exact ⟨rfl, rfl, rfl⟩

/-- What the files are at the first prompt: the data directory is at `home`, and nothing but the
settings in it may have been written. -/
structure Prepared (directory : Path) (home : Place) (tree made : Tree) : Prop where
  reached : made.follow directory = .ok home
  here : made.at? home = some .directory
  spares : tree.Spares [configPlace home] made
  kept : tree.exists? (Config.pathIn directory) = .ok true →
    ∃ found, tree.at? (configPlace home) = some found ∧ made.at? (configPlace home) = some found
  written : tree.exists? (Config.pathIn directory) ≠ .ok true → DefaultsAt made home

theorem prepared_of_found (found : tree.exists? (Config.pathIn directory) = .ok true)
    (makes : tree.makeDirectories directory = (made, .ok ()))
    (reached : made.follow directory = .ok home) (here : made.at? home = some .directory) :
    Prepared directory home tree made := by
  have opened := Tree.spares_of_makeDirectories makes
  refine ⟨reached, here, opened _, fun _ => ?_, fun absent => absurd found absent⟩
  obtain ⟨entry, its⟩ := Tree.exists?_eq_true_iff.1 found
  obtain ⟨place, way, at_place⟩ := Tree.entry_eq_ok_iff.1 its
  rw [Config.place_of_pathIn ((opened []).grows.follow_eq way) reached] at at_place
  exact ⟨entry, at_place, (opened []).at?_eq List.not_mem_nil at_place⟩

theorem prepared_of_missing {saved : Bool}
    (missing : tree.exists? (Config.pathIn directory) = .ok false)
    (saves : Config.save Config.defaults tree directory = (settled, .ok saved))
    (makes : settled.makeDirectories directory = (made, .ok ()))
    (reached : made.follow directory = .ok home) (here : made.at? home = some .directory) :
    Prepared directory home tree made := by
  have opened := Tree.spares_of_makeDirectories makes
  rw [Config.save, Config.parent_pathIn] at saves
  cases first : tree.makeDirectories directory with
  | mk above outcome =>
    rw [first] at saves
    cases outcome with
    | error fault =>
      obtain ⟨rfl, -⟩ := Prod.mk.inj saves
      -- The session has made the directory, which could not be made before.
      exact absurd (congrArg Prod.snd makes) (Tree.makeDirectories_again first)
    | ok _ =>
      obtain ⟨rfl, -⟩ := Prod.mk.inj saves
      obtain ⟨inside, way, found⟩ :=
        Tree.isDirectory_iff.1 (Tree.isDirectory_of_makeDirectories first)
      have wrote : above.Spares [configPlace inside]
          (above.writeText (Config.pathIn directory) (Json.write (.object Config.defaults))).1 :=
        .writeText fun place its => List.mem_singleton.2 (Config.place_of_pathIn its way)
      have same := (wrote.trans (opened _)).grows.follow_eq way
      rw [reached] at same
      cases same
      refine ⟨reached, here, ?_, fun there => ?_, fun _ => ?_⟩
      · exact (Tree.spares_of_makeDirectories first _).trans (wrote.trans (opened _))
      · rw [missing] at there
        cases there
      · exact (Config.defaultsAt_writeText missing way found).spared (opened []) List.not_mem_nil

theorem exists_prepared (settles : settle tree directory = (settled, .ok config))
    (makes : settled.makeDirectories directory = (made, .ok ())) :
    ∃ home, Prepared directory home tree made := by
  obtain ⟨home, reached, here⟩ :=
    Tree.isDirectory_iff.1 (Tree.isDirectory_of_makeDirectories makes)
  rcases settle_cases settles with ⟨found, rfl⟩ | ⟨missing, saved, saves⟩
  · exact ⟨home, prepared_of_found found makes reached here⟩
  · exact ⟨home, prepared_of_missing missing saves makes reached here⟩

/-- A launch that has got ready has settled the settings, and opened a session on the macros. -/
theorem prepareIn_ok {arguments : Arguments} {ready : Ready}
    (h : prepareIn directory arguments tree = (made, .ok ready)) :
    (∃ home, Prepared directory home tree made) ∧
      ready.session.macros.key = Macros.defaultKey ∧
        ready.session.macros.store.medium = .files directory made := by
  unfold prepareIn at h
  split at h
  · cases h
  · rename_i settles
    dsimp only at h
    split at h
    · cases h
    · rename_i opens
      cases h
      obtain ⟨makes, key, medium⟩ := openSession_ok opens
      exact ⟨exists_prepared settles makes, key, medium⟩

/-! ## The run -/

/-- What a run in a data directory, which is at `home` in the end, has done to the files, if these
lines have been recorded and `book` is the last book of macros. -/
structure Footprint (directory : Path) (home : Place) (tree after : Tree)
    (lines : List (Recorded Desk)) (book : MacroBook) : Prop where
  reached : after.follow directory = .ok home
  here : after.at? home = some .directory
  files : ∀ place, place ∉ dataPlaces home → ∀ content,
    after.at? place = some (.file content) ↔ tree.at? place = some (.file content)
  config_kept : tree.exists? (Config.pathIn directory) = .ok true →
    ∃ found, tree.at? (configPlace home) = some found ∧ after.at? (configPlace home) = some found
  config_made : tree.exists? (Config.pathIn directory) ≠ .ok true → DefaultsAt after home
  macros_kept : (∀ r ∈ lines, inscribed? r.line = none) →
    ∀ place ∈ macrosPlaces home, ∀ content,
      after.at? place = some (.file content) ↔ tree.at? place = some (.file content)
  macros_written : (∀ r ∈ lines, (inscribed? r.line).isSome → r.Saves) →
    (∃ r ∈ lines, (inscribed? r.line).isSome) →
      ∃ bytes, Utf8.encode book.write = .ok bytes ∧
        after.at? (macrosPlace home) = some (.file bytes)

/-- The first prompt and the steps behind it together. -/
theorem Prepared.footprint {lines : List (Recorded Desk)} {last : Session}
    (h : Prepared directory home tree made) (stored : Session.Stored directory home made
      (last, lines)) :
    Footprint directory home tree (treeOf last made) lines last.macros.book := by
  obtain ⟨after, -, medium, spares, untouched, written⟩ := stored
  have its : treeOf last made = after := by
    rw [treeOf, Store.tree?, medium]
    rfl
  rw [its]
  refine ⟨spares.grows.follow_eq h.reached, spares.grows home h.here, ?_, ?_, ?_, ?_, written⟩
  · intro place apart content
    rw [dataPlaces, List.mem_cons, not_or] at apart
    rw [spares.files place apart.2, h.spares.files place (by simpa using apart.1)]
  · intro there
    obtain ⟨found, before, now⟩ := h.kept there
    exact ⟨found, before, spares.at?_eq (configPlace_not_mem home) now⟩
  · intro missing
    exact (h.written missing).spared spares (configPlace_not_mem home)
  · intro none place among content
    obtain rfl := untouched none
    refine h.spares.files place ?_ content
    intro its_config
    rw [List.mem_singleton.1 its_config] at among
    exact configPlace_not_mem home among

/-- The steps that enter lines. -/
def enterSteps (lines : List Text) : List Step := lines.map (Step.enter · none)

theorem allOnlyLines_enterSteps (lines : List Text) :
    Step.allOnlyLines (enterSteps lines) = true := by
  induction lines with
  | nil => rfl
  | cons line lines ih => exact ih

/-- The session when the run is over. -/
def lastSession (now : Moment) (ready : Ready) (typed : List Typed) : Session :=
  (Console.run (.stock now) ready.session ready.showBanner typed).session

/-- The lines that the run has recorded, those of macros included. -/
def recordedLines (now : Moment) (ready : Ready) (typed : List Typed) : List (Recorded Desk) :=
  Session.trace (.stock now) ready.session (enterSteps (Console.entered typed))

/-- A run of the line console returns: the arguments name a data directory, in which the launch gets
ready, and the user leaves. An absolute directory is looked up from the root, where the tree is
then. -/
structure Returns (now : Moment) (words : List Text) (tree : Tree) (typed : List Typed)
    (directory : Path) (made : Tree) (ready : Ready) : Prop where
  prepared : ∃ arguments name, Arguments.parse words = .ok arguments ∧
    arguments.dataDirectory = some name ∧ directory = ⟨[], (Path.ofText name).parts⟩ ∧
      prepareIn directory arguments tree = (made, .ok ready)
  lines : ready.frontEnd = .lines
  leaves : (Console.run (.stock now) ready.session ready.showBanner typed).verdict = .leave

variable {now : Moment} {words : List Text} {typed : List Typed} {ready : Ready}

theorem Returns.exists_footprint (h : Returns now words tree typed directory made ready) :
    ∃ home, Footprint directory home tree (treeOf (lastSession now ready typed) made)
      (recordedLines now ready typed) (lastSession now ready typed).macros.book := by
  obtain ⟨arguments, name, -, -, -, prepares⟩ := h.prepared
  obtain ⟨⟨home, prepared⟩, key, medium⟩ := prepareIn_ok prepares
  have stored := Session.stored_takeAll (CommandSet.only_stock now LeavesLines)
    (allOnlyLines_enterSteps (Console.entered typed)) key medium prepared.reached
  rcases Console.turns_cases (CommandSet.solitary_stock now) ready.session typed with
    ⟨-, session⟩ | ⟨cause, broken⟩
  · have last : lastSession now ready typed =
        (Session.takeAll (.stock now) ready.session
          (enterSteps (Console.entered typed))).2 := session
    rw [last]
    exact ⟨home, prepared.footprint stored⟩
  · have leaves := h.leaves
    change (Console.turns (.stock now) ready.session typed).verdict = .leave at leaves
    rw [broken] at leaves
    cases leaves

/-- A launch that has come to the line console got ready there. -/
theorem launch_lines (lines : (launch now words tree typed).frontEnd = some .lines) :
    ∃ arguments name made ready, Arguments.parse words = .ok arguments ∧
      arguments.dataDirectory = some name ∧
      prepareIn (.ofText name) arguments tree = (made, .ok ready) ∧ ready.frontEnd = .lines ∧
      (launch now words tree typed).tree = treeOf (lastSession now ready typed) made ∧
      (launch now words tree typed).fault =
        faultOf (Console.run (.stock now) ready.session ready.showBanner typed).verdict := by
  unfold launch prepare at lines ⊢
  cases parsed : Arguments.parse words with
  | error stop =>
    rw [parsed] at lines
    cases lines
  | ok arguments =>
    rw [parsed] at lines
    dsimp only at lines ⊢
    cases named : arguments.dataDirectory with
    | none =>
      rw [named] at lines
      cases lines
    | some name =>
      rw [named] at lines
      dsimp only at lines ⊢
      cases prepares : prepareIn (.ofText name) arguments tree with
      | mk made outcome =>
        rw [prepares] at lines
        cases outcome with
        | error fault => cases lines
        | ok ready =>
          dsimp only at lines ⊢
          cases front : ready.frontEnd with
          | tabs =>
            rw [front] at lines
            cases lines
          | lines => exact ⟨_, _, _, ready, rfl, named, prepares, front, rfl, rfl⟩

/-- A launch that ends at the line console without a fault is a run that returns. -/
theorem exists_returns (lines : (launch now words tree typed).frontEnd = some .lines)
    (well : (launch now words tree typed).fault = none) :
    ∃ directory made ready, Returns now words tree typed directory made ready ∧
      (launch now words tree typed).tree = treeOf (lastSession now ready typed) made := by
  obtain ⟨arguments, name, made, ready, parsed, named, prepares, front, files, ends⟩ :=
    launch_lines lines
  obtain ⟨⟨home, prepared⟩, -⟩ := prepareIn_ok prepares
  have relative : Path.ofText name = ⟨[], (Path.ofText name).parts⟩ := by
    rw [← (Tree.pathFault?_of_follow prepared.reached).2]
  refine ⟨.ofText name, made, ready, ⟨?_, front, ?_⟩, files⟩
  · exact ⟨arguments, name, parsed, named, relative, prepares⟩
  · rcases Console.turns_cases (CommandSet.solitary_stock now) ready.session typed with
      ⟨leaves, -⟩ | ⟨cause, broken⟩
    · exact leaves
    · rw [ends] at well
      change faultOf (Console.turns (.stock now) ready.session typed).verdict = none at well
      rw [broken] at well
      cases well

/-- Whatever the arguments, the files and the typed lines: a run of the line console that returns
leaves this footprint in its data directory; and every launch that ends at the line console without
a fault is such a run. -/
theorem footprint_of_launch (now : Moment) (words : List Text) (tree : Tree)
    (typed : List Typed) :
    (∀ directory made ready, Returns now words tree typed directory made ready →
      ∃ home, Footprint directory home tree (treeOf (lastSession now ready typed) made)
        (recordedLines now ready typed) (lastSession now ready typed).macros.book) ∧
      ((launch now words tree typed).frontEnd = some .lines →
        (launch now words tree typed).fault = none →
          ∃ directory made ready, Returns now words tree typed directory made ready ∧
            (launch now words tree typed).tree = treeOf (lastSession now ready typed) made) :=
  ⟨fun _ _ _ returns => returns.exists_footprint, exists_returns⟩

/-- A data directory with settings that cannot be read. -/
def spoiltTree : Tree :=
  (Tree.empty.put [Name.ofText "bastion_data"] .directory).put
    (configPlace [Name.ofText "bastion_data"]) (.file [])

def spoiltReady : Ready where
  frontEnd := .lines
  showBanner := true
  session := .ofUser { username := "initiate", access := .root }
    ⟨.empty, ⟨.files (.ofText "bastion_data") spoiltTree, false⟩, Macros.defaultKey⟩
    .ofDefaultCapacity

def noon : Moment := ⟨2025, 1, 1, 12, 0, 0⟩

def defining : List Typed := [.line "define.macro m look"]

private theorem prepareIn_spoilt :
    prepareIn (.ofText "bastion_data") { access := some .root } spoiltTree =
      (spoiltTree, .ok spoiltReady) := by
  have there : spoiltTree.isDirectory (.ofText "bastion_data") = true := rfl
  have settled : settle spoiltTree (.ofText "bastion_data") = (spoiltTree, .ok Config.defaults) :=
    rfl
  rw [prepareIn, settled]
  dsimp only
  rw [openSession, Store.openFiles_of_isDirectory there]
  rfl

/-- The session in which the macro is defined. -/
private def definingSession : Session :=
  spoiltReady.session.updateTab 1 (·.setBuffer "define.macro m look")

private def definingLoop : Loop Escape Session (Option Result) :=
  Loop.turns 10 (Loop.start (Session.submit (Interpreter.execute (.stock noon)) none) false
    definingSession)

private theorem run_defining :
    Loop.run (Session.submit (Interpreter.execute (.stock noon)) none) definingSession =
      (.done (some (Interpreter.inscribed "m" ["look"])), definingLoop.floor.state) := by
  have still : definingLoop.turn = none := rfl
  rw [Loop.run_eq_turns still]
  rfl

private theorem turn_defining :
    (Console.turn (.stock noon) spoiltReady.session (.line "define.macro m look")).2 =
      (.goOn, definingLoop.floor.state) :=
  Console.turn_line_of_ran (by decide) run_defining

private theorem turns_defining :
    (Console.turns (.stock noon) spoiltReady.session defining).verdict = .leave ∧
      (Console.turns (.stock noon) spoiltReady.session defining).session =
        definingLoop.floor.state := by
  rw [defining, Console.turns_cons (congrArg Prod.fst turn_defining), turn_defining]
  exact ⟨rfl, rfl⟩

private theorem recordedLines_defining :
    recordedLines noon spoiltReady defining =
      [⟨"define.macro m look", Interpreter.record "define.macro m look"
        (definingSession.updateTab 1 (·.begin "define.macro m look"))⟩] := by
  change Loop.log Interpreter.recordedBetween _ spoiltReady.session ++ [] = _
  have still : (Loop.turns 10 (Loop.start ((Session.program (.stock noon)
    (.enter "define.macro m look" none)).watch Interpreter.recordedBetween) false
      (spoiltReady.session, []))).turn = none := rfl
  rw [List.append_nil, Loop.log, Loop.run_eq_turns still]
  rfl

private theorem launch_defining :
    launch noon ["--access", "root"] spoiltTree defining =
      { frontEnd := some .lines
        events := (Console.run (.stock noon) spoiltReady.session true defining).events
        tree := treeOf definingLoop.floor.state spoiltTree } := by
  have parsed : Arguments.parse ["--access", "root"] = .ok { access := some .root } := rfl
  have prepared : prepare { access := some .root } spoiltTree = (spoiltTree, .ok spoiltReady) :=
    prepareIn_spoilt
  obtain ⟨leaves, last⟩ := turns_defining
  rw [launch, parsed]
  dsimp only
  rw [prepared, ← last]
  have fine : faultOf (Console.run (.stock noon) spoiltReady.session true defining).verdict =
      none := by
    change faultOf (Console.turns (.stock noon) spoiltReady.session defining).verdict = none
    rw [leaves]
    rfl
  exact congrArg (Outcome.mk none (some .lines) _ _) fine

/-- The settings stay as they are, and the macro is in its file. -/
theorem footprint_of_launch_defining :
    Returns noon ["--access", "root"] spoiltTree defining (.ofText "bastion_data") spoiltTree
        spoiltReady ∧
      ∃ after bytes, (launch noon ["--access", "root"] spoiltTree defining).tree = after ∧
        Utf8.encode (MacroBook.empty.define "m" ["look"] (by decide)).write = .ok bytes ∧
        after.at? (macrosPlace [Name.ofText "bastion_data"]) = some (.file bytes) ∧
        after.at? (configPlace [Name.ofText "bastion_data"]) = some (.file []) := by
  have parsed : Arguments.parse ["--access", "root"] = .ok { access := some .root } := rfl
  obtain ⟨leaves, last⟩ := turns_defining
  have returns : Returns noon ["--access", "root"] spoiltTree defining (.ofText "bastion_data")
      spoiltTree spoiltReady :=
    ⟨⟨_, _, parsed, rfl, rfl, prepareIn_spoilt⟩, rfl, leaves⟩
  have its_last : lastSession noon spoiltReady defining = definingLoop.floor.state := last
  obtain ⟨home, left⟩ :=
    (footprint_of_launch noon ["--access", "root"] spoiltTree defining).1 _ _ _ returns
  rw [its_last, recordedLines_defining] at left
  obtain rfl : home = [Name.ofText "bastion_data"] := Except.ok.inj (left.reached.symm.trans rfl)
  obtain ⟨found, before, after⟩ := left.config_kept rfl
  obtain rfl : Entry.file [] = found := Option.some.inj before
  obtain ⟨bytes, encoded, file⟩ := left.macros_written
    (fun r mem _ => by
      rw [List.mem_singleton.1 mem]
      rfl)
    ⟨_, List.mem_cons_self, rfl⟩
  exact ⟨returns, _, bytes, by rw [launch_defining], encoded, file, after⟩

end Launch

end GatedConsole
