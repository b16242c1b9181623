import GatedConsole.Proofs.Session.Chronicle

/-!
The order of the tabs. Main statements: whatever becomes of the tabs one change after the other,
their numbers increase along the list, and the numbers given out on the way are the next ones, each
of them once; and closing and switching find the tab that has the number, and the place of the
active one.
-/

set_option autoImplicit false
set_option relaxedAutoImplicit false

namespace GatedConsole.Tabs

variable {tabs tabs' : Tabs} {id : Nat}

/-- The numbers of the tabs, in order. -/
def ids (tabs : Tabs) : List Nat := tabs.toList.map (·.id)

theorem mem_ids : id ∈ tabs.ids ↔ ∃ tab ∈ tabs.toList, tab.id = id := List.mem_map

theorem getElem?_length_before (tabs : Tabs) :
    tabs.toList[tabs.before.length]? = some tabs.active := by
  rw [toList, List.getElem?_append_right (Nat.le_refl _), Nat.sub_self, List.getElem?_cons_zero]

/-- The numbers increase along the tabs, and all of them have been given out. -/
structure InOrder (tabs : Tabs) : Prop where
  increasing : tabs.ids.Pairwise (· < ·)
  lt_nextId : ∀ id ∈ tabs.ids, id < tabs.nextId

theorem InOrder.nodup_ids (inOrder : tabs.InOrder) : tabs.ids.Nodup :=
  inOrder.increasing.imp Nat.ne_of_lt

theorem InOrder.tidy (inOrder : tabs.InOrder) : tabs.Tidy where
  nodup_ids := inOrder.nodup_ids
  lt_nextId _ mem := inOrder.lt_nextId _ (List.mem_map_of_mem mem)

theorem inOrder_ofUser (user : User) : (ofUser user).InOrder where
  increasing := List.pairwise_singleton _ _
  lt_nextId id mem := by
    rw [List.mem_singleton.1 mem]
    exact Nat.lt_succ_self 1

/-! ## Closing and switching -/

theorem splitAt?_eq_none_iff {list : List Tab} :
    splitAt? id list = none ↔ ∀ tab ∈ list, tab.id ≠ id := by
  induction list with
  | nil => simp [splitAt?]
  | cons first rest ih =>
    unfold splitAt?
    by_cases same : first.id = id
    · simp [same]
    · simp [same, ih]

/-- What closing does: the tab goes from its place before, at or behind the active one. -/
inductive Closing (tabs : Tabs) (id : Nat) : Tabs → Prop
  | before {first rest : List Tab} {tab : Tab} (parts : tabs.before = first ++ tab :: rest)
      (found : tab.id = id) : Closing tabs id { tabs with before := first ++ rest }
  | active {next : Tab} {after : List Tab} (found : tabs.active.id = id)
      (parts : tabs.after = next :: after) :
      Closing tabs id { tabs with active := next, after := after }
  | last {before : List Tab} {last : Tab} (found : tabs.active.id = id) (end_ : tabs.after = [])
      (parts : tabs.before = before ++ [last]) :
      Closing tabs id { tabs with before := before, active := last }
  | after {first rest : List Tab} {tab : Tab} (parts : tabs.after = first ++ tab :: rest)
      (found : tab.id = id) : Closing tabs id { tabs with after := first ++ rest }

theorem closing_of_close? (h : tabs.close? id = some tabs') : Closing tabs id tabs' := by
  unfold close? at h
  split at h
  · rename_i first tab rest parts
    obtain ⟨parts, found⟩ := of_splitAt? parts
    rw [← Option.some.inj h]
    exact .before parts found
  · split at h
    · rename_i found
      unfold closeActive? at h
      split at h
      · rename_i next after parts
        rw [← Option.some.inj h]
        exact .active found parts
      · rename_i end_
        split at h
        · cases h
        · rename_i last before parts
          have parts : tabs.before = before.reverse ++ [last] := by
            rw [← List.reverse_reverse tabs.before, parts, List.reverse_cons]
          rw [← Option.some.inj h]
          exact .last found end_ parts
    · split at h
      · rename_i first tab rest parts
        obtain ⟨parts, found⟩ := of_splitAt? parts
        rw [← Option.some.inj h]
        exact .after parts found
      · cases h

/-- Only an open tab can be closed, and never the last one. -/
theorem close?_eq_none_iff :
    tabs.close? id = none ↔ ¬ (2 ≤ tabs.toList.length ∧ id ∈ tabs.ids) := by
  constructor
  · intro refused
    unfold close? at refused
    split at refused
    · cases refused
    · rename_i not_before
      have not_before := splitAt?_eq_none_iff.1 not_before
      split at refused
      · rename_i found
        unfold closeActive? at refused
        split at refused
        · cases refused
        · rename_i end_
          split at refused
          · rename_i nothing
            have alone : tabs.before = [] := List.reverse_eq_nil_iff.1 nothing
            simp [toList, alone, end_]
          · cases refused
      · rename_i not_active
        split at refused
        · cases refused
        · rename_i not_after
          have not_after := splitAt?_eq_none_iff.1 not_after
          rintro ⟨-, open_⟩
          obtain ⟨tab, mem, found⟩ := mem_ids.1 open_
          rw [toList, List.mem_append, List.mem_cons] at mem
          rcases mem with mem | rfl | mem
          · exact not_before tab mem found
          · exact not_active found
          · exact not_after tab mem found
  · intro refused
    cases closed : tabs.close? id with
    | none => rfl
    | some tabs' =>
      refine absurd ?_ refused
      rw [mem_ids, toList, List.length_append, List.length_cons]
      cases closing_of_close? closed with
      | @before first rest tab parts found =>
        refine ⟨?_, tab, by simp [parts], found⟩
        simp only [parts, List.length_append, List.length_cons]
        omega
      | active found parts =>
        refine ⟨?_, tabs.active, by simp, found⟩
        simp only [parts, List.length_cons]
        omega
      | last found end_ parts =>
        refine ⟨?_, tabs.active, by simp, found⟩
        simp only [parts, List.length_append, List.length_singleton]
        omega
      | @after first rest tab parts found =>
        refine ⟨?_, tab, by simp [parts], found⟩
        simp only [parts, List.length_append, List.length_cons]
        omega

/-- The tabs with the one with a number removed, and what is active then. -/
structure Closes (tabs : Tabs) (id : Nat) (tabs' : Tabs) : Prop where
  /-- All other tabs stay as they are, in their order. -/
  others : tabs'.toList = tabs.toList.filter (·.id ≠ id)
  /-- The tab that goes is the first one that equals the tab with the number. -/
  erased : ∀ tab ∈ tabs.toList, tab.id = id → tabs'.toList = tabs.toList.erase tab
  nextId : tabs'.nextId = tabs.nextId
  stays : tabs.active.id ≠ id → tabs'.active = tabs.active
  follows : tabs.active.id = id → ∀ next after, tabs.after = next :: after → tabs'.active = next
  last : tabs.active.id = id → tabs.after = [] → tabs'.toList.getLast? = some tabs'.active
  /-- The place of the active tab: where the first tab is that equals it, or else its old place, if
  there still is one. -/
  place : tabs'.before.length =
    if tabs.active.id = id then min tabs.before.length (tabs'.toList.length - 1)
    else tabs'.toList.idxOf tabs.active

/-- Where no number comes twice, no other tab has the number of this one. -/
theorem id_ne_of_parts {first rest : List Tab} {tab other : Tab}
    (nodup : ((first ++ tab :: rest).map (·.id)).Nodup) (mem : other ∈ first ++ rest) :
    other.id ≠ tab.id := by
  rw [List.map_append, List.map_cons, List.nodup_append, List.nodup_cons] at nodup
  obtain ⟨-, ⟨not_rest, -⟩, apart⟩ := nodup
  rcases List.mem_append.1 mem with mem | mem
  · exact apart _ (List.mem_map_of_mem mem) _ List.mem_cons_self
  · intro same
    exact not_rest (List.mem_map.2 ⟨other, mem, same⟩)

/-- Without the only tab with a number there are the tabs before it and the tabs behind it. -/
theorem without_of_parts {list first rest : List Tab} {tab : Tab}
    (nodup : (list.map (·.id)).Nodup) (parts : list = first ++ tab :: rest) (found : tab.id = id) :
    list.filter (·.id ≠ id) = first ++ rest ∧
      ∀ tab' ∈ list, tab'.id = id → list.erase tab' = first ++ rest := by
  subst parts found
  refine ⟨?_, ?_⟩
  · have kept (part : List Tab) (h : ∀ other ∈ part, other ∈ first ++ rest) :
        part.filter (·.id ≠ tab.id) = part :=
      List.filter_eq_self.2 fun other mem => decide_eq_true (id_ne_of_parts nodup (h other mem))
    rw [List.filter_append, List.filter_cons_of_neg (by simp),
      kept first fun _ mem => List.mem_append_left _ mem,
      kept rest fun _ mem => List.mem_append_right _ mem]
  · intro tab' mem same
    obtain rfl : tab' = tab := List.inj_on_of_nodup_map nodup mem (by simp) same
    have not_first : tab' ∉ first := fun mem =>
      id_ne_of_parts nodup (List.mem_append_left _ mem) rfl
    rw [List.erase_append_right _ not_first, List.erase_cons_head]

/-- With numbers apart, the first tab that equals the active one is the active one. -/
theorem idxOf_active (nodup : tabs.ids.Nodup) :
    tabs.toList.idxOf tabs.active = tabs.before.length := by
  have not_before : tabs.active ∉ tabs.before := fun mem =>
    id_ne_of_parts nodup (List.mem_append_left _ mem) rfl
  rw [toList, List.idxOf_append_of_notMem not_before, List.idxOf_cons_self, Nat.add_zero]

/-- Wherever the tab stood, the others are those before it and those behind it. -/
theorem Closing.parts (h : Closing tabs id tabs') : ∃ first tab rest,
    tabs.toList = first ++ tab :: rest ∧ tab.id = id ∧ tabs'.toList = first ++ rest := by
  cases h with
  | @before first rest tab parts found =>
    exact ⟨first, tab, rest ++ tabs.active :: tabs.after, by simp [toList, parts], found,
      by simp [toList]⟩
  | @active next after found parts =>
    exact ⟨tabs.before, tabs.active, next :: after, by simp [toList, parts], found, rfl⟩
  | @last before last found end_ parts =>
    exact ⟨before ++ [last], tabs.active, [], by simp [toList, parts, end_], found,
      by simp [toList, end_]⟩
  | @after first rest tab parts found =>
    exact ⟨tabs.before ++ tabs.active :: first, tab, rest, by simp [toList, parts], found,
      by simp [toList]⟩

theorem InOrder.closes (inOrder : tabs.InOrder) (h : tabs.close? id = some tabs') :
    Closes tabs id tabs' := by
  have nodup := inOrder.nodup_ids
  have closing := closing_of_close? h
  obtain ⟨first, tab, rest, parts, found, others⟩ := closing.parts
  obtain ⟨without, erased⟩ := without_of_parts nodup parts found
  have nodup' : tabs'.ids.Nodup := nodup.sublist ((of_close? h).1.map _)
  have place := idxOf_active nodup'
  have not_before {first rest : List Tab} {tab : Tab} (parts : tabs.before = first ++ tab :: rest)
      (found : tab.id = id) : tabs.active.id ≠ id := fun active =>
    id_ne_of_parts nodup (List.mem_append_left _ (by simp [parts])) (found.trans active.symm)
  have not_after {first rest : List Tab} {tab : Tab} (parts : tabs.after = first ++ tab :: rest)
      (found : tab.id = id) : tabs.active.id ≠ id := fun active =>
    id_ne_of_parts nodup (List.mem_append_right _ (by simp [parts])) (found.trans active.symm)
  have erased (other : Tab) (mem : other ∈ tabs.toList) (same : other.id = id) :
      tabs'.toList = tabs.toList.erase other := others.trans (erased other mem same).symm
  refine ⟨others.trans without.symm, erased, (of_close? h).2, ?_, ?_, ?_, ?_⟩
  · intro other
    cases closing with
    | before => rfl
    | active found => exact absurd found other
    | last found => exact absurd found other
    | after => rfl
  · intro active next after follows
    cases closing with
    | before parts found => exact absurd active (not_before parts found)
    | active _ parts =>
      rw [parts] at follows
      exact (List.cons.inj follows).1
    | last _ end_ =>
      rw [end_] at follows
      cases follows
    | after parts found => exact absurd active (not_after parts found)
  · intro active end_
    cases closing with
    | before parts found => exact absurd active (not_before parts found)
    | active _ parts =>
      rw [parts] at end_
      cases end_
    | last => simp [toList, end_]
    | after parts found => exact absurd active (not_after parts found)
  · cases closing with
    | before parts found =>
      rw [if_neg (not_before parts found)]
      exact place.symm
    | active found parts =>
      rw [if_pos found]
      simp only [toList, List.length_append, List.length_cons]
      omega
    | last found end_ parts =>
      rw [if_pos found]
      simp only [toList, end_, parts, List.length_append, List.length_cons, List.length_nil]
      omega
    | after parts found =>
      rw [if_neg (not_after parts found)]
      exact place.symm

/-- The same tabs, of which the one with a number is active. -/
structure Switches (tabs : Tabs) (id : Nat) (tabs' : Tabs) : Prop where
  same : tabs'.toList = tabs.toList
  nextId : tabs'.nextId = tabs.nextId
  active : tabs'.active.id = id
  place : tabs'.before.length = tabs.toList.idxOf tabs'.active

theorem switch?_eq_none_iff : tabs.switch? id = none ↔ id ∉ tabs.ids := by
  rw [switch?, Option.map_eq_none_iff, splitAt?_eq_none_iff, mem_ids]
  simp

theorem InOrder.switches (inOrder : tabs.InOrder) (h : tabs.switch? id = some tabs') :
    Switches tabs id tabs' := by
  obtain ⟨same, nextId⟩ := of_switch? h
  have nodup' : tabs'.ids.Nodup := by
    rw [ids, same]
    exact inOrder.nodup_ids
  refine ⟨same, nextId, ?_, ?_⟩
  · obtain ⟨⟨before, tab, after⟩, parts, rfl⟩ := Option.map_eq_some_iff.1 h
    exact (of_splitAt? parts).2
  · rw [← same]
    exact (idxOf_active nodup').symm

/-! ## Changes -/

/-- What can become of tabs at once: a tab may be changed in any way that leaves its number. -/
inductive Shift (tabs : Tabs) : Tabs → Prop
  | stay : Shift tabs tabs
  | changed (id : Nat) (change : Tab → Tab)
      (h : ∀ tab ∈ tabs.toList, tab.id = id → (change tab).id = tab.id) :
      Shift tabs (tabs.update id change)
  | opened (title : Option Text) (user : User) : Shift tabs (tabs.openTab title user)
  | closed {tabs' : Tabs} (id : Nat) (h : tabs.close? id = some tabs') : Shift tabs tabs'
  | switched {tabs' : Tabs} (id : Nat) (h : tabs.switch? id = some tabs') : Shift tabs tabs'

theorem Move.shift (h : tabs.Move tabs') : tabs.Shift tabs' := by
  cases h with
  | stay => exact .stay
  | aside id change h => exact .changed id change fun tab mem same => (h tab mem same).id_eq
  | opened title user => exact .opened title user
  | closed id h => exact .closed id h
  | switched id h => exact .switched id h

/-- What a change does to the numbers: they stay, the next one comes last, or some go. -/
theorem Shift.ids (h : tabs.Shift tabs') :
    (tabs'.ids.Sublist tabs.ids ∧ tabs'.nextId = tabs.nextId) ∨
      (tabs'.ids = tabs.ids ++ [tabs.nextId] ∧ tabs'.nextId = tabs.nextId + 1) := by
  cases h with
  | stay => exact .inl ⟨.refl _, rfl⟩
  | changed id change h =>
    have same : (tabs.update id change).ids = tabs.ids := by
      rw [Tabs.ids, toList_update, List.map_map]
      refine List.map_congr_left fun tab mem => ?_
      dsimp only [Function.comp]
      split
      · rename_i meant
        exact h tab mem meant
      · rfl
    exact .inl ⟨same ▸ .refl _, rfl⟩
  | opened title user =>
    refine .inr ⟨?_, rfl⟩
    rw [Tabs.ids, toList_openTab, List.map_append]
    rfl
  | closed id h => exact .inl ⟨(of_close? h).1.map _, (of_close? h).2⟩
  | switched id h =>
    refine .inl ⟨?_, (of_switch? h).2⟩
    rw [Tabs.ids, (of_switch? h).1]
    exact .refl _

theorem InOrder.shift (inOrder : tabs.InOrder) (h : tabs.Shift tabs') : tabs'.InOrder := by
  rcases h.ids with ⟨fewer, same⟩ | ⟨one_more, next⟩
  · refine ⟨inOrder.increasing.sublist fewer, fun id mem => ?_⟩
    rw [same]
    exact inOrder.lt_nextId id (fewer.subset mem)
  · refine ⟨?_, fun id mem => ?_⟩
    · rw [one_more, List.pairwise_append]
      refine ⟨inOrder.increasing, List.pairwise_singleton _ _, fun id mem new its => ?_⟩
      rw [List.mem_singleton.1 its]
      exact inOrder.lt_nextId id mem
    · rw [next]
      rw [one_more, List.mem_append, List.mem_singleton] at mem
      rcases mem with mem | rfl
      · exact Nat.lt_succ_of_lt (inOrder.lt_nextId id mem)
      · exact Nat.lt_succ_self _

/-! ## The numbers given out -/

/-- The numbers that tabs have after a change and had not before. -/
def issued (tabs tabs' : Tabs) : List Nat := tabs'.ids.filter (· ∉ tabs.ids)

/-- The numbers given out on the way through all these moments. -/
def issuedOver (tabs : Tabs) : List Tabs → List Nat
  | [] => []
  | next :: moments => issued tabs next ++ issuedOver next moments

/-- A change gives out the numbers from the old next one to the new next one. -/
theorem InOrder.issued_eq (inOrder : tabs.InOrder) (h : tabs.Shift tabs') :
    tabs.nextId ≤ tabs'.nextId ∧
      issued tabs tabs' = List.range' tabs.nextId (tabs'.nextId - tabs.nextId) := by
  rcases h.ids with ⟨fewer, same⟩ | ⟨one_more, next⟩
  · refine ⟨Nat.le_of_eq same.symm, ?_⟩
    rw [same, Nat.sub_self, List.range'_zero, issued, List.filter_eq_nil_iff]
    intro id mem
    simp [fewer.subset mem]
  · refine ⟨by omega, ?_⟩
    have new : tabs.nextId ∉ tabs.ids := fun mem =>
      Nat.lt_irrefl _ (inOrder.lt_nextId _ mem)
    have none_earlier : tabs.ids.filter (· ∉ tabs.ids) = [] :=
      List.filter_eq_nil_iff.2 fun id mem => by simp [mem]
    rw [issued, one_more, next, List.filter_append, none_earlier, List.nil_append,
      Nat.add_sub_cancel_left, List.filter_cons_of_pos (by simpa using new)]
    rfl

/-- Tabs become others change by change; the list has them as they are after each change. -/
inductive Shifts : Tabs → List Tabs → Tabs → Prop
  | stop (tabs : Tabs) : Shifts tabs [] tabs
  | shift {tabs next last : Tabs} {moments : List Tabs} (h : tabs.Shift next)
      (rest : Shifts next moments last) : Shifts tabs (next :: moments) last

theorem Shifts.append {tabs middle last : Tabs} {moments moments' : List Tabs}
    (h : Shifts tabs moments middle) (h' : Shifts middle moments' last) :
    Shifts tabs (moments ++ moments') last := by
  induction h with
  | stop => exact h'
  | shift first _ ih => exact .shift first (ih h')

theorem Shifts.split {tabs middle last : Tabs} {before after : List Tabs}
    (h : Shifts tabs (before ++ middle :: after) last) :
    Shifts tabs (before ++ [middle]) middle := by
  induction before generalizing tabs with
  | nil =>
    cases h with
    | shift first rest => exact .shift first (.stop middle)
  | cons next before ih =>
    cases h with
    | shift first rest => exact .shift first (ih rest)

theorem Shifts.last_eq {tabs last : Tabs} {moments : List Tabs} (h : Shifts tabs moments last) :
    last = moments.getLast?.getD tabs := by
  induction h with
  | stop => rfl
  | @shift tabs next last moments _ _ ih =>
    rw [ih, List.getLast?_cons, Option.getD_some]

theorem InOrder.shifts {moments : List Tabs} (inOrder : tabs.InOrder)
    (h : Shifts tabs moments tabs') : tabs'.InOrder := by
  induction h with
  | stop => exact inOrder
  | shift first _ ih => exact ih (inOrder.shift first)

/-- On the way all numbers from the first next one on are given out, one after the other. -/
theorem InOrder.issuedOver_eq {moments : List Tabs} (inOrder : tabs.InOrder)
    (h : Shifts tabs moments tabs') :
    tabs.nextId ≤ tabs'.nextId ∧
      tabs.issuedOver moments = List.range' tabs.nextId (tabs'.nextId - tabs.nextId) := by
  induction h with
  | stop tabs =>
    rw [Nat.sub_self]
    exact ⟨Nat.le_refl _, rfl⟩
  | @shift tabs next last moments first _ ih =>
    obtain ⟨some_more, one⟩ := inOrder.issued_eq first
    obtain ⟨more, others⟩ := ih (inOrder.shift first)
    refine ⟨Nat.le_trans some_more more, ?_⟩
    rw [issuedOver, one, others]
    have both : last.nextId - tabs.nextId =
        (next.nextId - tabs.nextId) + (last.nextId - next.nextId) := by omega
    have start : next.nextId = tabs.nextId + (next.nextId - tabs.nextId) := by omega
    rw [both, ← List.range'_append_1, ← start]

end GatedConsole.Tabs
