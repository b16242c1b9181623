import GatedConsole.Json.Value
import GatedConsole.Proofs.Keyed

/-!
Documents in which no name comes twice. Main statements: settling a document leaves no name twice,
and changes nothing where none was.
-/

set_option autoImplicit false
set_option relaxedAutoImplicit false

namespace GatedConsole.Json

mutual

/-- No object has a name twice. -/
def Distinct : Json → Prop
  | .list items => DistinctItems items
  | .object members => (Keyed.keys members).Nodup ∧ DistinctMembers members
  | .null | .bool _ | .int _ | .float _ | .text _ => True

def DistinctItems : List Json → Prop
  | [] => True
  | item :: items => Distinct item ∧ DistinctItems items

def DistinctMembers : List (Text × Json) → Prop
  | [] => True
  | (_, value) :: members => Distinct value ∧ DistinctMembers members

end

theorem distinctMembers_iff {members : List (Text × Json)} :
    DistinctMembers members ↔ ∀ member ∈ members, Distinct member.2 := by
  induction members with
  | nil => simp [DistinctMembers]
  | cons member members ih => rw [DistinctMembers, ih, List.forall_mem_cons]

mutual

theorem distinct_settled : ∀ document : Json, document.settled.Distinct
  | .null | .bool _ | .int _ | .float _ | .text _ => trivial
  | .list items => distinct_settledItems items
  | .object members => by
    refine ⟨Keyed.nodup_keys_ofEntries _, distinctMembers_iff.2 ?_⟩
    intro member mem
    exact distinct_settledMembers members member (Keyed.mem_of_mem_ofEntries mem)

theorem distinct_settledItems : ∀ items : List Json, DistinctItems (settledItems items)
  | [] => trivial
  | item :: items => ⟨distinct_settled item, distinct_settledItems items⟩

theorem distinct_settledMembers : ∀ (members : List (Text × Json)),
    ∀ member ∈ settledMembers members, Distinct member.2
  | [] => nofun
  | (_, value) :: members => by
    rw [settledMembers]
    exact List.forall_mem_cons.2 ⟨distinct_settled value, distinct_settledMembers members⟩

end

mutual

theorem settled_of_distinct : ∀ {document : Json}, document.Distinct → document.settled = document
  | .null, _ | .bool _, _ | .int _, _ | .float _, _ | .text _, _ => by rw [settled]
  | .list _, distinct => by rw [settled, settledItems_of_distinct distinct]
  | .object _, ⟨apart, distinct⟩ => by
    rw [settled, settledMembers_of_distinct distinct, Keyed.ofEntries_of_nodup apart]

theorem settledItems_of_distinct : ∀ {items : List Json}, DistinctItems items →
    settledItems items = items
  | [], _ => rfl
  | _ :: _, ⟨first, others⟩ => by
    rw [settledItems, settled_of_distinct first, settledItems_of_distinct others]

theorem settledMembers_of_distinct : ∀ {members : List (Text × Json)}, DistinctMembers members →
    settledMembers members = members
  | [], _ => rfl
  | (_, _) :: _, ⟨first, others⟩ => by
    rw [settledMembers, settled_of_distinct first, settledMembers_of_distinct others]

end

end GatedConsole.Json
