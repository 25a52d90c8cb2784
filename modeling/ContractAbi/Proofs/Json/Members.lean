import ContractAbi.Json.Basic
import Mathlib.Data.List.Induction
import Mathlib.Data.List.Nodup

/-!
# Members of an object

Setting a member changes the value of its name and of no other, whatever the order of
the members.  So an object made of members with different names holds each of them.  It
lists them in the order of their names, and made again from this list it stays the same.
-/

namespace ContractAbi.Json

theorem lookup_cons_of_ne {name other : String} {value : Json} {members : Members}
    (differ : other ≠ name) : ((name, value) :: members).lookup other = members.lookup other := by
  rw [List.lookup_cons, beq_eq_false_iff_ne.2 differ]

theorem lookup_setMember_self (name : String) (value : Json) (members : Members) :
    (setMember name value members).lookup name = some value := by
  induction members with
  | nil => exact List.lookup_cons_self
  | cons member members ih =>
      rw [setMember]
      split
      · exact List.lookup_cons_self
      · rename_i differ
        split
        · exact List.lookup_cons_self
        · rw [lookup_cons_of_ne differ, ih]

theorem lookup_setMember_of_ne {name other : String} (differ : other ≠ name) (value : Json)
    (members : Members) : (setMember name value members).lookup other = members.lookup other := by
  induction members with
  | nil => exact lookup_cons_of_ne differ
  | cons member members ih =>
      rw [setMember]
      split
      · rename_i same
        rw [lookup_cons_of_ne differ, lookup_cons_of_ne (same ▸ differ)]
      · split
        · exact lookup_cons_of_ne differ
        · rw [List.lookup_cons, List.lookup_cons, ih]

theorem ofMembers_append_singleton (members : Members) (last : String × Json) :
    ofMembers (members ++ [last]) = setMember last.1 last.2 (ofMembers members) := by
  rw [ofMembers, List.foldl_append]
  rfl

/-- Of members with different names each has its own value. -/
theorem lookup_ofMembers {members : Members} (distinct : (members.map Prod.fst).Nodup)
    {name : String} {value : Json} (mem : (name, value) ∈ members) :
    (ofMembers members).lookup name = some value := by
  induction members using List.reverseRecOn with
  | nil => cases mem
  | append_singleton members last ih =>
      rw [List.map_append, List.nodup_append] at distinct
      rcases distinct with ⟨before, _, apart⟩
      rw [ofMembers_append_singleton]
      rcases List.mem_append.1 mem with mem | mem
      · have differ : name ≠ last.1 :=
          apart name (List.mem_map_of_mem mem) last.1 (List.mem_singleton_self _)
        rw [lookup_setMember_of_ne differ, ih before mem]
      · rw [← List.mem_singleton.1 mem]
        exact lookup_setMember_self _ _ _

/-- The members are in the order of their names. -/
def Sorted (members : Members) : Prop :=
  members.Pairwise fun first second => first.1 < second.1

section Order

variable {name : String} {value : Json} {member : String × Json} {members : Members}

theorem mem_setMember (mem : member ∈ setMember name value members) :
    member = (name, value) ∨ member ∈ members := by
  induction members with
  | nil => exact .inl (List.mem_singleton.1 mem)
  | cons first members ih =>
      rw [setMember] at mem
      split at mem
      · exact (List.mem_cons.1 mem).imp_right (List.mem_cons_of_mem _)
      · split at mem
        · exact List.mem_cons.1 mem
        · rcases List.mem_cons.1 mem with rfl | mem
          · exact .inr List.mem_cons_self
          · exact (ih mem).imp_right (List.mem_cons_of_mem _)

/-- A member is put where its name belongs. -/
theorem sorted_setMember (sorted : Sorted members) : Sorted (setMember name value members) := by
  induction members with
  | nil => exact List.pairwise_singleton _ _
  | cons first members ih =>
      rw [Sorted, List.pairwise_cons] at sorted
      rcases sorted with ⟨least, others⟩
      rw [setMember]
      split
      · rename_i same
        exact List.pairwise_cons.2 ⟨same ▸ least, others⟩
      · rename_i differ
        split
        · rename_i before
          refine List.pairwise_cons.2 ⟨?_, List.pairwise_cons.2 ⟨least, others⟩⟩
          rw [List.forall_mem_cons]
          exact ⟨before, fun member mem => String.lt_trans before (least member mem)⟩
        · rename_i notBefore
          refine List.pairwise_cons.2 ⟨?_, ih others⟩
          intro member mem
          rcases mem_setMember mem with rfl | mem
          · apply Classical.byContradiction
            intro notAfter
            exact differ (String.le_antisymm (String.not_lt.1 notAfter) (String.not_lt.1 notBefore))
          · exact least member mem

/-- A name beyond all others comes last. -/
theorem setMember_of_lt (last : ∀ member ∈ members, member.1 < name) :
    setMember name value members = members ++ [(name, value)] := by
  induction members with
  | nil => rfl
  | cons first members ih =>
      rw [List.forall_mem_cons] at last
      have differ : name ≠ first.1 := fun same => String.lt_irrefl _ (same ▸ last.1)
      rw [setMember, if_neg differ, if_neg (String.lt_asymm last.1), ih last.2]
      rfl

end Order

theorem mem_ofMembers {members : Members} {member : String × Json}
    (mem : member ∈ ofMembers members) : member ∈ members := by
  induction members using List.reverseRecOn with
  | nil => cases mem
  | append_singleton members last ih =>
      rw [ofMembers_append_singleton] at mem
      rw [List.mem_append, List.mem_singleton]
      exact (mem_setMember mem).symm.imp_left ih

theorem sorted_ofMembers (members : Members) : Sorted (ofMembers members) := by
  induction members using List.reverseRecOn with
  | nil => exact List.Pairwise.nil
  | append_singleton members last ih =>
      rw [ofMembers_append_singleton]
      exact sorted_setMember ih

theorem ofMembers_of_sorted {members : Members} (sorted : Sorted members) :
    ofMembers members = members := by
  induction members using List.reverseRecOn with
  | nil => rfl
  | append_singleton members last ih =>
      rw [Sorted, List.pairwise_append] at sorted
      rcases sorted with ⟨before, _, least⟩
      rw [ofMembers_append_singleton, ih before,
        setMember_of_lt fun member mem => least member mem last (List.mem_singleton_self _)]

end ContractAbi.Json
