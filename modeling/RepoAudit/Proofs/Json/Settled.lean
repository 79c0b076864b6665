import Mathlib.Data.List.Nodup
import Mathlib.Data.String.Basic
import RepoAudit.Proofs.Json.RoundTrip

/-!
# Settled values

What becomes of the members of an object that is written and read. Where their names differ, each member is
found again with its value, and nothing that is read was not written.
-/

namespace RepoAudit

section Sorted

variable {α : Type}

lemma decide_le_trans (key : α → String) (a b c : α) (first : decide (key a ≤ key b) = true)
    (second : decide (key b ≤ key c) = true) : decide (key a ≤ key c) = true :=
  decide_eq_true (le_trans (of_decide_eq_true first) (of_decide_eq_true second))

lemma decide_le_total (key : α → String) (a b : α) :
    (decide (key a ≤ key b) || decide (key b ≤ key a)) = true := by
  simpa using le_total (key a) (key b)

end Sorted

namespace Json

lemma mem_collected {members : List (String × Json)} {member : String × Json}
    (stored : member ∈ collected members) : member ∈ members := by
  have only : ∀ (members done : List (String × Json)),
      member ∈ members.foldl (fun done member => Member.put done member.1 member.2) done →
        member ∈ done ∨ member ∈ members := by
    intro members
    induction members with
    | nil => exact fun done stored => .inl stored
    | cons first members ih =>
      intro done stored
      obtain earlier | later := ih _ stored
      · change member ∈ Member.put done first.1 first.2 at earlier
        unfold Member.put at earlier
        split at earlier
        · obtain ⟨old, present, rfl⟩ := List.mem_map.mp earlier
          split
          · exact .inr List.mem_cons_self
          · exact .inl present
        · obtain old | new := List.mem_append.mp earlier
          · exact .inl old
          · exact .inr (List.mem_singleton.mp new ▸ List.mem_cons_self)
      · exact .inr (List.mem_cons_of_mem _ later)
  exact (only members [] stored).resolve_left List.not_mem_nil

lemma collected_of_nodup {members : List (String × Json)} (distinct : (members.map (·.1)).Nodup) :
    collected members = members := by
  have adds : ∀ (members done : List (String × Json)), ((done ++ members).map (·.1)).Nodup →
      members.foldl (fun done member => Member.put done member.1 member.2) done = done ++ members := by
    intro members
    induction members with
    | nil => simp
    | cons member members ih =>
      intro done distinct
      have new : done.any (·.1 == member.1) = false := by
        simp only [List.map_append, List.map_cons, List.nodup_middle, List.nodup_cons] at distinct
        simp only [List.any_eq_false, beq_iff_eq]
        intro old present same
        exact distinct.1 (List.mem_append_left _ (same ▸ List.mem_map_of_mem present))
      rw [List.foldl_cons, Member.put, new]
      simp only [Bool.false_eq_true, if_false]
      rw [ih _ (by simpa using distinct)]
      simp
  exact adds members [] distinct

/-- A name of its own leads to the value of its member. -/
lemma get?_of_mem {members : List (String × Json)} (distinct : (members.map (·.1)).Nodup)
    {name : String} {value : Json} : Member.get? members name = some value ↔ (name, value) ∈ members := by
  induction members with
  | nil => simp [Member.get?]
  | cons member members ih =>
    obtain ⟨front, rest⟩ := List.nodup_cons.mp distinct
    simp only [Member.get?] at ih ⊢
    rw [List.lookup_cons]
    by_cases same : name = member.1
    · subst same
      have other : (member.1, value) ∉ members := fun stored => front (List.mem_map.mpr ⟨_, stored, rfl⟩)
      simp [other, Prod.ext_iff, eq_comm]
    · have other : (name == member.1) = false := by simpa using same
      simp [other, ih rest, Prod.ext_iff, same]

lemma inOrder_perm {α : Type} (members : List (String × α)) : (inOrder members).Perm members :=
  List.mergeSort_perm _ _

lemma pairwise_inOrder {α : Type} (members : List (String × α)) :
    ((inOrder members).map (·.1)).Pairwise (· ≤ ·) := by
  rw [List.pairwise_map]
  exact (List.pairwise_mergeSort (decide_le_trans _) (decide_le_total _) members).imp of_decide_eq_true

/-- Members that are in order stay as they are. -/
lemma inOrder_inOrder {α : Type} (members : List (String × α)) : inOrder (inOrder members) = inOrder members :=
  List.mergeSort_of_pairwise (List.pairwise_mergeSort (decide_le_trans _) (decide_le_total _) members)

/-- An object whose names differ has the same members where it was written, with their values as they are
read. -/
lemma get?_settled {members : List (String × Json)} (distinct : (members.map (·.1)).Nodup) (name : String) :
    Member.get? (collected (inOrder (settled.settledMembers members))) name =
      (Member.get? members name).map settled := by
  have names : ((settled.settledMembers members).map (·.1)).Nodup := by
    rw [settledMembers_eq, List.map_map]
    exact distinct
  have ordered : ((inOrder (settled.settledMembers members)).map (·.1)).Nodup :=
    ((inOrder_perm _).map _).nodup_iff.mpr names
  rw [collected_of_nodup ordered]
  apply Option.ext
  intro value
  rw [get?_of_mem ordered, mem_inOrder, settledMembers_eq, Option.map_eq_some_iff]
  constructor
  · intro stored
    obtain ⟨member, present, same⟩ := List.mem_map.mp stored
    cases same
    exact ⟨member.2, (get?_of_mem distinct).mpr present, rfl⟩
  · rintro ⟨old, found, rfl⟩
    exact List.mem_map.mpr ⟨_, (get?_of_mem distinct).mp found, rfl⟩

/-- A value without arrays and objects is read as it is. -/
lemma settled_of_isPlain_zero {value : Json} (plain : value.isPlain 0 = true) :
    value.settled = value := by
  cases value with
  | array | object => cases plain
  | _ => rfl

/-- A plain value is as plain where it was written. -/
lemma isPlain_settled : ∀ {bound : Nat} {value : Json}, value.isPlain bound = true →
    value.settled.isPlain bound = true := by
  intro bound
  induction bound with
  | zero =>
    intro value plain
    rwa [settled_of_isPlain_zero plain]
  | succ bound ih =>
    intro value plain
    cases value with
    | array items =>
      rw [isPlain_array, List.all_eq_true] at plain
      rw [settled, settledItems_eq, isPlain_array, List.all_eq_true]
      exact List.forall_mem_map.mpr fun item stored => ih (plain item stored)
    | object members =>
      rw [isPlain_object, List.all_eq_true] at plain
      rw [settled, settledMembers_eq, isPlain_object, List.all_eq_true]
      intro member stored
      obtain ⟨old, present, rfl⟩ := List.mem_map.mp (mem_inOrder.mp (mem_collected stored))
      exact ih (plain old present)
    | _ => exact plain

end Json

end RepoAudit
