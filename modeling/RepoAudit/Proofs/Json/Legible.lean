import RepoAudit.Proofs.Json.Numeral
import RepoAudit.Proofs.Json.Settled
import RepoAudit.Proofs.Partial

/-!
# Legible values

What is read of any document is a legible value: its integers can be written, its doubles are canonical, the names of
each object differ, and it is nested no deeper than the reader goes (`Json.Legible`). Such a value is read again where
it is written, in its settled form, and settling it once more changes nothing.
-/

namespace RepoAudit.Json

-- Powers are those of the writer.
attribute [local instance (high)] instPowNat

/-- True of the values that are read, with so many levels of nesting allowed. -/
inductive Legible : Nat → Json → Prop
  | null {depth : Nat} : Legible depth .null
  | bool {depth : Nat} (b : Bool) : Legible depth (.bool b)
  | integer {depth : Nat} {n : Int} (short : n.natAbs < 10 ^ Number.digitLimit) : Legible depth (.integer n)
  | double {depth : Nat} {x : Double} (canonical : x.Canonical) : Legible depth (.double x)
  | text {depth : Nat} (s : String) : Legible depth (.text s)
  | array {depth : Nat} {items : List Json} (all : ∀ item ∈ items, Legible depth item) :
    Legible (depth + 1) (.array items)
  | object {depth : Nat} {members : List (String × Json)} (distinct : (members.map (·.1)).Nodup)
    (all : ∀ member ∈ members, Legible depth member.2) : Legible (depth + 1) (.object members)

lemma Legible.of_item {depth : Nat} {items : List Json} (legible : Legible (depth + 1) (.array items)) :
    ∀ item ∈ items, Legible depth item := by
  cases legible with
  | array all => exact all

lemma Legible.of_member {depth : Nat} {members : List (String × Json)}
    (legible : Legible (depth + 1) (.object members)) :
    (members.map (·.1)).Nodup ∧ ∀ member ∈ members, Legible depth member.2 := by
  cases legible with
  | object distinct all => exact ⟨distinct, all⟩

/-- A member that is missing counts as `null`. -/
lemma Legible.getD {depth : Nat} {value : Json} (legible : Legible (depth + 1) value) (name : String) :
    Legible depth (value.getD name) := by
  cases value with
  | object members =>
    obtain ⟨distinct, all⟩ := legible.of_member
    rw [Json.getD, Json.get?]
    cases found : Member.get? members name with
    | none => exact .null
    | some value => exact all (name, value) ((get?_of_mem distinct).mp found)
  | _ => exact .null

/-! ## What is read is legible -/

lemma nodup_put {members : List (String × Json)} (distinct : (members.map (·.1)).Nodup) (name : String)
    (value : Json) : ((Member.put members name value).map (·.1)).Nodup := by
  unfold Member.put
  split
  · have same : (members.map fun member => if member.1 == name then (name, value) else member).map (·.1) =
        members.map (·.1) := by
      rw [List.map_map]
      refine List.map_congr_left fun member _ => ?_
      rw [Function.comp_apply]
      split
      · next is => exact (beq_iff_eq.mp is).symm
      · rfl
    rwa [same]
  · next absent =>
    rw [List.map_append, List.map_singleton, ← List.concat_eq_append]
    refine distinct.concat fun stored => ?_
    obtain ⟨member, there, rfl⟩ := List.mem_map.mp stored
    exact absent (List.any_eq_true.mpr ⟨member, there, beq_self_eq_true _⟩)

lemma mem_put {members : List (String × Json)} {name : String} {value : Json} {member : String × Json}
    (stored : member ∈ Member.put members name value) : member ∈ members ∨ member = (name, value) := by
  unfold Member.put at stored
  split at stored
  · obtain ⟨old, there, rfl⟩ := List.mem_map.mp stored
    split
    · exact .inr rfl
    · exact .inl there
  · simpa using stored

lemma legible_word {s rest : List Char} {value : Json} (reads : readWord? s = some (value, rest)) (depth : Nat) :
    Legible depth value := by
  obtain ⟨⟨word, value⟩, found, is⟩ := Option.map_eq_some_iff.mp reads
  cases is
  have stored := List.mem_of_find?_eq_some found
  simp only [wordValues, List.mem_cons, Prod.mk.injEq, List.not_mem_nil, or_false] at stored
  obtain ⟨-, rfl⟩ | ⟨-, rfl⟩ | ⟨-, rfl⟩ | ⟨-, rfl⟩ | ⟨-, rfl⟩ | ⟨-, rfl⟩ := stored
  · exact .null
  · exact .bool true
  · exact .bool false
  all_goals exact .double trivial

lemma legible_number {s rest : List Char} {value : Json} (reads : readNumber s = some (.ok (value, rest)))
    (depth : Nat) : Legible depth value := by
  obtain ⟨n, rfl, short⟩ | ⟨x, rfl, canonical⟩ := readNumber_ok reads
  · exact .integer short
  · exact .double canonical

/-- What the reader gives with so many calls to go is legible: a value at the head of a text, and an object or an array
that is read to its end when the members or the items read before are. -/
structure GivesLegible (steps : Nat) : Prop where
  value {depth : Nat} {s rest : List Char} {value : Json} : readValue steps depth s = .ok (value, rest) →
    Legible depth value
  members {depth : Nat} {members : List (String × Json)} {s rest : List Char} {value : Json} :
    (members.map (·.1)).Nodup → (∀ member ∈ members, Legible depth member.2) →
    readMembers steps depth members s = .ok (value, rest) → Legible (depth + 1) value
  items {depth : Nat} {items : List Json} {s rest : List Char} {value : Json} :
    (∀ item ∈ items, Legible depth item) → readItems steps depth items s = .ok (value, rest) →
    Legible (depth + 1) value

section Step

variable {steps depth : Nat} (gives : GivesLegible steps) {s rest : List Char} {value : Json}
include gives

lemma GivesLegible.next_value (reads : readValue (steps + 1) depth s = .ok (value, rest)) : Legible depth value := by
  rw [readValue.eq_def] at reads
  dsimp only at reads
  split at reads
  · obtain ⟨⟨text, after⟩, -, is⟩ := exists_of_map_ok reads
    cases is
    exact .text text
  · split at reads
    · cases reads
    · split at reads
      · cases reads
        exact .object List.nodup_nil (by simp)
      · have none : (([] : List (String × Json)).map (·.1)).Nodup := List.nodup_nil
        exact gives.members none (by simp) reads
  · split at reads
    · cases reads
    · split at reads
      · cases reads
        exact .array (by simp)
      · exact gives.items (by simp) reads
  · split at reads
    · next found is =>
      cases reads
      exact legible_word is depth
    · split at reads
      · next result is =>
        cases reads
        exact legible_number is depth
      · cases reads

lemma GivesLegible.next_members {members : List (String × Json)} (distinct : (members.map (·.1)).Nodup)
    (all : ∀ member ∈ members, Legible depth member.2)
    (reads : readMembers (steps + 1) depth members s = .ok (value, rest)) : Legible (depth + 1) value := by
  rw [readMembers.eq_def] at reads
  dsimp only at reads
  split at reads
  · obtain ⟨⟨name, after⟩, -, reads⟩ := exists_of_bind_ok reads
    dsimp only at reads
    split at reads
    · obtain ⟨⟨member, after⟩, first, reads⟩ := exists_of_bind_ok reads
      have legible := gives.value first
      have distinct := nodup_put distinct name member
      have all : ∀ m ∈ Member.put members name member, Legible depth m.2 := fun m stored =>
        (mem_put stored).elim (all m) fun is => is ▸ legible
      dsimp only at reads
      split at reads
      · cases reads
        exact .object distinct all
      · exact gives.members distinct all reads
      · cases reads
    · cases reads
  · cases reads

lemma GivesLegible.next_items {items : List Json} (all : ∀ item ∈ items, Legible depth item)
    (reads : readItems (steps + 1) depth items s = .ok (value, rest)) : Legible (depth + 1) value := by
  rw [readItems.eq_def] at reads
  dsimp only at reads
  obtain ⟨⟨item, after⟩, first, reads⟩ := exists_of_bind_ok reads
  have all : ∀ i ∈ item :: items, Legible depth i := List.forall_mem_cons.mpr ⟨gives.value first, all⟩
  dsimp only at reads
  split at reads
  · cases reads
    exact .array fun i stored => all i (List.mem_reverse.mp stored)
  · exact gives.items all reads
  · cases reads

end Step

lemma givesLegible (steps : Nat) : GivesLegible steps := by
  -- The induction is on the calls of the reader, which each pass one less on.
  induction steps with
  | zero =>
    refine ⟨fun reads => ?_, fun _ _ reads => ?_, fun _ reads => ?_⟩ <;> cases reads
  | succ steps ih => exact ⟨ih.next_value, ih.next_members, ih.next_items⟩

/-- A document that is read is legible. -/
theorem legible_read {s : String} {value : Json} (reads : read s = .ok value) : Legible nestingLimit value := by
  unfold read at reads
  dsimp only at reads
  generalize result : (if s.toList.head? == some (Char.ofNat 0xFEFF) then _ else _ : Except Fault Json) = found at reads
  cases found with
  | error => cases reads
  | ok found =>
    cases reads
    split at result
    · cases result
    · obtain ⟨⟨value, rest⟩, first, rest'⟩ := exists_of_bind_ok result
      dsimp only at rest'
      split at rest'
      · cases rest'
        exact (givesLegible _).value first
      · cases rest'

/-! ## Legible values are read again -/

lemma Legible.reads {bound : Nat} {value : Json} (legible : Legible bound value) : ∀ level depth, bound ≤ depth →
    Reads depth (writeAt level value).toList value.settled := by
  induction legible with
  | null => exact fun level depth _ => (reads_word depth).1
  | bool b =>
    intro level depth _
    cases b with
    | true => exact (reads_word depth).2.1
    | false => exact (reads_word depth).2.2
  | integer short => exact fun level depth _ => reads_integer depth short
  | double canonical => exact fun level depth _ => reads_double depth canonical
  | text s => exact fun level depth _ => reads_text depth s
  | array all ih =>
    intro level depth deep
    obtain ⟨depth, rfl⟩ : ∃ less, depth = less + 1 := ⟨depth - 1, by omega⟩
    exact reads_array fun item stored => ih item stored _ depth (by omega)
  | object distinct all ih =>
    intro level depth deep
    obtain ⟨depth, rfl⟩ : ∃ less, depth = less + 1 := ⟨depth - 1, by omega⟩
    exact reads_object fun member stored => ih member stored _ depth (by omega)

/-- A legible document is read in its settled form where it was written. -/
theorem Legible.read_write {value : Json} (legible : Legible nestingLimit value) :
    read value.write = .ok value.settled :=
  read_of_reads (legible.reads 0 nestingLimit (Nat.le_refl _))

lemma Legible.isWritable {bound : Nat} {value : Json} (legible : Legible bound value) : value.isWritable = true := by
  induction legible with
  | integer short => simpa only [Json.isWritable, decide_eq_true_eq] using short
  | array all ih => exact (itemsWritable_iff _).mpr ih
  | object distinct all ih => exact (membersWritable_iff _).mpr ih
  | _ => rfl

lemma Legible.settled_settled {bound : Nat} {value : Json} (legible : Legible bound value) :
    value.settled.settled = value.settled := by
  induction legible with
  | array all ih =>
    simp only [settled, settledItems_eq, List.map_map, array.injEq]
    exact List.map_congr_left ih
  | object distinct all ih =>
    next depth members =>
    have names : ((inOrder (settled.settledMembers members)).map (·.1)).Nodup := by
      refine ((inOrder_perm _).map _).nodup_iff.mpr ?_
      rw [settledMembers_eq, List.map_map]
      exact distinct
    have again : settled.settledMembers (inOrder (settled.settledMembers members)) =
        inOrder (settled.settledMembers members) := by
      rw [settledMembers_eq]
      refine (List.map_congr_left fun member stored => ?_).trans (List.map_id _)
      rw [mem_inOrder, settledMembers_eq] at stored
      obtain ⟨old, there, rfl⟩ := List.mem_map.mp stored
      exact Prod.ext rfl (ih old there)
    rw [settled, settled, collected_of_nodup names, again, inOrder_inOrder, collected_of_nodup names]
  | _ => rfl

/-- An object of settled values is settled as the object of the values. -/
lemma Legible.settled_members {depth : Nat} {members : List (String × Json)}
    (all : ∀ member ∈ members, Legible depth member.2) :
    (Json.object (members.map fun member => (member.1, member.2.settled))).settled = (Json.object members).settled := by
  simp only [settled, settledMembers_eq, List.map_map]
  congr 3
  exact List.map_congr_left fun member stored => Prod.ext rfl (all member stored).settled_settled

end RepoAudit.Json
