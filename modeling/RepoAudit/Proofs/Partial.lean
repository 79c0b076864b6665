import Mathlib.Data.List.Forall2
import Mathlib.Tactic.Common

/-!
# Computations that may give nothing

What is known of the parts of a computation that has succeeded: of one after another, and of one for each item of a
list.
-/

namespace RepoAudit

section Except

variable {ε δ α β : Type} {first : Except ε α}

/-- One computation after another that succeeds. -/
lemma exists_of_bind_ok {next : α → Except ε β} {value : β} (done : first >>= next = .ok value) :
    ∃ between, first = .ok between ∧ next between = .ok value := by
  cases first with
  | error error => cases done
  | ok between => exact ⟨between, rfl, done⟩

/-- One computation after another succeeds when both do. -/
lemma exists_ok_bind_iff {next : α → Except ε β} :
    (∃ value, first >>= next = .ok value) ↔ ∃ between, first = .ok between ∧ ∃ value, next between = .ok value := by
  constructor
  · rintro ⟨value, done⟩
    obtain ⟨between, begun, ended⟩ := exists_of_bind_ok done
    exact ⟨between, begun, value, ended⟩
  · rintro ⟨between, rfl, value, ended⟩
    exact ⟨value, ended⟩

lemma exists_of_map_ok {f : α → β} {value : β} (done : first.map f = .ok value) :
    ∃ between, first = .ok between ∧ f between = value := by
  cases first with
  | error error => cases done
  | ok between => exact ⟨between, rfl, Except.ok.inj done⟩

lemma eq_ok_of_mapError {f : ε → δ} {value : α} (done : first.mapError f = .ok value) : first = .ok value := by
  cases first with
  | error error => cases done
  | ok other => exact congrArg Except.ok (Except.ok.inj done)

/-- A list of computations that succeed, one for each item. -/
lemma forall₂_of_mapM {f : α → Except ε β} {items : List α} {values : List β} (done : items.mapM f = .ok values) :
    List.Forall₂ (fun item value => f item = .ok value) items values := by
  induction items generalizing values with
  | nil =>
    obtain rfl := Except.ok.inj done
    exact .nil
  | cons item items ih =>
    rw [List.mapM_cons] at done
    obtain ⟨value, first, done⟩ := exists_of_bind_ok done
    obtain ⟨others, rest, done⟩ := exists_of_bind_ok done
    obtain rfl := Except.ok.inj done
    exact .cons first (ih rest)

/-- What comes of a list of computations comes of one for an item. -/
lemma exists_of_mem_mapM_ok {f : α → Except ε β} {items : List α} {values : List β}
    (done : items.mapM f = .ok values) : ∀ value ∈ values, ∃ item ∈ items, f item = .ok value := by
  have follows := forall₂_of_mapM done
  clear done
  induction follows with
  | nil => exact fun value listed => nomatch listed
  | cons first _ ih =>
    rintro value (- | ⟨_, listed⟩)
    · exact ⟨_, .head _, first⟩
    · obtain ⟨item, later, is⟩ := ih value listed
      exact ⟨item, .tail _ later, is⟩

/-- One computation for each item of a list succeeds when each of them does. -/
lemma exists_ok_mapM_iff {f : α → Except ε β} {items : List α} :
    (∃ values, items.mapM f = .ok values) ↔ ∀ item ∈ items, ∃ value, f item = .ok value := by
  induction items with
  | nil => exact ⟨nofun, fun _ => ⟨[], rfl⟩⟩
  | cons item items ih =>
    rw [List.mapM_cons, exists_ok_bind_iff, List.forall_mem_cons, ← ih]
    constructor
    · rintro ⟨value, first, values, done⟩
      obtain ⟨others, rest, -⟩ := exists_of_bind_ok done
      exact ⟨⟨value, first⟩, others, rest⟩
    · rintro ⟨⟨value, first⟩, others, rest⟩
      refine ⟨value, first, value :: others, ?_⟩
      rw [rest]
      rfl

end Except

section Option

variable {α β : Type} {f : α → Option β} {items : List α} {results : List β}

/-- What comes of a list item by item. -/
lemma filterMap_of_mapM (is : items.mapM f = some results) :
    results = items.filterMap f ∧ ∀ item ∈ items, (f item).isSome = true := by
  induction items generalizing results with
  | nil =>
    simp at is
    simp [is]
  | cons item items ih =>
    simp only [List.mapM_cons, Option.pure_def, Option.bind_eq_bind, Option.bind_eq_some_iff,
      Option.some.injEq] at is
    obtain ⟨first, of, rest, others, rfl⟩ := is
    obtain ⟨rfl, all⟩ := ih others
    exact ⟨by rw [List.filterMap_cons_some of], List.forall_mem_cons.mpr ⟨by rw [of]; rfl, all⟩⟩

/-- What comes of a list item by item comes of its items. -/
lemma exists_of_mem_mapM (is : items.mapM f = some results) :
    ∀ result ∈ results, ∃ item ∈ items, f item = some result := by
  intro result stored
  rw [(filterMap_of_mapM is).1] at stored
  exact List.mem_filterMap.mp stored

/-- A list of which every item gives something gives all of it. -/
lemma mapM_of_forall {g : α → β} (gives : ∀ item ∈ items, f item = some (g item)) :
    items.mapM f = some (items.map g) := by
  induction items with
  | nil => rfl
  | cons item items ih =>
    rw [List.mapM_cons, gives item List.mem_cons_self, ih fun other later => gives other (.tail _ later)]
    rfl

end Option

end RepoAudit
