import Mathlib.Data.List.Basic

/-!
# Lists without their repetitions

What is left of a list when each item is dropped that stands earlier in it: no item twice, and each where it first
stood. Without repetitions, keys divide a list into what each of them has (`perm_flatMap_filter`).
-/

namespace RepoAudit

variable {α β κ : Type}

/-- Items are told apart by what is told of them, where only that is compared. -/
lemma eraseDupsBy_map (f : α → β) (same : β → β → Bool) : (items : List α) →
    (items.map f).eraseDupsBy same = (items.eraseDupsBy fun a b => same (f a) (f b)).map f
  | [] => rfl
  | item :: rest => by
    rw [List.map_cons, List.eraseDupsBy_cons, List.eraseDupsBy_cons, List.map_cons, List.filter_map,
      ← eraseDupsBy_map f same (rest.filter fun b => decide (same (f b) (f item) = false))]
    rfl
termination_by items => items.length
decreasing_by exact Nat.lt_succ_of_le (List.length_filter_le _ _)

/-- Items that are told apart by keys are those of the first key, and then those of the next one, up to the last. -/
lemma perm_flatMap_filter (has : κ → α → Bool) {keys : List κ}
    (apart : keys.Pairwise fun key other => ∀ item, has key item = true → has other item = false) {items : List α}
    (covered : ∀ item ∈ items, ∃ key ∈ keys, has key item = true) :
    (keys.flatMap fun key => items.filter (has key)).Perm items := by
  induction keys generalizing items with
  | nil =>
    have none : items = [] := List.eq_nil_iff_forall_not_mem.mpr fun item inside => by simpa using covered item inside
    rw [none, List.flatMap_nil]
  | cons key keys ih =>
    obtain ⟨away, apart⟩ := List.pairwise_cons.mp apart
    have covered' : ∀ item ∈ items.filter (!has key ·), ∃ other ∈ keys, has other item = true := by
      intro item inside
      obtain ⟨inside, lacks⟩ := List.mem_filter.mp inside
      obtain ⟨other, isKey, other_has⟩ := covered item inside
      rcases List.mem_cons.mp isKey with rfl | isKey
      · rw [other_has] at lacks
        cases lacks
      · exact ⟨other, isKey, other_has⟩
    -- The items of a later key are all left when those of the first one are taken away.
    have same : ∀ other ∈ keys, items.filter (has other) = (items.filter (!has key ·)).filter (has other) := by
      intro other isKey
      rw [List.filter_filter]
      refine List.filter_congr fun item _ => ?_
      cases first : has key item with
      | true => simp [away other isKey item first]
      | false => simp
    rw [List.flatMap_cons, List.flatMap_congr same]
    exact ((ih apart covered').append_left _).trans (List.filter_append_perm _ _)

variable [BEq α] [LawfulBEq α]

/-- What is left out of a list leaves the others in their order. -/
lemma idxOf_lt_of_filter {p : α → Bool} {items : List α} {a b : α} (keepsFirst : p a = true) (keepsSecond : p b = true)
    (before : (items.filter p).idxOf a < (items.filter p).idxOf b) : items.idxOf a < items.idxOf b := by
  induction items with
  | nil => cases before
  | cons item rest ih =>
    rw [List.idxOf_cons, List.idxOf_cons]
    cases kept : p item with
    | true =>
      rw [List.filter_cons_of_pos kept, List.idxOf_cons, List.idxOf_cons] at before
      cases isFirst : item == a <;> cases isSecond : item == b
      · simp only [isFirst, isSecond, cond_false, Nat.add_lt_add_iff_right] at before ⊢
        exact ih before
      all_goals simp_all
    | false =>
      rw [List.filter_cons_of_neg (by simp [kept])] at before
      have notFirst : (item == a) = false := beq_false_of_ne fun same => by rw [same, keepsFirst] at kept; cases kept
      have notSecond : (item == b) = false := beq_false_of_ne fun same => by rw [same, keepsSecond] at kept; cases kept
      simp only [notFirst, notSecond, cond_false, Nat.add_lt_add_iff_right]
      exact ih before

lemma pairwise_eraseDups : (items : List α) →
    items.eraseDups.Pairwise fun a b => items.idxOf a < items.idxOf b
  | [] => .nil
  | item :: rest => by
    have others : ∀ other ∈ (rest.filter fun other => !other == item).eraseDups, (!other == item) = true :=
      fun other left => (List.mem_filter.mp (List.mem_eraseDups.mp left)).2
    rw [List.eraseDups_cons]
    refine .cons (fun other left => ?_) ?_
    · rw [List.idxOf_cons_self, List.idxOf_cons_ne rest fun same => by simpa [same] using others other left]
      exact Nat.succ_pos _
    · refine (pairwise_eraseDups (rest.filter fun other => !other == item)).imp_of_mem ?_
      intro a b isLeft isLeft' before
      have apart : item ≠ a := fun same => by simpa [same] using others a isLeft
      have apart' : item ≠ b := fun same => by simpa [same] using others b isLeft'
      rw [List.idxOf_cons_ne rest apart, List.idxOf_cons_ne rest apart']
      exact Nat.succ_lt_succ (idxOf_lt_of_filter (others a isLeft) (others b isLeft') before)
termination_by items => items.length
decreasing_by all_goals exact Nat.lt_succ_of_le (List.length_filter_le _ _)

lemma nodup_eraseDups (items : List α) : items.eraseDups.Nodup := by
  refine (pairwise_eraseDups items).imp ?_
  rintro a b before rfl
  exact Nat.lt_irrefl _ before

end RepoAudit
