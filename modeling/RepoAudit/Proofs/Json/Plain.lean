import Mathlib.Tactic.Common
import RepoAudit.Store.Shape

/-!
# Plain values

A plain value has no double in it and is nested to a bounded depth. Everything that scans and requests keep is
plain: scores, snapshots, phases, entries of trees and steps of scans.
-/

namespace RepoAudit.Json

/-- True of a value without doubles whose arrays and objects are nested no deeper than the bound. -/
def isPlain : Nat → Json → Bool
  | _, .double _ => false
  | 0, .array _ => false
  | 0, .object _ => false
  | depth + 1, .array items => items.all (isPlain depth)
  | depth + 1, .object members => members.all fun member => isPlain depth member.2
  | _, _ => true

section Scalars

variable (depth : Nat)

@[simp] lemma isPlain_null : isPlain depth .null = true := by cases depth <;> rfl

@[simp] lemma isPlain_bool (b : Bool) : isPlain depth (.bool b) = true := by cases depth <;> rfl

@[simp] lemma isPlain_integer (n : Int) : isPlain depth (.integer n) = true := by
  cases depth <;> rfl

@[simp] lemma isPlain_text (s : String) : isPlain depth (.text s) = true := by cases depth <;> rfl

@[simp] lemma isPlain_ofText? (s : Option String) : isPlain depth (ofText? s) = true := by
  cases s <;> simp [ofText?]

@[simp] lemma isPlain_ofInt? (n : Option Int) : isPlain depth (ofInt? n) = true := by
  cases n <;> simp [ofInt?]

end Scalars

@[simp] lemma isPlain_array (depth : Nat) (items : List Json) :
    isPlain (depth + 1) (.array items) = items.all (isPlain depth) := rfl

@[simp] lemma isPlain_object (depth : Nat) (members : List (String × Json)) :
    isPlain (depth + 1) (.object members) = members.all fun member => isPlain depth member.2 := rfl

lemma isPlain_ofList {α : Type} {write : α → Json} {depth : Nat}
    (plain : ∀ item, isPlain depth (write item) = true) (items : List α) :
    isPlain (depth + 1) (ofList write items) = true := by
  simp [ofList, plain]

/-- A plain value is plain to any greater depth. -/
lemma isPlain_mono : ∀ {bound greater : Nat} {value : Json}, value.isPlain bound = true →
    bound ≤ greater → value.isPlain greater = true := by
  intro bound
  induction bound with
  | zero =>
    intro greater value plain _
    cases value with
    | double | array | object => cases plain
    | _ => simp
  | succ bound ih =>
    intro greater value plain less
    obtain ⟨greater, rfl⟩ : ∃ smaller, greater = smaller + 1 := ⟨greater - 1, by omega⟩
    cases value with
    | array items =>
      rw [isPlain_array, List.all_eq_true] at plain ⊢
      exact fun item stored => ih (plain item stored) (by omega)
    | object members =>
      rw [isPlain_object, List.all_eq_true] at plain ⊢
      exact fun member stored => ih (plain member stored) (by omega)
    | double => cases plain
    | _ => simp

end RepoAudit.Json

namespace RepoAudit

section Kept

variable (depth : Nat)

@[simp] lemma LogEntry.isPlain_toJson (entry : LogEntry) :
    entry.toJson.isPlain (depth + 1) = true := by
  simp [LogEntry.toJson]

@[simp] lemma TreeEntry.isPlain_toJson (entry : TreeEntry) :
    entry.toJson.isPlain (depth + 1) = true := by
  rcases size : entry.size with _ | (_ | _) <;> simp [TreeEntry.toJson, size, FileSize.toJson]

@[simp] lemma Phase.isPlain_toJson (phase : Phase) : phase.toJson.isPlain (depth + 2) = true := by
  simp [Phase.toJson]

@[simp] lemma Scores.isPlain_toJson (scores : Scores) :
    scores.toJson.isPlain (depth + 1) = true := by
  simp [Scores.toJson]

@[simp] lemma Snapshot.isPlain_toJson (snapshot : Snapshot) :
    snapshot.toJson.isPlain (depth + 2) = true := by
  simp [Snapshot.toJson]

end Kept

end RepoAudit
