import RepoAudit.Proofs.Traffic.Basic

/-!
# What a history tells

Requests for scans have serials and accepted scans have numbers, so a history tells which request marked an
audit and with what record, which scan the executor took for it, and what this scan did. The interval of a
request is open from the mark until its scan completes the audit, or until the request takes the mark back
because the executor takes no scan.
-/

namespace RepoAudit.Traffic

/-- The request marked the audit, which then stood as the record. -/
def Begun (hs : List Happening) (auditId : String) (k : Nat) (base : AuditRecord) : Prop :=
  .served k ⟨.updateAudit auditId Scan.beginning, .ok (some base)⟩ ∈ hs

/-- The executor took a scan of the audit for the request. -/
def Admitted (hs : List Happening) (auditId : String) (k n : Nat) : Prop :=
  .served k ⟨.submit auditId, some n⟩ ∈ hs

/-- The request took its mark back. -/
def Withdrawn (hs : List Happening) (k : Nat) : Prop :=
  ∃ auditId now reply, .served k ⟨.updateAudit auditId (Scan.refusal now), reply⟩ ∈ hs

/-- The calls of a scan with their replies. -/
def exchangesOf (n : Nat) (hs : List Happening) : List Exchange :=
  hs.filterMap fun
    | .scanned m exchange => if m = n then some exchange else none
    | _ => none

/-- The calls of a request with their replies. -/
def callsOf (k : Nat) (hs : List Happening) : List Exchange :=
  hs.filterMap fun
    | .served j exchange => if j = k then some exchange else none
    | _ => none

/-- How far a request has come. -/
def reached (k : Nat) (hs : List Happening) : Opening := (callsOf k hs).foldl Opening.next .fresh

/-- True of the write that completes an audit. -/
def completing : Exchange → Prop
  | ⟨.updateAudit _ changes, _⟩ => Scan.Completes changes
  | _ => False

lemma not_completing {e : Exchange} (other : ∀ id changes, e.call ≠ .updateAudit id changes) :
    ¬ completing e := by
  rcases e with ⟨c, reply⟩
  cases c with
  | updateAudit id changes => exact absurd rfl (other id changes)
  | _ => exact not_false

/-- The scan completed its audit. -/
def Finished (hs : List Happening) (n : Nat) : Prop := ∃ e ∈ exchangesOf n hs, completing e

/-- The interval of the request is open. -/
def Open (hs : List Happening) (auditId : String) (k : Nat) : Prop :=
  (∃ base, Begun hs auditId k base) ∧ ¬ Withdrawn hs k ∧
    ∀ n, Admitted hs auditId k n → ¬ Finished hs n

/-- The request is the last one that marked the audit. -/
def Newest (hs : List Happening) (auditId : String) (k : Nat) : Prop :=
  (∃ base, Begun hs auditId k base) ∧ ∀ j base, Begun hs auditId j base → j ≤ k

/-- How far a scan has come with an audit that stood as the record when it was marked. -/
def progress (base : AuditRecord) (n : Nat) (hs : List Happening) : Progress :=
  (exchangesOf n hs).foldl Progress.next ⟨base, [], []⟩

section Later

variable {hs : List Happening} {h : Happening} {auditId : String} {k n : Nat} {base : AuditRecord}

lemma Begun.later (begun : Begun hs auditId k base) : Begun (hs ++ [h]) auditId k base :=
  List.mem_append_left _ begun

lemma Admitted.later (admitted : Admitted hs auditId k n) : Admitted (hs ++ [h]) auditId k n :=
  List.mem_append_left _ admitted

lemma Withdrawn.later (withdrawn : Withdrawn hs k) : Withdrawn (hs ++ [h]) k := by
  obtain ⟨a, now, reply, happened⟩ := withdrawn
  exact ⟨a, now, reply, List.mem_append_left _ happened⟩

lemma begun_concat : Begun (hs ++ [h]) auditId k base ↔
    Begun hs auditId k base ∨
      h = .served k ⟨.updateAudit auditId Scan.beginning, .ok (some base)⟩ := by
  simp [Begun, eq_comm]

lemma admitted_concat : Admitted (hs ++ [h]) auditId k n ↔
    Admitted hs auditId k n ∨ h = .served k ⟨.submit auditId, some n⟩ := by
  simp [Admitted, eq_comm]

lemma withdrawn_concat : Withdrawn (hs ++ [h]) k ↔
    Withdrawn hs k ∨ ∃ auditId now reply,
      h = .served k ⟨.updateAudit auditId (Scan.refusal now), reply⟩ := by
  constructor
  · rintro ⟨a, now, reply, happened⟩
    obtain before | last := List.mem_append.mp happened
    · exact .inl ⟨a, now, reply, before⟩
    · exact .inr ⟨a, now, reply, (List.mem_singleton.mp last).symm⟩
  · rintro (withdrawn | ⟨a, now, reply, rfl⟩)
    · exact withdrawn.later
    · exact ⟨a, now, reply, List.mem_append_right _ List.mem_cons_self⟩

@[simp] lemma exchangesOf_append (n : Nat) (hs more : List Happening) :
    exchangesOf n (hs ++ more) = exchangesOf n hs ++ exchangesOf n more :=
  List.filterMap_append

lemma exchangesOf_scanned (n : Nat) (e : Exchange) : exchangesOf n [.scanned n e] = [e] := by
  simp [exchangesOf]

lemma exchangesOf_other {h : Happening} (other : ∀ e, h ≠ .scanned n e) : exchangesOf n [h] = [] := by
  cases h with
  | scanned m e =>
    have : m ≠ n := fun same => other e (by rw [same])
    simp [exchangesOf, this]
  | _ => rfl

lemma mem_exchangesOf {e : Exchange} : e ∈ exchangesOf n hs ↔ .scanned n e ∈ hs := by
  simp only [exchangesOf, List.mem_filterMap]
  constructor
  · rintro ⟨h, happened, is⟩
    cases h with
    | scanned m exchange =>
      obtain ⟨rfl, rfl⟩ : m = n ∧ exchange = e := by simpa using is
      exact happened
    | _ => cases is
  · exact fun happened => ⟨_, happened, by simp⟩

lemma reached_concat_served (e : Exchange) :
    reached k (hs ++ [.served k e]) = (reached k hs).next e := by
  simp [reached, callsOf]

lemma reached_concat_other (other : ∀ e, h ≠ .served k e) : reached k (hs ++ [h]) = reached k hs := by
  cases h with
  | served j e =>
    have apart : j ≠ k := fun same => other e (by rw [same])
    simp [reached, callsOf, apart]
  | _ => simp [reached, callsOf]

/-- A request that has not called anything has not come far. -/
lemma reached_of_unserved (unserved : ∀ e, .served k e ∉ hs) : reached k hs = .fresh := by
  have none : callsOf k hs = [] := by
    refine List.filterMap_eq_nil_iff.mpr fun h happened => ?_
    cases h with
    | served j e =>
      have apart : j ≠ k := fun same => unserved e (same ▸ happened)
      simp [apart]
    | _ => rfl
  rw [reached, none]
  rfl

lemma finished_concat_scanned {e : Exchange} :
    Finished (hs ++ [.scanned n e]) n ↔ Finished hs n ∨ completing e := by
  simp [Finished, exchangesOf_scanned, or_and_right, exists_or]

lemma finished_concat_other (other : ∀ e, h ≠ .scanned n e) :
    Finished (hs ++ [h]) n ↔ Finished hs n := by
  simp [Finished, exchangesOf_other other]

lemma progress_concat_scanned (e : Exchange) :
    progress base n (hs ++ [.scanned n e]) = (progress base n hs).next e := by
  simp [progress, exchangesOf_scanned]

lemma progress_concat_other (other : ∀ e, h ≠ .scanned n e) :
    progress base n (hs ++ [h]) = progress base n hs := by
  simp [progress, exchangesOf_other other]

end Later

section Scanned

variable {hs : List Happening} {auditId : String} {k n : Nat} {base : AuditRecord} {e : Exchange}

@[simp] lemma begun_scanned :
    Begun (hs ++ [.scanned n e]) auditId k base ↔ Begun hs auditId k base := by
  simp [begun_concat]

@[simp] lemma admitted_scanned {m : Nat} :
    Admitted (hs ++ [.scanned n e]) auditId k m ↔ Admitted hs auditId k m := by
  simp [admitted_concat]

@[simp] lemma withdrawn_scanned : Withdrawn (hs ++ [.scanned n e]) k ↔ Withdrawn hs k := by
  simp [withdrawn_concat]

@[simp] lemma newest_scanned : Newest (hs ++ [.scanned n e]) auditId k ↔ Newest hs auditId k := by
  simp [Newest]

/-- A scan finishes at the write that completes its audit. -/
lemma finished_scanned {m : Nat} :
    Finished (hs ++ [.scanned n e]) m ↔ Finished hs m ∨ m = n ∧ completing e := by
  by_cases same : m = n
  · subst same
    simp [finished_concat_scanned]
  · simp [finished_concat_other (h := .scanned n e) (n := m) (by simp [Ne.symm same]), same]

end Scanned

end RepoAudit.Traffic
