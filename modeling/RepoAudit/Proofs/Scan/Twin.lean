import Mathlib.Data.List.Induction
import RepoAudit.Proofs.Scan.Contract
import RepoAudit.Proofs.Scan.Tenure

/-!
# Scans side by side

Two scans with the same engine, of audits of the same repository, go the same way as long as they are told the same
from outside and their writes succeed: call for call, they differ in nothing but the audit that they are about
(`Program.Twins`). So what they were told and what they did to their audits is the same for both (`Deeds`). The rules
follow the way programs are put together, as those of contracts do.
-/

namespace RepoAudit

/-- True of the calls that ask the clock or the host. -/
def Call.isOutside : Call → Bool
  | .now => true
  | c => c.asksHost

/-- What a scan was told from outside, what it changed of its audit, and the findings that it added. -/
structure Deeds where
  told : List Exchange := []
  changes : List (AuditField × Json) := []
  added : List FindingRecord := []

namespace Deeds

/-- After another reply from outside. -/
def hear (deeds : Deeds) (e : Exchange) : Deeds := { deeds with told := deeds.told ++ [e] }

/-- After another change of the audit. -/
def change (deeds : Deeds) (changes : List (AuditField × Json)) : Deeds :=
  { deeds with changes := deeds.changes ++ changes }

/-- After another finding. -/
def add (deeds : Deeds) (draft : FindingRecord) : Deeds := { deeds with added := deeds.added ++ [draft] }

/-- A field whose value is one that was written, whatever the audit had before. -/
def Writes (deeds : Deeds) (field : AuditField) : Prop := field ∈ deeds.changes.map Prod.fst

/-- No audit is running any more after these changes. -/
def Ends (deeds : Deeds) : Prop := ∀ base : AuditRecord, (base.change deeds.changes).isRunning = false

end Deeds

/-- Where a field was written, what it was before does not matter. -/
lemma Deeds.Writes.get_eq {deeds : Deeds} {field : AuditField} (writes : deeds.Writes field)
    (left right : AuditRecord) :
    (left.change deeds.changes).get field = (right.change deeds.changes).get field := by
  obtain ⟨told, changes, added⟩ := deeds
  dsimp only [Deeds.Writes] at writes ⊢
  induction changes using List.reverseRecOn with
  | nil => cases writes
  | append_singleton changes change ih =>
    rw [AuditRecord.change_append, AuditRecord.change_append]
    change ((left.change changes).set change.1 change.2).get field =
      ((right.change changes).set change.1 change.2).get field
    rw [AuditRecord.get_set, AuditRecord.get_set]
    by_cases last : field = change.1
    · rw [if_pos last, if_pos last]
    · rw [if_neg last, if_neg last]
      refine ih ?_
      simpa [last] using writes

/-- The fields that tell what came of a scan. -/
def Scan.results : List AuditField :=
  [.status, .scores, .executiveSummary, .remediationPlan, .scanLog, .scannedAt]

/-- Changes that leave the repository of an audit. -/
def Scan.KeepsNames (changes : List (AuditField × Json)) : Prop :=
  ∀ change ∈ changes, change.1 ≠ .ownerName ∧ change.1 ≠ .repoName

@[simp] lemma Scan.keepsNames_singleton {field : AuditField} {value : Json} :
    KeepsNames [(field, value)] ↔ field ≠ .ownerName ∧ field ≠ .repoName :=
  List.forall_mem_singleton

lemma Scan.KeepsNames.change {changes : List (AuditField × Json)} (names : KeepsNames changes) (audit : AuditRecord) :
    (audit.change changes).ownerName = audit.ownerName ∧ (audit.change changes).repoName = audit.repoName :=
  ⟨AuditRecord.get_change_of_notMem (fun change named => (names change named).1) audit,
    AuditRecord.get_change_of_notMem (fun change named => (names change named).2) audit⟩

@[simp] lemma Scan.keepsNames_ending (now : Instant) (summary : String) : KeepsNames (ending now summary) := by
  simp [KeepsNames, ending]

/-- All that is to depend on the scan alone was written by it: the results, and if the repository was given also what
is kept about it. The repository stays the one that it was. -/
structure Deeds.Settled (deeds : Deeds) : Prop where
  names : Scan.KeepsNames deeds.changes
  results : ∀ field ∈ Scan.results, deeds.Writes field
  given : ∀ owner name snapshot, ⟨.repository owner name, .ok snapshot⟩ ∈ deeds.told →
    deeds.Writes .repoMeta ∧ deeds.Writes .fileTree

namespace Deeds

variable {deeds : Deeds} {field : AuditField}

@[simp] lemma writes_hear (e : Exchange) : (deeds.hear e).Writes field ↔ deeds.Writes field := Iff.rfl

@[simp] lemma writes_change (changes : List (AuditField × Json)) :
    (deeds.change changes).Writes field ↔ deeds.Writes field ∨ field ∈ changes.map Prod.fst := by
  rw [Writes, Deeds.change, List.map_append, List.mem_append, Writes]

@[simp] lemma told_change (changes : List (AuditField × Json)) : (deeds.change changes).told = deeds.told := rfl

@[simp] lemma told_hear (e : Exchange) : (deeds.hear e).told = deeds.told ++ [e] := rfl

@[simp] lemma changes_hear (e : Exchange) : (deeds.hear e).changes = deeds.changes := rfl

lemma Settled.hear (settled : deeds.Settled) {c : Call} (other : ∀ owner name, c ≠ .repository owner name)
    (reply : c.Reply) : (deeds.hear ⟨c, reply⟩).Settled := by
  refine ⟨settled.names, settled.results, fun owner name snapshot told => ?_⟩
  obtain earlier | last := List.mem_append.mp told
  · exact settled.given owner name snapshot earlier
  · exact absurd (congrArg Exchange.call (List.mem_singleton.mp last)).symm (other owner name)

@[simp] lemma keepsNames_change {changes : List (AuditField × Json)} :
    Scan.KeepsNames (deeds.change changes).changes ↔ Scan.KeepsNames deeds.changes ∧ Scan.KeepsNames changes :=
  List.forall_mem_append

lemma Settled.change (settled : deeds.Settled) {changes : List (AuditField × Json)}
    (names : Scan.KeepsNames changes) : (deeds.change changes).Settled := by
  have more {field : AuditField} (writes : deeds.Writes field) : (deeds.change changes).Writes field :=
    (writes_change changes).mpr (.inl writes)
  refine ⟨keepsNames_change.mpr ⟨settled.names, names⟩, fun field member => more (settled.results field member), ?_⟩
  exact fun owner name snapshot told => (settled.given owner name snapshot told).imp more more

lemma Settled.add (settled : deeds.Settled) (draft : FindingRecord) : (deeds.add draft).Settled :=
  ⟨settled.names, settled.results, settled.given⟩

/-- The last change decides. -/
lemma ends_change {changes : List (AuditField × Json)}
    (ends : ∀ base : AuditRecord, (base.change changes).isRunning = false) : (deeds.change changes).Ends := by
  intro base
  rw [Deeds.change, AuditRecord.change_append]
  exact ends _

end Deeds

/-- Two programs that go the same way, each with an audit of its own: they ask the same from outside, and they do the
same to their audits. The audits are as they were, but for what was done. -/
inductive Program.Twins {α β : Type} (left right : AuditRecord) (post : α → β → Deeds → Prop) :
    Program α → Program β → Deeds → Prop
  | done {x : α} {y : β} {deeds : Deeds} (holds : post x y deeds) : Twins left right post (.done x) (.done y) deeds
  | outside {c : Call} {p : c.Reply → Program α} {q : c.Reply → Program β} {deeds : Deeds}
      (outside : c.isOutside = true)
      (goes : ∀ reply, Twins left right post (p reply) (q reply) (deeds.hear ⟨c, reply⟩)) :
      Twins left right post (.call c p) (.call c q) deeds
  | look {p : Option AuditRecord → Program α} {q : Option AuditRecord → Program β} {deeds : Deeds}
      (goes : Twins left right post (p (some (left.change deeds.changes)))
        (q (some (right.change deeds.changes))) deeds) :
      Twins left right post (.call (.getAudit left.id) p) (.call (.getAudit right.id) q) deeds
  | change {changes : List (AuditField × Json)} {p : Except StoreError (Option AuditRecord) → Program α}
      {q : Except StoreError (Option AuditRecord) → Program β} {deeds : Deeds}
      (goes : ∀ x y, Twins left right post (p (.ok x)) (q (.ok y)) (deeds.change changes)) :
      Twins left right post (.call (.updateAudit left.id changes) p) (.call (.updateAudit right.id changes) q) deeds
  | add {draft : FindingRecord} {p : Except StoreError FindingRecord → Program α}
      {q : Except StoreError FindingRecord → Program β} {deeds : Deeds}
      (goes : ∀ x y, Twins left right post (p (.ok x)) (q (.ok y)) (deeds.add draft)) :
      Twins left right post (.call (.createFinding left.id draft) p) (.call (.createFinding right.id draft) q) deeds

lemma Program.Twins.mono {α β : Type} {left right : AuditRecord} {post weaker : α → β → Deeds → Prop}
    (imp : ∀ x y deeds, post x y deeds → weaker x y deeds) {p : Program α} {q : Program β} {deeds : Deeds}
    (twins : p.Twins left right post q deeds) : p.Twins left right weaker q deeds := by
  induction twins with
  | done holds => exact .done (imp _ _ _ holds)
  | outside outside _ ih => exact .outside outside ih
  | look _ ih => exact .look ih
  | change _ ih => exact .change ih
  | add _ ih => exact .add ih

lemma Program.Twins.bind {α β γ δ : Type} {left right : AuditRecord} {mid : α → β → Deeds → Prop}
    {post : γ → δ → Deeds → Prop} {p : Program α} {q : Program β} {f : α → Program γ} {g : β → Program δ}
    {deeds : Deeds} (first : p.Twins left right mid q deeds)
    (second : ∀ x y deeds, mid x y deeds → (f x).Twins left right post (g y) deeds) :
    (p.bind f).Twins left right post (q.bind g) deeds := by
  induction first with
  | done holds => exact second _ _ _ holds
  | outside outside _ ih => exact .outside outside ih
  | look _ ih => exact .look ih
  | change _ ih => exact .change ih
  | add _ ih => exact .add ih

namespace Scan

/-- Two parts of scans go the same way, and end with the same value and with the same log. -/
def Beside {ε α : Type} (left right : AuditRecord) (post : Except ε α → ScanLog → Deeds → Prop)
    (p q : Staged ε α) (log : ScanLog) (deeds : Deeds) : Prop :=
  (p.run.run log).Twins left right (fun x y deeds => x = y ∧ post x.1 x.2 deeds) (q.run.run log) deeds

section Rules

variable {ε α β : Type} {left right : AuditRecord} {log : ScanLog} {deeds : Deeds}

lemma Beside.mono {post weaker : Except ε α → ScanLog → Deeds → Prop} {p q : Staged ε α}
    (beside : Beside left right post p q log deeds) (imp : ∀ result log deeds, post result log deeds →
      weaker result log deeds) : Beside left right weaker p q log deeds :=
  Program.Twins.mono (fun _ _ _ holds => ⟨holds.1, imp _ _ _ holds.2⟩) beside

lemma beside_pure {post : Except ε α → ScanLog → Deeds → Prop} {value : α} (holds : post (.ok value) log deeds) :
    Beside left right post (pure value) (pure value) log deeds :=
  .done ⟨rfl, holds⟩

lemma beside_throw {post : Except ε α → ScanLog → Deeds → Prop} {error : ε}
    (holds : post (.error error) log deeds) :
    Beside left right post (throw error : Staged ε α) (throw error) log deeds :=
  .done ⟨rfl, holds⟩

/-- One part after another; the second one is left out when the first one fails. -/
lemma beside_bind {post : Except ε β → ScanLog → Deeds → Prop} {p q : Staged ε α} {f g : α → Staged ε β}
    (beside : Beside left right (fun result log deeds => match result with
      | .ok value => Beside left right post (f value) (g value) log deeds
      | .error error => post (.error error) log deeds) p q log deeds) :
    Beside left right post (p >>= f) (q >>= g) log deeds := by
  refine Program.Twins.bind beside ?_
  rintro ⟨error | value, log⟩ - deeds ⟨rfl, holds⟩
  · exact .done ⟨rfl, holds⟩
  · exact holds

lemma beside_call {c : Call} {post : Except ε c.Reply → ScanLog → Deeds → Prop} (outside : c.isOutside = true)
    (next : ∀ reply, post (.ok reply) log (deeds.hear ⟨c, reply⟩)) :
    Beside left right post (liftM (Program.ask c) : Staged ε c.Reply) (liftM (Program.ask c)) log deeds :=
  .outside outside fun reply => .done ⟨rfl, next reply⟩

lemma beside_ask {c : Call} {post : Except Interruption c.Reply → ScanLog → Deeds → Prop}
    (outside : c.isOutside = true) (next : ∀ reply, post (.ok reply) log (deeds.hear ⟨c, reply⟩)) :
    Beside left right post (ask c) (ask c) log deeds :=
  beside_call outside next

lemma beside_keeping {post : Except Interruption α → ScanLog → Deeds → Prop} {p q : Logging α}
    (beside : Beside left right (fun result log deeds => post (result.mapError .store) log deeds) p q log deeds) :
    Beside left right post (keeping p) (keeping q) log deeds := by
  refine Program.Twins.bind beside ?_
  rintro ⟨error | value, log⟩ - deeds ⟨rfl, holds⟩
  · exact .done ⟨rfl, holds⟩
  · exact .done ⟨rfl, holds⟩

/-- A look at each audit: it is as it was, but for what was done. -/
lemma beside_look {post : Except Interruption β → ScanLog → Deeds → Prop} {f g : Option AuditRecord → Part β}
    (next : Beside left right post (f (some (left.change deeds.changes))) (g (some (right.change deeds.changes)))
      log deeds) :
    Beside left right post (ask (.getAudit left.id) >>= f) (ask (.getAudit right.id) >>= g) log deeds :=
  .look next

lemma beside_update {changes : List (AuditField × Json)} {post : Except StoreError Unit → ScanLog → Deeds → Prop}
    (next : post (.ok ()) log (deeds.change changes)) :
    Beside left right post (update left.id changes) (update right.id changes) log deeds :=
  .change fun _ _ => .done ⟨rfl, next⟩

lemma beside_note {step message : String} {status : StepStatus}
    {post : Except StoreError Unit → ScanLog → Deeds → Prop}
    (next : ∀ now, let longer := log.push step status message now
      post (.ok ()) longer ((deeds.hear ⟨.now, now⟩).change
        [(.scanLog, Json.ofList LogEntry.toJson longer.entries)])) :
    Beside left right post (note left.id step status message) (note right.id step status message) log deeds :=
  .outside rfl fun now => beside_update (next now)

lemma beside_record {γ : Type} {stage : Stage γ} {post : Except Interruption Unit → ScanLog → Deeds → Prop}
    (next : ∀ now, let longer := log.push stage.step stage.status stage.message now
      post (.ok ()) longer ((deeds.hear ⟨.now, now⟩).change
        [(.scanLog, Json.ofList LogEntry.toJson longer.entries)])) :
    Beside left right post (record left.id stage) (record right.id stage) log deeds :=
  beside_keeping (beside_note next)

end Rules

/-- Two parts of scans that go the same way, and leave settled what is settled. -/
def Alongside {ε α : Type} (left right : AuditRecord) (p q : Staged ε α) : Prop :=
  ∀ log deeds, deeds.Settled → Beside left right (fun _ _ deeds => deeds.Settled) p q log deeds

section Parts

variable {ε α β : Type} {left right : AuditRecord}

lemma congruent_alongside (left right : AuditRecord) : Congruent fun _ _ => Alongside left right where
  pure _ _ _ settled := beside_pure settled
  throw _ _ _ settled := beside_throw settled
  bind first second log deeds settled := by
    refine beside_bind ((first log deeds settled).mono ?_)
    rintro (error | value) log deeds settled
    · exact settled
    · exact second value log deeds settled

lemma Alongside.ask {c : Call} (outside : c.isOutside = true) (other : ∀ owner name, c ≠ .repository owner name) :
    Alongside left right (ask c) (ask c) :=
  fun _ _ settled => beside_ask outside fun reply => settled.hear other reply

lemma Alongside.keeping {p q : Logging α} (alongside : Alongside left right p q) :
    Alongside left right (keeping p) (keeping q) :=
  fun log deeds settled => beside_keeping (alongside log deeds settled)

lemma alongside_note (step message : String) (status : StepStatus) :
    Alongside left right (note left.id step status message) (note right.id step status message) :=
  fun _ _ settled => beside_note fun now => (settled.hear (c := .now) (by simp) now).change (by simp)

variable {engine : Engine} {owner name : String}

lemma alongside_inspectTree (tree : List TreeEntry) :
    Alongside left right (inspectTree engine left.id owner name tree)
      (inspectTree engine right.id owner name tree) :=
  (congruent_alongside left right).inspectTree _ _ (fun _ _ _ => .keeping (alongside_note _ _ _))
    (fun _ => .ask rfl (by simp)) tree

/-- Two parts of scans that go the same way, and when they go well no audit is running any more. -/
def Closing (left right : AuditRecord) (p q : Part Unit) : Prop :=
  ∀ log deeds, deeds.Settled →
    Beside left right (fun result _ deeds => deeds.Settled ∧ (result = .ok () → deeds.Ends)) p q log deeds

lemma Closing.after {p q : Part α} {f g : α → Part Unit} (first : Alongside left right p q)
    (second : ∀ value, Closing left right (f value) (g value)) : Closing left right (p >>= f) (q >>= g) := by
  intro log deeds settled
  refine beside_bind ((first log deeds settled).mono ?_)
  rintro (error | value) log deeds settled
  · exact ⟨settled, fun same => nomatch same⟩
  · exact second value log deeds settled

lemma closing_update {changes : List (AuditField × Json)} (names : KeepsNames changes)
    (ends : ∀ base : AuditRecord, (base.change changes).isRunning = false) :
    Closing left right (keeping (update left.id changes)) (keeping (update right.id changes)) :=
  fun _ _ settled => beside_keeping (beside_update ⟨settled.change names, fun _ => Deeds.ends_change ends⟩)

lemma closing_conclude (findings : List Finding) :
    Closing left right (conclude left.id owner name findings) (conclude right.id owner name findings) := by
  refine .after ((congruent_alongside left right).forIn (fun finding => ?_) _) fun _ =>
    .after (.keeping (alongside_note _ _ _)) fun _ => ?_
  · exact fun _ _ settled => .add fun _ _ => .done ⟨rfl, settled.add _⟩
  · exact .after (.ask rfl (by simp)) fun now => closing_update (by simp [KeepsNames]) fun _ => rfl

/-- From here on a scan was given its repository, and it is settled again once it has kept the tree. -/
lemma beside_explore (snapshot : Snapshot) (log : ScanLog) {deeds : Deeds} (names : KeepsNames deeds.changes)
    (results : ∀ field ∈ Scan.results, deeds.Writes field) :
    Beside left right (fun result _ deeds => deeds.Settled ∧ (result = .ok () → deeds.Ends))
      (explore engine left.id owner name snapshot) (explore engine right.id owner name snapshot) log deeds := by
  refine beside_bind (beside_ask rfl fun languages => beside_bind (beside_record fun _ => ?_))
  refine beside_bind (beside_keeping (beside_update ?_))
  refine beside_bind (beside_ask rfl fun tree => beside_bind (beside_record fun _ => ?_))
  refine beside_bind (beside_keeping (beside_update ?_))
  refine Closing.after (alongside_inspectTree _) (fun findings => closing_conclude findings) _ _ ⟨?_, ?_, ?_⟩
  · simp [names]
  · exact fun field member => by simp [results field member]
  · exact fun _ _ _ _ => by simp

/-- The scans of two audits of the same repository, from where the audits are marked. -/
lemma beside_body (owner : left.ownerName = right.ownerName) (name : left.repoName = right.repoName) :
    Beside left right (fun result _ deeds => deeds.Settled ∧ (result = .ok () → deeds.Ends))
      (body engine left.id) (body engine right.id) {} { changes := beginning } := by
  have results : ∀ field ∈ Scan.results, ({ changes := beginning } : Deeds).Writes field := by
    simp [Scan.results, Deeds.Writes, beginning]
  have names : KeepsNames beginning := by simp [KeepsNames, beginning]
  refine beside_look ?_
  -- The beginning does not name the repository, so both scans ask for the same one.
  dsimp only
  rw [(names.change left).1, (names.change left).2, (names.change right).1, (names.change right).2, owner, name]
  refine beside_bind (beside_ask rfl fun host => beside_bind (beside_keeping (beside_note fun _ => ?_)))
  refine beside_bind (beside_ask rfl fun reply => beside_bind (beside_record fun _ => ?_))
  cases reply with
  | ok snapshot =>
    refine beside_explore snapshot _ ?_ fun field member => by simp [results field member]
    simp [names]
  | error reason =>
    refine beside_bind (beside_ask rfl fun now => beside_keeping (beside_update ⟨⟨?_, ?_, ?_⟩, ?_⟩))
    · simp [names]
    · exact fun field member => by simp [results field member]
    · simp
    · exact fun _ => Deeds.ends_change fun _ => rfl

lemma beside_recover (interruption : Interruption) (log : ScanLog) {deeds : Deeds} (settled : deeds.Settled) :
    Beside left right (fun result _ deeds => result = .ok () ∧ deeds.Settled ∧ deeds.Ends)
      (recover left.id interruption) (recover right.id interruption) log deeds := by
  refine beside_bind (beside_note fun now => beside_bind (beside_call rfl fun later => beside_update ?_))
  refine ⟨rfl, Deeds.Settled.change ?_ (by simp), Deeds.ends_change fun _ => rfl⟩
  exact ((settled.hear (c := .now) (by simp) now).change (by simp)).hear (by simp) later

/-- How two scans end: each gives its audit, which is no longer running. -/
def Finished (left right : AuditRecord) (x y : Except StoreError (Option AuditRecord)) (deeds : Deeds) : Prop :=
  x = .ok (some (left.change deeds.changes)) ∧ y = .ok (some (right.change deeds.changes)) ∧ deeds.Settled ∧
    deeds.Ends

/-- Two scans of the same repository go the same way, from where their audits are marked. -/
theorem twins_run (owner : left.ownerName = right.ownerName) (name : left.repoName = right.repoName) :
    (run engine left.id).Twins left right (Finished left right) (run engine right.id) { changes := beginning } := by
  refine Program.Twins.bind (beside_body owner name) ?_
  rintro ⟨interruption | ⟨⟩, log⟩ - deeds ⟨rfl, settled, ends⟩
  · refine Program.Twins.bind (beside_recover interruption log settled) ?_
    rintro ⟨_, log'⟩ - deeds ⟨rfl, rfl, settled, ends⟩
    exact .look (.done ⟨rfl, rfl, settled, ends⟩)
  · exact .look (.done ⟨rfl, rfl, settled, ends rfl⟩)

end Parts

end Scan

end RepoAudit
