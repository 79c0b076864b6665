import RepoAudit.Proofs.Scan.Contract
import RepoAudit.Proofs.Scan.Tenure

/-!
# Scans at different times

A scan is told the time and writes it down, and the findings that it adds get ids, but neither decides anything. So two
runs of a scan go the same way, call for call, as long as the host answers the same and their audit is the same but for
times (`Program.InStep`): what they write differs in times only (`AuditRecord.timeless`).
-/

namespace RepoAudit

/-- True or null of a moment, which tells whether there is one. -/
def Json.whether : Json → Json
  | .null => .null
  | _ => .bool true

/-- The steps of a log that is kept, without their times. -/
def Json.withoutTimes : Json → Json
  | .array steps => .array (steps.map fun
    | .object members => .object (members.filter (·.1 != "timestamp"))
    | step => step)
  | log => log

/-- The value of a field without the times that a scan writes into it. -/
def AuditField.timeless : AuditField → Json → Json
  | .scanLog, log => log.withoutTimes
  | .scannedAt, moment => moment.whether
  | _, value => value

/-- Changes without times. -/
def AuditField.timelessly (changes : List (AuditField × Json)) : List (AuditField × Json) :=
  changes.map fun (field, value) => (field, field.timeless value)

/-- An audit without the times of its scan. -/
def AuditRecord.timeless (audit : AuditRecord) : AuditRecord :=
  { audit with scanLog := audit.scanLog.withoutTimes, scannedAt := audit.scannedAt.whether }

/-- A finding without its id. -/
def FindingRecord.unnamed (finding : FindingRecord) : FindingRecord := { finding with id := "" }

lemma AuditRecord.timeless_set (audit : AuditRecord) (field : AuditField) (value : Json) :
    (audit.set field value).timeless = audit.timeless.set field (field.timeless value) := by
  cases field <;> rfl

/-- An audit without times is changed by changes without times. -/
lemma AuditRecord.timeless_change (audit : AuditRecord) (changes : List (AuditField × Json)) :
    (audit.change changes).timeless = audit.timeless.change (AuditField.timelessly changes) := by
  induction changes generalizing audit with
  | nil => rfl
  | cons change rest ih =>
    change ((audit.set change.1 change.2).change rest).timeless = _
    rw [ih, timeless_set]
    rfl

/-- Logs with the same lines are kept as the same, but for times. -/
lemma ScanLog.withoutTimes_eq {log other : ScanLog} (same : log.lines = other.lines) :
    (Json.ofList LogEntry.toJson log.entries).withoutTimes =
      (Json.ofList LogEntry.toJson other.entries).withoutTimes := by
  -- A line has all that is kept of a step but its time.
  have kept (log : ScanLog) : (Json.ofList LogEntry.toJson log.entries).withoutTimes =
      .array (log.lines.map fun (step, status, message) =>
        .object [("step", .text step), ("status", .text status), ("message", .text message)]) := by
    simp [Json.ofList, Json.withoutTimes, lines, LogEntry.toJson]
  rw [kept, kept, same]

/-- Two programs about the same audit that go the same way: they are told the same by the host, they find the audit
the same but for times, and their changes of it are the same but for times. -/
inductive Program.InStep {α β : Type} (auditId : String) (post : α → β → Prop) : Program α → Program β → Prop
  | done {x : α} {y : β} (holds : post x y) : InStep auditId post (.done x) (.done y)
  | now {p : Instant → Program α} {q : Instant → Program β}
      (goes : ∀ now later, InStep auditId post (p now) (q later)) :
      InStep auditId post (.call .now p) (.call .now q)
  | asks {c : Call} {p : c.Reply → Program α} {q : c.Reply → Program β} (asks : c.asksHost = true)
      (goes : ∀ reply, InStep auditId post (p reply) (q reply)) : InStep auditId post (.call c p) (.call c q)
  | looks {p : Option AuditRecord → Program α} {q : Option AuditRecord → Program β}
      (goes : ∀ x y, x.map AuditRecord.timeless = y.map AuditRecord.timeless → InStep auditId post (p x) (q y)) :
      InStep auditId post (.call (.getAudit auditId) p) (.call (.getAudit auditId) q)
  | changes {changes changes' : List (AuditField × Json)} {p : Except StoreError (Option AuditRecord) → Program α}
      {q : Except StoreError (Option AuditRecord) → Program β}
      (same : AuditField.timelessly changes = AuditField.timelessly changes')
      (goes : ∀ x y, InStep auditId post (p (.ok x)) (q (.ok y))) :
      InStep auditId post (.call (.updateAudit auditId changes) p) (.call (.updateAudit auditId changes') q)
  | adds {draft : FindingRecord} {p : Except StoreError FindingRecord → Program α}
      {q : Except StoreError FindingRecord → Program β} (goes : ∀ x y, InStep auditId post (p (.ok x)) (q (.ok y)))
      (fails : ∀ error, InStep auditId post (p (.error error)) (q (.error error))) :
      InStep auditId post (.call (.createFinding auditId draft) p) (.call (.createFinding auditId draft) q)

lemma Program.InStep.bind {α β γ δ : Type} {auditId : String} {mid : α → β → Prop} {post : γ → δ → Prop}
    {p : Program α} {q : Program β} {f : α → Program γ} {g : β → Program δ} (first : p.InStep auditId mid q)
    (second : ∀ x y, mid x y → (f x).InStep auditId post (g y)) :
    (p.bind f).InStep auditId post (q.bind g) := by
  induction first with
  | done holds => exact second _ _ holds
  | now _ ih => exact .now ih
  | asks asks _ ih => exact .asks asks ih
  | looks _ ih => exact .looks ih
  | changes same _ ih => exact .changes same ih
  | adds _ _ ih ih' => exact .adds ih ih'

namespace Scan

/-- Two parts of scans of the audit that go the same way: from logs with the same lines they come to the same value, and
to logs with the same lines. -/
def InStep (auditId : String) ⦃ε α : Type⦄ (p q : Staged ε α) : Prop :=
  ∀ log other : ScanLog, log.lines = other.lines →
    (p.run.run log).InStep auditId (fun x y => x.1 = y.1 ∧ x.2.lines = y.2.lines) (q.run.run other)

section Parts

variable {ε α β : Type} {auditId : String}

lemma congruent_inStep (auditId : String) : Congruent (InStep auditId) where
  pure _ _ _ same := .done ⟨rfl, same⟩
  throw _ _ _ same := .done ⟨rfl, same⟩
  bind {ε α β p q f g} first second log other same := by
    refine Program.InStep.bind (first log other same) ?_
    rintro ⟨error | value, log⟩ ⟨_, other⟩ ⟨rfl, same⟩
    · exact .done ⟨rfl, same⟩
    · exact second value log other same

lemma InStep.bind {p q : Staged ε α} {f g : α → Staged ε β} (first : InStep auditId p q)
    (second : ∀ value, InStep auditId (f value) (g value)) : InStep auditId (p >>= f) (q >>= g) :=
  (congruent_inStep auditId).bind first second

/-- Parts that are told the time go the same way only if they do so whatever each of them is told. -/
lemma InStep.now {f g : Instant → Staged ε β} (goes : ∀ now later, InStep auditId (f now) (g later)) :
    InStep auditId (liftM (Program.ask .now) >>= f) (liftM (Program.ask .now) >>= g) :=
  fun log other same => .now fun now later => goes now later log other same

lemma InStep.ask {c : Call} (asks : c.asksHost = true) : InStep auditId (ask c) (ask c) :=
  fun _ _ same => .asks asks fun _ => .done ⟨rfl, same⟩

/-- Parts that look at the audit find it the same but for times. -/
lemma InStep.look {f g : Option AuditRecord → Part β}
    (goes : ∀ x y, x.map AuditRecord.timeless = y.map AuditRecord.timeless → InStep auditId (f x) (g y)) :
    InStep auditId (Scan.ask (.getAudit auditId) >>= f) (Scan.ask (.getAudit auditId) >>= g) :=
  fun log other same => .looks fun x y alike => goes x y alike log other same

lemma InStep.keeping {p q : Logging α} (inStep : InStep auditId p q) :
    InStep auditId (keeping p) (keeping q) := by
  intro log other same
  refine Program.InStep.bind (inStep log other same) ?_
  rintro ⟨error | value, log⟩ ⟨_, other⟩ ⟨rfl, same⟩
  · exact .done ⟨rfl, same⟩
  · exact .done ⟨rfl, same⟩

lemma inStep_update {changes changes' : List (AuditField × Json)}
    (same : AuditField.timelessly changes = AuditField.timelessly changes') :
    InStep auditId (update auditId changes) (update auditId changes') :=
  fun _ _ lines => .changes same fun _ _ => .done ⟨rfl, lines⟩

/-- A step is noted at whatever time. -/
lemma inStep_note (step : String) (status : StepStatus) (message : String) :
    InStep auditId (note auditId step status message) (note auditId step status message) := by
  intro log other same
  refine .now fun now later => ?_
  have longer : (log.push step status message now).lines = (other.push step status message later).lines := by
    rw [ScanLog.lines_push, ScanLog.lines_push, same]
  refine inStep_update ?_ _ _ longer
  simp only [AuditField.timelessly, List.map_cons, List.map_nil, AuditField.timeless, ScanLog.withoutTimes_eq longer]

lemma inStep_record (stage : Stage α) : InStep auditId (record auditId stage) (record auditId stage) :=
  .keeping (inStep_note _ _ _)

lemma inStep_ending (now later : Instant) (summary : String) :
    InStep auditId (update auditId (ending now summary)) (update auditId (ending later summary)) :=
  inStep_update (by simp [AuditField.timelessly, ending, AuditField.timeless, Json.whether])

variable {engine : Engine} {owner name : String}

lemma inStep_conclude (findings : List Finding) :
    InStep auditId (conclude auditId owner name findings) (conclude auditId owner name findings) := by
  refine .bind ((congruent_inStep auditId).forIn (fun finding log other same => ?_) _) fun _ =>
    .bind (.keeping (inStep_note _ _ _)) fun _ => .now fun now later => .keeping (inStep_update ?_)
  · exact .adds (fun _ _ => .done ⟨rfl, same⟩) fun error => .done ⟨rfl, same⟩
  · simp only [AuditField.timelessly, List.map_cons, List.map_nil, AuditField.timeless, Json.whether]

lemma inStep_explore (snapshot : Snapshot) :
    InStep auditId (explore engine auditId owner name snapshot) (explore engine auditId owner name snapshot) := by
  refine .bind (.ask rfl) fun languages => .bind (inStep_record _) fun _ => ?_
  refine .bind (.keeping (inStep_update rfl)) fun _ => ?_
  refine .bind (.ask rfl) fun tree => .bind (inStep_record _) fun _ => ?_
  refine .bind (.keeping (inStep_update rfl)) fun _ => .bind ?_ fun findings => inStep_conclude findings
  exact (congruent_inStep auditId).inspectTree _ _ (fun _ _ _ => .keeping (inStep_note _ _ _)) (fun _ => .ask rfl) _

/-- The repository of an audit does not depend on times. -/
lemma inStep_body : InStep auditId (body engine auditId) (body engine auditId) := by
  refine .look fun x y alike => ?_
  cases x with
  | none =>
    obtain rfl : y = none := Option.map_eq_none_iff.mp alike.symm
    exact (congruent_inStep auditId).throw _
  | some audit =>
    obtain ⟨other, rfl, same⟩ := Option.map_eq_some_iff.mp alike.symm
    have owner : other.ownerName = audit.ownerName := (AuditRecord.mk.inj same).2.1
    have name : other.repoName = audit.repoName := (AuditRecord.mk.inj same).2.2.1
    dsimp only
    rw [owner, name]
    refine .bind (.ask rfl) fun host => .bind (.keeping (inStep_note _ _ _)) fun _ => ?_
    refine .bind (.ask rfl) fun reply => .bind (inStep_record _) fun _ => ?_
    cases reply with
    | ok snapshot => exact inStep_explore snapshot
    | error reason => exact .now fun now later => .keeping (inStep_ending now later _)

lemma inStep_recover (interruption : Interruption) :
    InStep auditId (recover auditId interruption) (recover auditId interruption) :=
  .bind (inStep_note _ _ _) fun _ => .now fun now later => inStep_ending now later _

/-- What a scan gives, without times. -/
def timeless (result : Except StoreError (Option AuditRecord)) : Except StoreError (Option AuditRecord) :=
  result.map (·.map AuditRecord.timeless)

/-- A scan goes the same way at any time, and gives the same audit, but for times. -/
theorem inStep_run : (run engine auditId).InStep auditId (fun x y => timeless x = timeless y) (run engine auditId) := by
  refine Program.InStep.bind (inStep_body {} {} rfl) ?_
  have closes : Program.InStep auditId (fun x y => timeless x = timeless y)
      (do return .ok (← Program.ask (.getAudit auditId)) : Program (Except StoreError (Option AuditRecord)))
      (do return .ok (← Program.ask (.getAudit auditId))) :=
    .looks fun x y agree => .done (congrArg Except.ok agree)
  rintro ⟨interruption | ⟨⟩, log⟩ ⟨_, other⟩ ⟨rfl, same⟩
  · refine Program.InStep.bind (inStep_recover interruption log other same) ?_
    rintro ⟨error | ⟨⟩, log⟩ ⟨_, other⟩ ⟨rfl, -⟩
    · exact .done rfl
    · exact closes
  · exact closes

end Parts

end Scan

end RepoAudit
