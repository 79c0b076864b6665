import RepoAudit.Proofs.Scan.Conduct
import RepoAudit.Proofs.Scan.Surroundings

/-!
# Scans of unmarked audits

A scan does not look at the status of its audit. So the scan of an audit that nobody has marked goes the same way as
that of the marked audit, call for call, and it comes to one of the same ends. This holds amid whatever else is done,
as long as it leaves the audit and no write fails (`Scan.concluded_amid`).
-/

namespace RepoAudit

/-- The finding that was added by a call. -/
def Exchange.added? : Exchange → Option FindingRecord
  | ⟨.createFinding _ _, .ok finding⟩ => some finding
  | _ => none

namespace Scan

section Twins

variable {left right : AuditRecord} {engine : Engine} {owner name : String}

/-- Two parts of scans that go the same way, whatever was done before. -/
def Accompanies (left right : AuditRecord) ⦃ε α : Type⦄ (p q : Staged ε α) : Prop :=
  ∀ log deeds, Beside left right (fun _ _ _ => True) p q log deeds

lemma congruent_accompanies (left right : AuditRecord) : Congruent (Accompanies left right) where
  pure _ _ _ := beside_pure trivial
  throw _ _ _ := beside_throw trivial
  bind first second log deeds := by
    refine beside_bind ((first log deeds).mono ?_)
    rintro (error | value) log deeds -
    · trivial
    · exact second value log deeds

lemma Accompanies.bind {ε α β : Type} {p q : Staged ε α} {f g : α → Staged ε β} (first : Accompanies left right p q)
    (second : ∀ value, Accompanies left right (f value) (g value)) :
    Accompanies left right (p >>= f) (q >>= g) :=
  (congruent_accompanies left right).bind first second

lemma accompanies_ask {c : Call} (outside : c.isOutside = true) : Accompanies left right (ask c) (ask c) :=
  fun _ _ => beside_ask outside fun _ => trivial

lemma accompanies_note (step message : String) (status : StepStatus) :
    Accompanies left right (note left.id step status message) (note right.id step status message) :=
  fun _ _ => beside_note fun _ => trivial

lemma accompanies_update (changes : List (AuditField × Json)) :
    Accompanies left right (update left.id changes) (update right.id changes) :=
  fun _ _ => beside_update trivial

lemma Accompanies.keeping {α : Type} {p q : Logging α} (accompanies : Accompanies left right p q) :
    Accompanies left right (keeping p) (keeping q) :=
  fun log deeds => beside_keeping (accompanies log deeds)

lemma accompanies_conclude (findings : List Finding) :
    Accompanies left right (conclude left.id owner name findings) (conclude right.id owner name findings) := by
  refine .bind ((congruent_accompanies left right).forIn (fun finding => ?_) _) fun _ =>
    .bind (.keeping (accompanies_note _ _ _)) fun _ => .bind (accompanies_ask rfl) fun now =>
      .keeping (accompanies_update _)
  exact fun _ _ => .add fun _ _ => .done ⟨rfl, trivial⟩

lemma accompanies_explore (snapshot : Snapshot) : Accompanies left right
    (explore engine left.id owner name snapshot) (explore engine right.id owner name snapshot) := by
  refine .bind (accompanies_ask rfl) fun languages => .bind (.keeping (accompanies_note _ _ _)) fun _ => ?_
  refine .bind (.keeping (accompanies_update _)) fun _ => ?_
  refine .bind (accompanies_ask rfl) fun tree => .bind (.keeping (accompanies_note _ _ _)) fun _ => ?_
  refine .bind (.keeping (accompanies_update _)) fun _ => .bind ?_ fun findings => accompanies_conclude findings
  exact (congruent_accompanies left right).inspectTree _ _ (fun _ _ _ => .keeping (accompanies_note _ _ _))
    (fun _ => accompanies_ask rfl) _

lemma accompanies_body (owner : left.ownerName = right.ownerName) (name : left.repoName = right.repoName) :
    Beside left right (fun _ _ _ => True) (body engine left.id) (body engine right.id) {} {} := by
  refine beside_look ?_
  -- Nothing was changed yet, so both ask for the same repository.
  have owner' : (right.change []).ownerName = (left.change []).ownerName := owner.symm
  have name' : (right.change []).repoName = (left.change []).repoName := name.symm
  dsimp only
  rw [owner', name']
  refine Accompanies.bind (accompanies_ask rfl) (fun host => .bind (.keeping (accompanies_note _ _ _)) fun _ =>
    .bind (accompanies_ask rfl) fun reply => .bind (.keeping (accompanies_note _ _ _)) fun _ => ?_) _ _
  cases reply with
  | ok snapshot => exact accompanies_explore snapshot
  | error reason => exact .bind (accompanies_ask rfl) fun now => .keeping (accompanies_update _)

/-- Two scans of the same repository go the same way, in whatever state their audits are. -/
theorem twins_run_anyhow (owner : left.ownerName = right.ownerName) (name : left.repoName = right.repoName) :
    (run engine left.id).Twins left right (fun _ _ _ => True) (run engine right.id) {} := by
  have recovers (interruption : Interruption) :
      Accompanies left right (recover left.id interruption) (recover right.id interruption) :=
    .bind (accompanies_note _ _ _) fun _ log deeds =>
      beside_bind (beside_call rfl fun now => accompanies_update _ log _)
  refine Program.Twins.bind (accompanies_body owner name) ?_
  rintro ⟨interruption | ⟨⟩, log⟩ - deeds ⟨rfl, -⟩
  · refine Program.Twins.bind (recovers interruption log deeds) ?_
    rintro ⟨error | ⟨⟩, log'⟩ - deeds ⟨rfl, -⟩
    · exact .done trivial
    · exact .look (.done trivial)
  · exact .look (.done trivial)

end Twins

/-- A world shows how far a scan has come that goes the same way as the one that was run in it. -/
structure Mirrors (left right : AuditRecord) (deeds : Deeds) (p : Progress) (es : List Exchange) (world : World) :
    Prop where
  found : world.ledger.store.audit? left.id = some (left.change deeds.changes)
  audit : p.audit = right.change deeds.changes
  stored : p.stored = es.filterMap Exchange.added?
  heard : p.heard = es.filter (·.call.asksHost)

section Mirrors

variable {left right : AuditRecord} {deeds : Deeds} {p : Progress} {es : List Exchange} {world : World}

/-- A reply from outside. -/
lemma Mirrors.outside {c : Call} (mirrors : Mirrors left right deeds p es world) (outside : c.isOutside = true)
    (reply : c.Reply) :
    Mirrors left right (deeds.hear ⟨c, reply⟩) (p.next ⟨c, reply⟩) (es ++ [⟨c, reply⟩]) (world.perform c).2 := by
  rw [World.perform_outside outside]
  refine ⟨mirrors.found, ?_, ?_, ?_⟩
  · rw [Progress.next_audit (by rintro id changes rfl; cases outside)]
    exact mirrors.audit
  · cases c with
    | now | hostName | repository | languages | tree | file =>
      simp [Progress.next, Exchange.added?, Call.asksHost, mirrors.stored]
    | _ => cases outside
  · cases c with
    | now | hostName | repository | languages | tree | file => simp [Progress.next, Call.asksHost, mirrors.heard]
    | _ => cases outside

lemma Mirrors.look (mirrors : Mirrors left right deeds p es world) (seen other : Option AuditRecord) :
    Mirrors left right deeds (p.next ⟨.getAudit right.id, other⟩) (es ++ [⟨.getAudit left.id, seen⟩]) world := by
  refine ⟨mirrors.found, mirrors.audit, ?_, ?_⟩
  · simp [Progress.next, Exchange.added?, Call.asksHost, mirrors.stored]
  · simp [Progress.next, Call.asksHost, mirrors.heard]

lemma Mirrors.change (mirrors : Mirrors left right deeds p es world) {changes : List (AuditField × Json)}
    (saved : Saved (world.perform (.updateAudit left.id changes)).1)
    (other : Except StoreError (Option AuditRecord)) :
    ∃ found, (world.perform (.updateAudit left.id changes)).1 = .ok found ∧
      Mirrors left right (deeds.change changes) (p.next ⟨.updateAudit right.id changes, other⟩)
        (es ++ [⟨.updateAudit left.id changes, (world.perform (.updateAudit left.id changes)).1⟩])
        (world.perform (.updateAudit left.id changes)).2 := by
  obtain ⟨missing, -⟩ | ⟨audit, disk, found, does⟩ := World.perform_updateAudit saved
  · rw [mirrors.found] at missing
    cases missing
  obtain rfl := Option.some.inj (mirrors.found.symm.trans found)
  rw [does]
  refine ⟨_, rfl, ?_, ?_, ?_, ?_⟩
  · simp [Deeds.change, AuditRecord.change_append]
  · simp [Progress.next, Deeds.change, AuditRecord.change_append, mirrors.audit]
  · simp [Progress.next, Exchange.added?, mirrors.stored]
  · simp [Progress.next, Call.asksHost, mirrors.heard]

/-- A finding that is kept for the audit; both audits have the same id. -/
lemma Mirrors.add (mirrors : Mirrors left right deeds p es world) {draft : FindingRecord}
    (saved : Saved (world.perform (.createFinding left.id draft)).1) :
    ∃ id, (world.perform (.createFinding left.id draft)).1 = .ok (Ledger.filed draft id left.id) ∧
      Mirrors left right (deeds.add draft)
        (p.next ⟨.createFinding right.id draft, .ok (Ledger.filed draft id left.id)⟩)
        (es ++ [⟨.createFinding left.id draft, (world.perform (.createFinding left.id draft)).1⟩])
        (world.perform (.createFinding left.id draft)).2 := by
  obtain ⟨missing, -⟩ | ⟨audit, disk, found, does⟩ := World.perform_createFinding saved
  · rw [mirrors.found] at missing
    cases missing
  rw [does]
  refine ⟨_, rfl, ?_, mirrors.audit, ?_, ?_⟩
  · simpa [Deeds.add] using mirrors.found
  · simp [Progress.next, Exchange.added?, mirrors.stored]
  · simp [Progress.next, Call.asksHost, mirrors.heard]

/-- The run of a program shows where its twin comes to that keeps its tenure. -/
lemma mirrors_amid {α β : Type} {around : List Exchange → World → World} {program : Program α} {twin : Program β}
    {holds : α → β → Deeds → Prop} {post : β → Progress → Prop} (same : left.id = right.id)
    (apart : ∀ es world, (around es world).ledger.store.audit? left.id = world.ledger.store.audit? left.id)
    (twins : program.Twins left right holds twin deeds) (keeps : twin.Keeps (tenure right.id) post p)
    (mirrors : Mirrors left right deeds p es world)
    (saved : ∀ e ∈ (program.runAmid around es world).2.1, e.Saved) :
    ∃ result deeds p, post result p ∧ Mirrors left right deeds p (program.runAmid around es world).2.1
      (program.runAmid around es world).2.2 := by
  -- Along the calls that both make: the world of the one keeps showing how far the other has come.
  induction twins generalizing p es world with
  | done _ => exact ⟨_, _, p, keeps, mirrors⟩
  | @outside c program twin deeds outside goes ih =>
    have now : Mirrors left right deeds p es (around es world) :=
      { mirrors with found := (apart es world).trans mirrors.found }
    rw [Program.runAmid_call] at saved ⊢
    refine ih _ (keeps.2 _ ?_) (now.outside outside _) saved
    cases c with
    | now | hostName | repository | languages | tree | file => trivial
    | _ => cases outside
  | @look program twin deeds goes ih =>
    have now : Mirrors left right deeds p es (around es world) :=
      { mirrors with found := (apart es world).trans mirrors.found }
    have seen : ((around es world).perform (.getAudit left.id)).1 = some (left.change deeds.changes) := now.found
    rw [Program.runAmid_call] at saved ⊢
    rw [seen] at saved ⊢
    exact ih (keeps.2 (some (right.change deeds.changes)) fun _ => congrArg some mirrors.audit.symm)
      (now.look _ (some (right.change deeds.changes))) saved
  | @change changes program twin deeds goes ih =>
    have now : Mirrors left right deeds p es (around es world) :=
      { mirrors with found := (apart es world).trans mirrors.found }
    obtain ⟨found, replied, after⟩ := now.change (Program.saved_call saved)
      (.ok (some (p.audit.change changes)))
    rw [Program.runAmid_call] at saved ⊢
    rw [replied] at saved after ⊢
    exact ih _ _ (keeps.2 _ rfl) after saved
  | @add draft program twin deeds goes ih =>
    have now : Mirrors left right deeds p es (around es world) :=
      { mirrors with found := (apart es world).trans mirrors.found }
    obtain ⟨id, replied, after⟩ := now.add (Program.saved_call saved)
    rw [Program.runAmid_call] at saved ⊢
    rw [replied] at saved after ⊢
    exact ih _ _ (keeps.2 (.ok (Ledger.filed draft id left.id)) ⟨id, by rw [same]⟩) after saved

end Mirrors

/-- An audit as it stands where a scan begins that holds it. -/
def held (audit : AuditRecord) : AuditRecord :=
  { audit with status := .text Store.inProgress, scanLog := .array [] }

/-- Once the status and the log were written, it is of no matter what they were. -/
lemma change_held {deeds : Deeds} (status : deeds.Writes .status) (scanLog : deeds.Writes .scanLog)
    (audit : AuditRecord) : audit.change deeds.changes = (held audit).change deeds.changes := by
  refine AuditRecord.ext_get (by simp [held]) fun field => ?_
  cases field with
  | status => exact status.get_eq _ _
  | scanLog => exact scanLog.get_eq _ _
  | _ =>
    refine AuditRecord.get_change_congr ?_ deeds.changes
    rfl

section Concluded

variable {engine : Engine} {auditId owner name : String} {base : AuditRecord} {p : Progress}

/-- Each end writes the status and the log. -/
lemma Concluded.writes (concluded : Concluded engine auditId base owner name p) :
    p.audit.status = .text Store.complete ∧ p.audit.scanLog ≠ .array [] := by
  have told {log : ScanLog} {line : Line} {lines : List Line} (is : log.lines = line :: lines) :
      Json.ofList LogEntry.toJson log.entries ≠ .array [] := by
    intro none
    have none : log.entries = [] := by simpa [Json.ofList] using none
    rw [ScanLog.lines, none] at is
    cases is
  cases concluded with
  | finished _ _ _ lines _ => exact ⟨rfl, told lines⟩
  | unreachable lines => exact ⟨rfl, told lines⟩
  | interrupted _ lines => exact ⟨rfl, told lines⟩

/-- What a scan that held its audit came to is what one comes to that did not look at the mark. -/
lemma Concluded.of_held (concluded : Concluded engine auditId (held base) owner name p) :
    Concluded engine auditId base owner name p := by
  cases concluded with
  | finished scanned analyzed is lines kept => exact .finished scanned analyzed is lines kept
  | unreachable lines => exact .unreachable lines
  | interrupted stumbles lines => exact .interrupted stumbles lines

end Concluded

/-- The scan of any audit comes to one of its ends if nothing else changes the audit and no write fails. The calls of
the run show what the host was asked and which findings were added. -/
theorem concluded_amid {engine : Engine} {auditId : String} {audit : AuditRecord}
    {around : List Exchange → World → World} {world : World}
    (found : world.ledger.store.audit? auditId = some audit)
    (apart : ∀ es world, (around es world).ledger.store.audit? auditId = world.ledger.store.audit? auditId)
    (saved : ∀ e ∈ ((run engine auditId).runAmid around [] world).2.1, e.Saved) :
    ∃ p, Concluded engine auditId audit audit.ownerName.display audit.repoName.display p ∧
      ((run engine auditId).runAmid around [] world).2.2.ledger.store.audit? auditId = some p.audit ∧
      p.stored = ((run engine auditId).runAmid around [] world).2.1.filterMap Exchange.added? ∧
      p.heard = ((run engine auditId).runAmid around [] world).2.1.filter (·.call.asksHost) := by
  obtain rfl : audit.id = auditId := Store.id_of_audit? found
  have twins : (run engine audit.id).Twins audit (held audit) _ (run engine (held audit).id) {} :=
    twins_run_anyhow rfl rfl
  have keeps : (run engine audit.id).Keeps (tenure audit.id) _ (standing (held audit) {} [] []) := keeps_run rfl
  have same : audit.id = (held audit).id := rfl
  obtain ⟨result, deeds, p, ⟨-, concluded⟩, mirrors⟩ :=
    mirrors_amid same apart twins keeps ⟨found, rfl, rfl, rfl⟩ saved
  obtain ⟨status, scanLog⟩ := concluded.writes
  have writes {field : AuditField} (changed : p.audit.get field ≠ (held audit).get field) :
      deeds.Writes field := by
    by_contra unwritten
    rw [mirrors.audit] at changed
    exact changed (AuditRecord.get_change_of_notMem (fun change member same =>
      unwritten (List.mem_map.mpr ⟨change, member, same⟩)) _)
  have same : audit.change deeds.changes = p.audit := by
    rw [mirrors.audit]
    refine change_held (writes ?_) (writes scanLog) audit
    change p.audit.status ≠ .text Store.inProgress
    rw [status]
    simp [Store.complete, Store.inProgress]
  exact ⟨p, concluded.of_held, same ▸ mirrors.found, mirrors.stored, mirrors.heard⟩

end Scan

end RepoAudit
