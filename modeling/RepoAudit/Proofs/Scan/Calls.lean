import RepoAudit.Proofs.Scan.Contract
import RepoAudit.Proofs.Scan.Tenure

/-!
# The calls of a scan

A scan makes calls of few forms, whatever it is replied (`Scan.Makes`): it asks the clock and the host, it looks
at its audit, it adds findings to it, and it changes it in one of five ways. Two of them complete the audit, and
the others leave its status. The contract `Scan.manner` keeps the calls that were made as its state, so that the
end of a scan can speak of them (`Scan.Ended`).
-/

namespace RepoAudit.Scan

/-- The calls of a scan of an audit. Of what the host tells, a scan keeps the languages as they are; what is
assumed of them holds of each snapshot that it keeps. -/
inductive Makes (told : List (String × Int) → Prop) (auditId : String) : Call → Prop
  | now : Makes told auditId .now
  | looks : Makes told auditId (.getAudit auditId)
  | hostName : Makes told auditId .hostName
  | repository (owner name : String) : Makes told auditId (.repository owner name)
  | languages (owner name : String) : Makes told auditId (.languages owner name)
  | tree (owner name ref : String) : Makes told auditId (.tree owner name ref)
  | file (owner name path : String) : Makes told auditId (.file owner name path)
  | logs (log : ScanLog) :
    Makes told auditId (.updateAudit auditId [(.scanLog, Json.ofList LogEntry.toJson log.entries)])
  | keepsSnapshot {snapshot : Snapshot} : told snapshot.languages →
    Makes told auditId (.updateAudit auditId [(.repoMeta, snapshot.toJson)])
  | keepsTree (tree : List TreeEntry) :
    Makes told auditId (.updateAudit auditId [(.fileTree, Json.ofList TreeEntry.toJson tree)])
  | adds (finding : Finding) : Makes told auditId (.createFinding auditId (FindingRecord.ofFinding finding))
  | ends (now : Instant) (summary : String) : Makes told auditId (.updateAudit auditId (ending now summary))
  | concludes (now : Instant) (scores : Scores) (summary : String) (plan : List Phase) :
    Makes told auditId (.updateAudit auditId [
      (.status, .text Store.complete), (.scores, scores.toJson), (.executiveSummary, .text summary),
      (.remediationPlan, Json.ofList Phase.toJson plan), (.scannedAt, .text now.text)])

/-- What is assumed of the languages holds of those that the host tells. -/
def Tells (told : List (String × Int) → Prop) : Exchange → Prop
  | ⟨.languages _ _, .ok languages⟩ => told languages
  | _ => True

/-- The contract of a scan that counts on nothing but what is assumed of the languages. -/
def manner (told : List (String × Int) → Prop) (auditId : String) : Contract (List Exchange) where
  allows _ := Makes told auditId
  replies _ := Tells told
  next es e := es ++ [e]

/-- Where nothing is assumed of the languages, a scan counts on nothing. -/
lemma replies_manner (auditId : String) (es : List Exchange) (e : Exchange) :
    (manner (fun _ => True) auditId).replies es e := by
  unfold manner Tells
  dsimp only
  split <;> trivial

/-- A part of a scan that makes only such calls. -/
def Mannered {ε α : Type} (told : List (String × Int) → Prop) (auditId : String) (part : Staged ε α) : Prop :=
  ∀ log es, Keeps (manner told auditId) (fun _ _ _ => True) part log es

section Parts

variable {ε α β : Type} {told : List (String × Int) → Prop} {auditId : String}

lemma Mannered.pure (value : α) : Mannered told auditId (pure value : Staged ε α) := fun _ _ => trivial

lemma Mannered.throw (error : ε) : Mannered told auditId (throw error : Staged ε α) := fun _ _ => trivial

/-- What holds at the end of a part whose beginning is of no matter, where nothing is asked of a failure. -/
lemma Mannered.before {part : Staged ε α} {next : α → Staged ε β} {post : Except ε β → ScanLog → List Exchange → Prop}
    (first : Mannered told auditId part) (failed : ∀ error log es, post (.error error) log es)
    (second : ∀ value log es, Keeps (manner told auditId) post (next value) log es) (log : ScanLog)
    (es : List Exchange) : Keeps (manner told auditId) post (part >>= next) log es := by
  refine keeps_bind (Keeps.mono ?_ (first log es))
  rintro (error | value) log es -
  · exact failed error log es
  · exact second value log es

lemma Mannered.bind {part : Staged ε α} {next : α → Staged ε β} (first : Mannered told auditId part)
    (second : ∀ value, Mannered told auditId (next value)) : Mannered told auditId (part >>= next) :=
  first.before (fun _ _ _ => trivial) second

lemma Mannered.call {c : Call} (makes : Makes told auditId c) :
    Mannered told auditId (liftM (Program.ask c) : Staged ε c.Reply) :=
  fun _ _ => keeps_call makes fun _ _ => trivial

lemma Mannered.ask {c : Call} (makes : Makes told auditId c) : Mannered told auditId (ask c) := .call makes

lemma Mannered.modify (change : ScanLog → ScanLog) :
    Mannered told auditId (modify change : Staged ε PUnit) := fun _ _ => trivial

lemma Mannered.get : Mannered told auditId (get : Staged ε ScanLog) := fun _ _ => trivial

lemma Mannered.keeping {part : Logging α} (mannered : Mannered told auditId part) :
    Mannered told auditId (keeping part) :=
  fun log es => keeps_keeping (Keeps.mono (fun _ _ _ _ => trivial) (mannered log es))

lemma congruent_mannered : Congruent fun _ _ part _ => Mannered told auditId part where
  pure := .pure
  throw := .throw
  bind := .bind

lemma Mannered.forIn {ι : Type} {body : ι → Staged ε (ForInStep PUnit)}
    (round : ∀ item, Mannered told auditId (body item)) (items : List ι) :
    Mannered told auditId (forIn items PUnit.unit fun item _ => body item) :=
  @Congruent.forIn _ ε congruent_mannered ι body body round items

/-- A change of the audit succeeds or fails as its call does, and the call is the last one. -/
lemma manner_update {changes : List (AuditField × Json)} {log : ScanLog} {es : List Exchange}
    {post : Except StoreError Unit → ScanLog → List Exchange → Prop}
    (makes : Makes told auditId (.updateAudit auditId changes))
    (next : ∀ reply, post (reply.map fun _ => ()) log (es ++ [⟨.updateAudit auditId changes, reply⟩])) :
    Keeps (manner told auditId) post (update auditId changes) log es := by
  refine ⟨makes, fun reply _ => ?_⟩
  cases reply with
  | ok found => exact next (.ok found)
  | error error => exact next (.error error)

lemma mannered_update {changes : List (AuditField × Json)}
    (makes : Makes told auditId (.updateAudit auditId changes)) : Mannered told auditId (update auditId changes) :=
  fun _ _ => manner_update makes fun _ => trivial

lemma mannered_note (step message : String) (status : StepStatus) :
    Mannered told auditId (note auditId step status message) :=
  .bind (.call .now) fun _ => .bind (.modify _) fun _ => .bind .get fun log => mannered_update (.logs log)

lemma mannered_record (stage : Stage α) : Mannered told auditId (record auditId stage) :=
  .keeping (mannered_note _ _ _)

variable {engine : Engine} {owner name : String}

lemma mannered_inspectTree (tree : List TreeEntry) :
    Mannered told auditId (inspectTree engine auditId owner name tree) :=
  congruent_mannered.inspectTree auditId auditId (fun _ _ _ => .keeping (mannered_note _ _ _))
    (fun _ => .ask (.file _ _ _)) tree

/-- A change that completed the audit was made. -/
def Completed (auditId : String) (es : List Exchange) : Prop :=
  ∃ changes found, Completes changes ∧ (⟨.updateAudit auditId changes, .ok found⟩ : Exchange) ∈ es

/-- A part of a scan that does not go well unless the audit was completed. -/
def Completing (told : List (String × Int) → Prop) (auditId : String) (part : Part Unit) : Prop :=
  ∀ log es, Keeps (manner told auditId) (fun result _ es => result = .ok () → Completed auditId es) part log es

lemma Completing.after {part : Part α} {next : α → Part Unit} (first : Mannered told auditId part)
    (second : ∀ value, Completing told auditId (next value)) : Completing told auditId (part >>= next) :=
  first.before (fun _ _ _ same => nomatch same) second

lemma completing_update {changes : List (AuditField × Json)}
    (makes : Makes told auditId (.updateAudit auditId changes)) (completes : Completes changes) :
    Completing told auditId (keeping (update auditId changes)) := by
  intro log es
  refine keeps_keeping (manner_update makes fun reply ok => ?_)
  cases reply with
  | ok found => exact ⟨changes, found, completes, List.mem_append_right _ List.mem_cons_self⟩
  | error error => cases ok

lemma completes_ending (now : Instant) (summary : String) : Completes (ending now summary) :=
  List.mem_cons_self

lemma completing_conclude (findings : List Finding) :
    Completing told auditId (conclude auditId owner name findings) := by
  refine .after (.forIn (fun finding => .bind (.ask (.adds finding)) ?_) _) fun _ => ?_
  · rintro (_ | _)
    · exact .bind (.throw _) fun _ => .pure _
    · exact .pure _
  · exact .after (.keeping (mannered_note _ _ _)) fun _ => .after (.ask .now) fun now =>
      completing_update (.concludes now _ _ _) List.mem_cons_self

lemma completing_explore (none : told []) (snapshot : Snapshot) :
    Completing told auditId (explore engine auditId owner name snapshot) := by
  intro log es
  refine keeps_bind (keeps_ask (.languages owner name) fun reply replied => ?_)
  -- The languages that are kept are those that the host told, or none.
  have known : told (languagesStage reply).value := by
    cases reply with
    | ok languages => exact replied
    | error reason => exact none
  exact Completing.after (mannered_record _) (fun _ => .after (.keeping (mannered_update (.keepsSnapshot known)))
    fun _ => .after (.ask (.tree _ _ _)) fun _ => .after (mannered_record _) fun _ =>
    .after (.keeping (mannered_update (.keepsTree _))) fun _ => .after (mannered_inspectTree _) fun _ =>
    completing_conclude _) _ _

/-- A scan is interrupted, or its audit was completed. -/
lemma completing_body (none : told []) : Completing told auditId (body engine auditId) := by
  refine .after (.ask .looks) ?_
  rintro (_ | audit)
  · -- The audit is not there, so the scan is interrupted.
    intro log es same
    cases same
  · refine .after (.ask .hostName) fun _ => .after (.keeping (mannered_note _ _ _)) fun _ => ?_
    refine .after (.ask (.repository _ _)) fun reply => .after (mannered_record _) fun _ => ?_
    cases reply with
    | ok snapshot => exact completing_explore none snapshot
    | error reason =>
      exact .after (.ask .now) fun now => completing_update (.ends now _) (completes_ending now _)

/-- A step of the log is kept by the last call, or it is not kept. -/
lemma manner_note {step message : String} {status : StepStatus} {log : ScanLog} {es : List Exchange}
    {post : Except StoreError Unit → ScanLog → List Exchange → Prop}
    (next : ∀ now reply, post (reply.map fun _ => ()) (log.push step status message now) (es ++ [⟨.now, now⟩] ++
      [⟨.updateAudit auditId
        [(.scanLog, Json.ofList LogEntry.toJson (log.push step status message now).entries)], reply⟩])) :
    Keeps (manner told auditId) post (note auditId step status message) log es := by
  refine ⟨.now, fun now _ => ?_⟩
  exact manner_update (.logs _) (next now)

/-- How a scan ends. It gives the audit, which was completed before; or a write fails when the scan was
interrupted already: that of the step that tells of the interruption, or the one that ends the scan. -/
inductive Ended (auditId : String) : Except StoreError (Option AuditRecord) → List Exchange → Prop
  | returned {es : List Exchange} (found : Option AuditRecord) : Completed auditId es →
    Ended auditId (.ok found) (es ++ [⟨.getAudit auditId, found⟩])
  | untold (es : List Exchange) (log : ScanLog) (message : String) (now : Instant) (error : StoreError) :
    Ended auditId (.error error) (es ++ [⟨.updateAudit auditId
      [(.scanLog, Json.ofList LogEntry.toJson (log.push "error" .error message now).entries)], .error error⟩])
  | unended (es : List Exchange) (now : Instant) (summary : String) (error : StoreError) :
    Ended auditId (.error error) (es ++ [⟨.updateAudit auditId (ending now summary), .error error⟩])

/-- An interrupted scan completes the audit, or one of its last two writes fails. -/
lemma ended_recover (interruption : Interruption) (log : ScanLog) (es : List Exchange) :
    Keeps (manner told auditId) (fun result _ es => match result with
      | .ok () => Completed auditId es
      | .error error => Ended auditId (.error error) es) (recover auditId interruption) log es := by
  refine keeps_bind (manner_note fun now reply => ?_)
  -- If the step is not kept, the failure is not handled again.
  cases reply with
  | error error => exact .untold _ log _ now error
  | ok found =>
    refine keeps_bind (keeps_call .now fun now _ => manner_update (.ends now _) fun reply => ?_)
    cases reply with
    | error error => exact .unended _ now _ error
    | ok found => exact ⟨_, found, completes_ending now _, List.mem_append_right _ List.mem_cons_self⟩

/-- A scan ends in one of these ways, whatever it is replied. -/
theorem ended_run (none : told []) : (run engine auditId).Keeps (manner told auditId) (Ended auditId) [] := by
  refine Program.keeps_bind.mpr (Program.Keeps.mono ?_ (completing_body none {} []))
  -- The body is interrupted, or it has completed the audit.
  rintro ⟨interruption | ⟨⟩, log⟩ es completed
  · refine Program.keeps_bind.mpr (Program.Keeps.mono ?_ (ended_recover interruption log es))
    rintro ⟨error | ⟨⟩, log'⟩ es' ended
    · exact ended
    · exact ⟨.looks, fun found _ => .returned found ended⟩
  · exact ⟨.looks, fun found _ => .returned found (completed rfl)⟩

end Parts

end RepoAudit.Scan

/-! ## Scans stay with their audit

Whatever a scan is replied, it reads and writes no audit but its own, adds findings to this audit only, and
asks nothing of the executor. Unlike its tenure this holds of a scan whose audit is gone.
-/

namespace RepoAudit

/-- True of the calls that a scan of an audit may make at any time. -/
def Call.StaysWith (auditId : String) : Call → Prop
  | .updateAudit id _ => id = auditId
  | .createFinding id _ => id = auditId
  | .getAudit id => id = auditId
  | .listFindings _ => False
  | .deleteFinding _ => False
  | .submit _ => False
  | .register _ _ => False
  | .watch _ => False
  | _ => True

/-- The contract of a scan that may not count on anything. -/
def confinement (auditId : String) : Contract Unit where
  allows _ := Call.StaysWith auditId
  next _ _ := ()

namespace Scan

variable {told : List (String × Int) → Prop} {auditId : String}

/-- The calls of a scan stay with its audit. -/
lemma Makes.staysWith {c : Call} (makes : Makes told auditId c) : c.StaysWith auditId := by
  cases makes with
  | looks | logs | keepsSnapshot | keepsTree | adds | ends | concludes => exact rfl
  | now | hostName | repository | languages | tree | file => trivial

/-- Whatever it is replied, a scan makes only calls of its own audit. -/
lemma confined_run {engine : Engine} :
    (run engine auditId).Keeps (confinement auditId) (fun _ _ => True) () := by
  have keeps : (run engine auditId).Keeps (manner (fun _ => True) auditId) (Ended auditId) [] := ended_run trivial
  exact Program.Keeps.mono (fun _ _ _ => trivial)
    (keeps.weaken (fun _ _ _ => Makes.staysWith) fun es _ e _ => replies_manner auditId es e)

end Scan

end RepoAudit
