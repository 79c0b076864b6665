import RepoAudit.Proofs.Scan.Tolerance
import RepoAudit.Proofs.Traffic.Outcome

/-!
# Scans that come to their end

A scan with built-in families that is given its repository comes to its end, whatever else the host answers, as long
as there are workers to fetch files and the manifest is not beyond what is read.
-/

namespace RepoAudit

/-- The log of the audit has these lines. -/
def AuditRecord.Tells (audit : AuditRecord) (lines : List Line) : Prop :=
  ∃ log : ScanLog, audit.scanLog = Json.ofList LogEntry.toJson log.entries ∧ log.lines = lines

namespace Scan

variable {engine : Engine} {auditId : String} {base : AuditRecord} {p : Progress}

/-- What becomes of a scan that was given its repository, and has workers to fetch the files. -/
structure Tolerates (engine : Engine) (auditId : String) (base : AuditRecord) (p : Progress) (answers : Answers) :
    Prop where
  heard : p.heard = answers.exchanges base.ownerName.display base.repoName.display
  /-- A manifest that is beyond what is read stops it. -/
  overtaxed : answers.Manned engine → ∀ error, answers.Overtaxes error →
    Ending.failed.IsOf engine auditId base p ∧
      p.audit.lastLine = some (.text "error", .text "error", .text error.message)
  /-- Nothing else does: it tells of what was of no use, and goes on. -/
  whole : answers.Manned engine → (∀ error, ¬answers.Overtaxes error) →
    Ending.whole.IsOf engine auditId base p ∧
      ∃ stages last unique lines, answers.Scanned engine stages ∧ answers.Analyzed engine last ∧
        lines = answers.earlyLines engine base.ownerName.display base.repoName.display ++
          answers.fileLines engine stages ++ (last.map Stage.line).toList ∧
        answers.complaints.Sublist lines ∧ p.audit.Tells (lines ++ [completeLine unique])

/-- With built-in families a scan is only stopped by a manifest that is beyond what is read. -/
lemma Concluded.tolerates {snapshot : Snapshot} (builtin : engine.IsBuiltin)
    (concluded : Concluded engine auditId base base.ownerName.display base.repoName.display p)
    (reached : ⟨.repository base.ownerName.display base.repoName.display, .ok snapshot⟩ ∈ p.heard)
    (scores : base.scores = .null) (plan : base.remediationPlan = .null) :
    ∃ answers, Tolerates engine auditId base p answers := by
  cases concluded with
  | @finished answers stages last unique kept log now scanned analyzed distinct lines keeps =>
    refine ⟨answers, rfl, fun _ error beyond => absurd beyond (analyzed.not_overtaxes error), fun _ _ => ⟨?_, ?_⟩⟩
    · subst distinct
      exact ⟨⟨_, AuditRecord.lastLine_of_lines rfl lines⟩, Json.noConfusion, Json.noConfusion,
        _, _, _, scanned, analyzed, rfl, keeps⟩
    · exact ⟨stages, last, unique, _, scanned, analyzed, rfl, Answers.complaints_sublist scanned analyzed _ _,
        log, rfl, lines⟩
  | unreachable lines =>
    simp at reached
  | @interrupted answers told reason log now stumbles lines =>
    have last : (brokenOffAudit (answers.noted base) (Summary.interrupted (some reason)) log now).lastLine =
        some (.text "error", .text "error", .text reason) := AuditRecord.lastLine_of_lines rfl lines
    refine ⟨answers, rfl, fun manned error beyond => ⟨⟨reason, last, rfl, scores, plan, rfl⟩, ?_⟩,
      fun manned reads => ?_⟩
    · obtain ⟨other, beyond', rfl⟩ := stumbles.overtaxes builtin manned
      rw [beyond.unique beyond']
      exact last
    · obtain ⟨error, beyond, -⟩ := stumbles.overtaxes builtin manned
      exact absurd beyond (reads error)

end Scan

namespace Traffic

variable {hs : List Happening} {t₀ t : Traffic} {auditId : String} {k n : Nat} {base : AuditRecord}

/-- How a scan was concluded that has ended. -/
lemma Idle.concluded {result : Except StoreError (Option AuditRecord)} (idle : Idle t₀)
    (runs : Runs t₀ hs t) (saved : ∀ h ∈ hs, h.Saved) (begun : Begun hs auditId k base)
    (admitted : Admitted hs auditId k n) (ended : .ended n result ∈ hs) :
    Scan.Concluded t.engine auditId base base.ownerName.display base.repoName.display (progress base n hs) := by
  have sound := idle.sound_runs runs saved
  have course := (sound.regular auditId).course k n base begun admitted
  obtain ⟨program, live, -⟩ | ⟨reading, -, ends⟩ := course.goes
  · exact absurd rfl ((sound.tidy.ended n result ended).2 _ live)
  · exact ends.2

lemma Runs.engine_eq (runs : Runs t₀ hs t) : t.engine = t₀.engine := by
  induction runs with
  | none => rfl
  | more _ step ih =>
    rw [← ih]
    cases step <;> rfl

/-- What the host gives cannot stop a scan with built-in families, but for one thing. Once the scan has been given its
repository, and as long as there are workers to fetch files, an answer that is of no use is told in the log, and the
scan comes to its end with scores and a plan; only a manifest with too long an integer, or one that is nested too
deeply, makes it fail. -/
theorem scans_end_whole_unless_overtaxed {result : Except StoreError (Option AuditRecord)} {snapshot : Snapshot}
    (idle : Idle t₀) (runs : Runs t₀ hs t) (saved : ∀ h ∈ hs, h.Saved) (begun : Begun hs auditId k base)
    (admitted : Admitted hs auditId k n) (ended : .ended n result ∈ hs) (builtin : t.engine.IsBuiltin)
    (reached : ⟨.repository base.ownerName.display base.repoName.display, .ok snapshot⟩ ∈
      (progress base n hs).heard) :
    ∃ answers, Scan.Tolerates t.engine auditId base (progress base n hs) answers := by
  have concluded := idle.concluded runs saved begun admitted ended
  obtain ⟨audit, rfl⟩ := begun.inv runs saved
  exact concluded.tolerates builtin reached rfl rfl

section Sample

/-- A host that gives a repository, but not its languages, only one of its two files, and no JSON as its manifest. -/
def sampleHost : SourceHost where
  name := "host"
  repository := fun _ _ => .ok {}
  languages := fun _ _ => .error "unreachable"
  tree := fun _ _ _ => .ok [{ path := "package.json" }, { path := "a.js" }]
  file := fun _ _ path => if path == "package.json" then .ok "oops" else .error "gone"

/-- The sample with this host, and with a family that is built in. -/
def sampleHosted : Traffic :=
  { sample with
    world := { sample.world with host := sampleHost }
    engine := ⟨{}, {}, [BuiltinFamily.largeFile.toFamily {} 2]⟩ }

lemma sampleHosted_idle : Idle sampleHosted :=
  ⟨sample_idle.injective, sample_idle.unused, rfl, rfl, sample_idle.unmarked⟩

/-- What happens after a scan was asked for, until it has ended. -/
def sampleCourse : List Happening × Traffic :=
  turns 60 { sampleHosted with serving := some ⟨0, "i", (Scan.start "i").run⟩, asked := 1 }

lemma sampleCourse_runs : Runs sampleHosted (.asked 0 "i" :: sampleCourse.1) sampleCourse.2 :=
  (runs_turns 60 _).cons (.asked "i" rfl)

/-- The audit of the sample as the request marked it. -/
def sampleBase : AuditRecord :=
  { id := "i", ownerName := .text "owner", repoName := .text "name", status := .text Store.inProgress
    scanLog := .array [] }

/-- The sample's host gave no languages, and every file that it gave is no JSON. -/
def sampleReply : Exchange → Bool
  | ⟨.languages _ _, .ok _⟩ => false
  | ⟨.file _ _ _, .ok text⟩ => text == "oops"
  | _ => true

/-- The scan of the sample comes to its end, and tells of the languages that it was not given. -/
theorem scans_end_whole_unless_overtaxed_useless : ∃ answers,
    Begun (.asked 0 "i" :: sampleCourse.1) "i" 0 sampleBase ∧
    Scan.Tolerates sampleCourse.2.engine "i" sampleBase
      (progress sampleBase 0 (.asked 0 "i" :: sampleCourse.1)) answers ∧
    ("languages", "warn", "Could not fetch language data") ∈ answers.complaints ∧
    Scan.Ending.whole.IsOf sampleCourse.2.engine "i" sampleBase
      (progress sampleBase 0 (.asked 0 "i" :: sampleCourse.1)) := by
  have saved : ∀ h ∈ Happening.asked 0 "i" :: sampleCourse.1, h.Saved := by decide +kernel
  have begun : Begun (.asked 0 "i" :: sampleCourse.1) "i" 0 sampleBase := List.mem_of_getElem? (i := 4) rfl
  have admitted : Admitted (.asked 0 "i" :: sampleCourse.1) "i" 0 0 := List.mem_of_getElem? (i := 5) rfl
  have ended : sampleCourse.1.any (Happening.isEndOf 0) = true := by decide +kernel
  have given : (progress sampleBase 0 (.asked 0 "i" :: sampleCourse.1)).heard.any
      (Exchange.givesRepository "owner" "name") = true := by decide +kernel
  have replies : ∀ e ∈ (progress sampleBase 0 (.asked 0 "i" :: sampleCourse.1)).heard, sampleReply e = true := by
    decide +kernel
  obtain ⟨_, happened, ends⟩ := List.any_eq_true.mp ended
  obtain ⟨result, rfl⟩ := Happening.exists_of_isEndOf ends
  obtain ⟨_, reached, gives⟩ := List.any_eq_true.mp given
  obtain ⟨snapshot, rfl⟩ := Exchange.exists_of_givesRepository gives
  have engine : sampleCourse.2.engine = sampleHosted.engine := sampleCourse_runs.engine_eq
  have builtin : sampleCourse.2.engine.IsBuiltin := by
    rw [engine]
    exact ⟨{}, 2, [.largeFile], rfl⟩
  obtain ⟨answers, tolerates⟩ := scans_end_whole_unless_overtaxed sampleHosted_idle sampleCourse_runs saved begun
    admitted (List.mem_cons_of_mem _ happened) builtin reached
  have manned : answers.Manned sampleCourse.2.engine := by
    rw [engine]
    exact .inr (by decide)
  rw [tolerates.heard] at replies
  refine ⟨answers, begun, tolerates, ?_, (tolerates.whole manned ?_).1⟩
  · have none := replies ⟨.languages sampleBase.ownerName.display sampleBase.repoName.display, answers.languages⟩
      (by simp [Scan.Answers.exchanges])
    cases given : answers.languages with
    | ok languages =>
      rw [given] at none
      cases none
    | error reason =>
      simp [Scan.Answers.complaints, Scan.Answers.languagesComplaint, given, StepStatus.name]
  · rintro error ⟨text, given, reads, excessive⟩
    have text := replies
      ⟨.file sampleBase.ownerName.display sampleBase.repoName.display Tree.manifestName, .ok text⟩
      (by simp [Scan.Answers.exchanges, given])
    obtain rfl : _ = "oops" := eq_of_beq text
    have malformed : Json.read "oops" = .error (.malformed .expectingValue 0) := by rfl
    obtain rfl := Except.error.inj (malformed.symm.trans reads)
    cases excessive

end Sample

end Traffic

end RepoAudit
