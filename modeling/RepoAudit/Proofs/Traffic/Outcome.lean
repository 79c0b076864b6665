import RepoAudit.Proofs.Traffic.Interval

/-!
# Outcomes

What is left of a scan when it has ended: everything it found, or nothing but a summary that says why. The
values that its request cleared are still cleared on every way that fails, because only the last write of a
scan that came to its end sets them.
-/

namespace RepoAudit

/-- The step, the status and the message of the last entry of the log. -/
def AuditRecord.lastLine (audit : AuditRecord) : Option (Json × Json × Json) :=
  match audit.scanLog with
  | .array entries => entries.getLast?.map fun entry =>
    (entry.getD "step", entry.getD "status", entry.getD "message")
  | _ => none

/-- The last line of a log is that of its last entry. -/
lemma AuditRecord.lastLine_of_lines {audit : AuditRecord} {log : ScanLog} {before : List Line}
    {step status message : String}
    (published : audit.scanLog = Json.ofList LogEntry.toJson log.entries)
    (lines : log.lines = before ++ [(step, status, message)]) :
    audit.lastLine = some (.text step, .text status, .text message) := by
  obtain ⟨earlier, entry, entries⟩ : ∃ earlier entry, log.entries = earlier ++ [entry] := by
    obtain empty | ⟨earlier, entry, entries⟩ := List.eq_nil_or_concat log.entries
    · simp [ScanLog.lines, empty] at lines
    · exact ⟨earlier, entry, entries.trans List.concat_eq_append⟩
  have last : (entry.step, entry.status, entry.message) = (step, status, message) := by
    rw [ScanLog.lines, entries, List.map_append] at lines
    simpa using (List.append_inj' lines rfl).2
  simp only [Prod.mk.injEq] at last
  obtain ⟨rfl, rfl, rfl⟩ := last
  rw [lastLine, published, entries]
  simp [Json.ofList, LogEntry.toJson, Json.getD, Json.get?, Json.Member.get?, List.lookup_cons]

namespace Scan

/-- The ways in which a scan can end. -/
inductive Ending where
  | whole
  | unreachable
  | failed

/-- The scan that was taken for an audit that stood as the record has ended in this way. -/
def Ending.IsOf (engine : Engine) (auditId : String) (base : AuditRecord) (p : Progress) :
    Ending → Prop
  | whole => (∃ message, p.audit.lastLine = some (.text "complete", .text "ok", message)) ∧
    p.audit.scores ≠ .null ∧ p.audit.remediationPlan ≠ .null ∧
    ∃ answers stages last, Answers.Scanned engine answers stages ∧
      Answers.Analyzed engine answers last ∧
      p.heard = answers.exchanges base.ownerName.display base.repoName.display ∧
      List.Forall₂ (KeptAs auditId)
        (Finding.distinct (answers.detected engine stages ++ (last.map (·.value)).getD [])) p.stored
  | unreachable => (∃ message, p.audit.lastLine = some (.text "fetch_repo", .text "error", message)) ∧
    p.audit.executiveSummary = .text (Summary.unreachable none) ∧ p.audit.scores = .null ∧
    p.audit.remediationPlan = .null ∧ p.stored = []
  | failed => ∃ reason, p.audit.lastLine = some (.text "error", .text "error", .text reason) ∧
    p.audit.executiveSummary = .text (Summary.interrupted (some reason)) ∧ p.audit.scores = .null ∧
    p.audit.remediationPlan = .null ∧ p.stored = []

/-- The step and the status of the last line. -/
def Ending.line : Ending → Json × Json
  | whole => (.text "complete", .text "ok")
  | unreachable => (.text "fetch_repo", .text "error")
  | failed => (.text "error", .text "error")

/-- Ways to end differ in their last lines. -/
lemma Ending.eq_of_line {ending other : Ending} (same : ending.line = other.line) :
    ending = other := by
  cases ending <;> cases other <;> simp_all [line]

/-- A scan that has ended in some way has the last line of it. -/
lemma Ending.IsOf.line {engine : Engine} {auditId : String} {base : AuditRecord} {p : Progress}
    {ending : Ending} (is : ending.IsOf engine auditId base p) :
    p.audit.lastLine.map (fun last => (last.1, last.2.1)) = some ending.line := by
  cases ending with
  | whole | unreachable =>
    obtain ⟨⟨message, last⟩, -⟩ := is
    rw [last]
    rfl
  | failed =>
    obtain ⟨reason, last, -⟩ := is
    rw [last]
    rfl

/-- A scan that came to an end has ended in one way. -/
lemma Concluded.ending {engine : Engine} {auditId : String} {base : AuditRecord} {p : Progress}
    (concluded : Concluded engine auditId base base.ownerName.display base.repoName.display p)
    (scores : base.scores = .null) (plan : base.remediationPlan = .null) :
    p.audit.status = .text Store.complete ∧ p.audit.scannedAt ≠ .null ∧
      p.audit.executiveSummary ≠ .null ∧ ∃! ending, Ending.IsOf engine auditId base p ending := by
  have only {ending : Ending} (is : ending.IsOf engine auditId base p) :
      ∃! ending, Ending.IsOf engine auditId base p ending := by
    refine ⟨ending, is, fun other is' => ?_⟩
    exact Ending.eq_of_line (Option.some.inj (is'.line.symm.trans is.line))
  cases concluded with
  | finished scanned analyzed unique lines kept =>
    subst unique
    refine ⟨rfl, Json.noConfusion, Json.noConfusion, only (?_ : Ending.IsOf _ _ _ _ .whole)⟩
    exact ⟨⟨_, AuditRecord.lastLine_of_lines rfl lines⟩, Json.noConfusion, Json.noConfusion,
      _, _, _, scanned, analyzed, rfl, kept⟩
  | unreachable lines =>
    refine ⟨rfl, Json.noConfusion, Json.noConfusion, only (?_ : Ending.IsOf _ _ _ _ .unreachable)⟩
    have lines' : _ = [_] ++ [_] := lines
    exact ⟨⟨_, AuditRecord.lastLine_of_lines rfl lines'⟩, rfl, scores, plan, rfl⟩
  | interrupted stumbles lines =>
    refine ⟨rfl, Json.noConfusion, Json.noConfusion, only (?_ : Ending.IsOf _ _ _ _ .failed)⟩
    exact ⟨_, AuditRecord.lastLine_of_lines rfl lines, rfl, scores, plan, rfl⟩

end Scan

namespace Traffic

variable {hs : List Happening} {h : Happening} {t₀ t t' : Traffic} {auditId : String}
variable {k n : Nat} {base : AuditRecord}

/-- A request that marks an audit has not marked any before. -/
lemma Sound.unbegun {reply : Except StoreError (Option AuditRecord)} (sound : Sound hs t)
    (step : Step t (.served k ⟨.updateAudit auditId Scan.beginning, reply⟩) t') (b : String)
    (base : AuditRecord) : ¬ Begun hs b k base := by
  obtain ⟨owner, next, serving, -, -⟩ := step.served_inv
  obtain ⟨phase, current⟩ := sound.served _ serving
  have allowed : Scan.openingAllows owner phase (.updateAudit auditId Scan.beginning) := current.keeps.1
  obtain ⟨-, ⟨rfl, -⟩ | ⟨found, now, -, same⟩⟩ := Scan.changes_of_opening allowed
  · exact current.fits.1 b base
  · exact absurd same (beginning_ne_refusal now)

/-- What a request marked stood there before, with some values cleared by the mark. -/
lemma Begun.inv (begun : Begun hs auditId k base) (runs : Runs t₀ hs t) (saved : ∀ h ∈ hs, h.Saved) :
    ∃ audit : AuditRecord, base = audit.change Scan.beginning := by
  obtain ⟨before, after, rfl⟩ := List.append_of_mem begun
  obtain ⟨t₁, t₂, -, step, -⟩ := runs.split
  obtain ⟨-, -, -, reply, -⟩ := step.served_inv
  have kept : RepoAudit.Saved (t₁.world.perform (.updateAudit auditId Scan.beginning)).1 :=
    reply ▸ saved _ (List.mem_append_right _ List.mem_cons_self)
  obtain ⟨-, does⟩ | ⟨audit, disk, -, does⟩ := World.perform_updateAudit kept
  · rw [does] at reply
    cases reply
  · rw [does] at reply
    exact ⟨audit, by simpa using reply.symm⟩

/-- A request has not marked any audit before it does. -/
lemma Idle.unbegun {before after : List Happening} {reply : Except StoreError (Option AuditRecord)}
    (idle : Idle t₀)
    (runs : Runs t₀ (before ++
      .served k ⟨.updateAudit auditId Scan.beginning, reply⟩ :: after) t)
    (saved : ∀ h ∈ before, h.Saved) (b : String) (base : AuditRecord) : ¬ Begun before b k base := by
  obtain ⟨t₁, t₂, first, step, -⟩ := runs.split
  exact (idle.sound_runs first saved).unbegun step b base

/-- A request marks one audit, once. -/
lemma Idle.begun_once {b : String} {base' : AuditRecord} (idle : Idle t₀) (runs : Runs t₀ hs t)
    (saved : ∀ h ∈ hs, h.Saved) (begun : Begun hs auditId k base) (begun' : Begun hs b k base') :
    auditId = b ∧ base = base' := by
  obtain ⟨before, after, rfl⟩ := List.append_of_mem begun
  obtain earlier | same := List.mem_append.mp begun'
  · exact absurd earlier (idle.unbegun runs (fun h happened => saved h (by simp [happened])) b base')
  obtain same | later := List.mem_cons.mp same
  · simp only [Happening.served.injEq, Exchange.mk.injEq, Call.updateAudit.injEq] at same
    obtain ⟨-, ⟨rfl, -⟩, reply⟩ := same
    simp only [heq_eq_eq, Except.ok.injEq, Option.some.injEq] at reply
    exact ⟨rfl, reply.symm⟩
  · obtain ⟨middle, rest, rfl⟩ := List.append_of_mem later
    rw [← List.cons_append, ← List.append_assoc] at runs saved
    refine absurd ?_ (idle.unbegun runs (fun h happened => saved h ?_) auditId base)
    · exact List.mem_append_right _ List.mem_cons_self
    · exact List.mem_append_left _ happened

/-- A scan that makes a call was taken for a request before. -/
lemma Idle.admitted_of_scanned {e : Exchange} (idle : Idle t₀) (runs : Runs t₀ hs t)
    (saved : ∀ h ∈ hs, h.Saved) (scanned : .scanned n e ∈ hs) : ∃ b j, Admitted hs b j n := by
  obtain ⟨before, after, rfl⟩ := List.append_of_mem scanned
  obtain ⟨t₁, t₂, first, step, -⟩ := runs.split
  have sound := idle.sound_runs first fun h happened => saved h (List.mem_append_left _ happened)
  obtain ⟨owner, next, live, -, -⟩ := step.scanned_inv
  obtain ⟨⟨j, admitted⟩, -⟩ := sound.tidy.live _ live
  exact ⟨owner, j, List.mem_append_left _ admitted⟩

/-- A scan that has completed its audit changes nothing of it any more. -/
lemma Sound.settled (sound : Sound hs t) (step : Step t h t') (begun : Begun hs auditId k base)
    (admitted : Admitted hs auditId k n) (finished : Finished hs n) :
    (progress base n (hs ++ [h])).audit = (progress base n hs).audit := by
  have course := (sound.regular auditId).course k n base begun admitted
  by_cases call : ∃ e, h = .scanned n e
  · obtain ⟨e, rfl⟩ := call
    have allowed := sound.scan_allowed step begun admitted
    rw [progress_concat_scanned]
    refine Progress.next_audit (fun id changes same => ?_) _
    rw [same] at allowed
    exact course.marked.mp allowed.2.1 finished
  · rw [progress_concat_other fun e is => call ⟨e, is⟩]

/-- A scan that has completed its audit changes nothing of it in any run. -/
lemma Sound.settled_runs {more : List Happening} (sound : Sound hs t) (runs : Runs t more t')
    (saved : ∀ h ∈ more, h.Saved) (begun : Begun hs auditId k base)
    (admitted : Admitted hs auditId k n) (finished : Finished hs n) :
    (progress base n (hs ++ more)).audit = (progress base n hs).audit := by
  induction runs with
  | none => rw [List.append_nil]
  | @more t₁ t₂ steps h first step ih =>
    have saved' : ∀ h ∈ steps, h.Saved := fun h happened => saved h (List.mem_append_left _ happened)
    have finished' : Finished (hs ++ steps) n := by
      obtain ⟨e, happened, completes⟩ := finished
      exact ⟨e, by simp [happened], completes⟩
    rw [← List.append_assoc, ← ih saved']
    exact (sound.runs first saved').settled step (List.mem_append_left _ begun)
      (List.mem_append_left _ admitted) finished'

/-- From the write that completes it on, and until a newer request marks it, an audit stands as the scan
left it. -/
lemma Idle.stands {before after : List Happening} {t₁ : Traffic} {audit : AuditRecord} (idle : Idle t₀)
    (runs : Runs t₀ (before ++ after) t) (saved : ∀ h ∈ before ++ after, h.Saved)
    (begun : Begun (before ++ after) auditId k base) (admitted : Admitted (before ++ after) auditId k n)
    (first : Runs t₀ before t₁) (finished : Finished before n) (newest : Newest before auditId k)
    (found : t₁.audit? auditId = some audit) :
    audit = (progress base n (before ++ after)).audit := by
  have saved' : ∀ h ∈ before, h.Saved := fun h happened => saved h (List.mem_append_left _ happened)
  obtain ⟨base', begun'⟩ := newest.1
  obtain ⟨-, rfl⟩ := idle.begun_once runs saved begun (List.mem_append_left _ begun')
  have ⟨e, scanned, _⟩ := finished
  obtain ⟨b, j, admitted'⟩ := idle.admitted_of_scanned first saved' (mem_exchangesOf.mp scanned)
  obtain ⟨rfl, rfl⟩ := (idle.sound_runs runs saved).tidy.one _ _ _ _ _ admitted
    (List.mem_append_left _ admitted')
  have course := ((idle.sound_runs first saved').regular auditId).course k n base begun' admitted'
  obtain ⟨t₂, through, rest⟩ := runs.cut
  have settled := (idle.sound_runs through saved').settled_runs rest
    (fun h happened => saved h (List.mem_append_right _ happened)) begun' admitted' finished
  rw [course.stored newest audit found, settled]

/-- All or nothing. However the host answers and whatever the engine does, a scan that was accepted and has
ended has completed its audit, with a time and a summary, and in exactly one way: with scores, a plan and
every distinct finding kept once and in order, or with a summary that says why not, and neither scores nor
plan nor a finding. From its last write on the audit stands so until a newer request marks it. -/
theorem scans_end_whole_or_empty {result : Except StoreError (Option AuditRecord)} (idle : Idle t₀)
    (runs : Runs t₀ hs t) (saved : ∀ h ∈ hs, h.Saved) (begun : Begun hs auditId k base)
    (admitted : Admitted hs auditId k n) (ended : .ended n result ∈ hs) :
    (progress base n hs).audit.status = .text Store.complete ∧
    (progress base n hs).audit.scannedAt ≠ .null ∧
    (progress base n hs).audit.executiveSummary ≠ .null ∧
    (∃! ending, Scan.Ending.IsOf t.engine auditId base (progress base n hs) ending) ∧
    Finished hs n ∧
    ∀ before after t₁ audit, hs = before ++ after → Finished before n → Newest before auditId k →
      Runs t₀ before t₁ → t₁.audit? auditId = some audit → audit = (progress base n hs).audit := by
  have sound := idle.sound_runs runs saved
  have course := (sound.regular auditId).course k n base begun admitted
  obtain ⟨audit, rfl⟩ := begun.inv runs saved
  obtain ⟨reading, -, concluded⟩ : ∃ reading, Ends t.engine auditId (audit.change Scan.beginning)
      reading (progress (audit.change Scan.beginning) n hs) := by
    obtain ⟨program, live, -⟩ | ⟨reading, -, ends⟩ := course.goes
    · exact absurd rfl ((sound.tidy.ended n result ended).2 _ live)
    · exact ⟨reading, ends⟩
  obtain ⟨status, scannedAt, summary, ending⟩ := concluded.ending rfl rfl
  refine ⟨status, scannedAt, summary, ending, ?_, ?_⟩
  · refine Classical.not_not.mp (course.marked.not.mp ?_)
    simp [AuditRecord.isRunning, status, Json.isText, Store.complete, Store.inProgress]
  · rintro before after t₁ stored rfl finished newest first found
    exact idle.stands runs saved begun admitted first finished newest found

/-- A scan that cannot reach its repository ends with the summary that says so. -/
theorem scans_end_whole_or_empty_unreached : ∃ base,
    Begun (.asked 0 "i" :: (sampleAsked.turns 20).1) "i" 0 base ∧
    Scan.Ending.IsOf (sampleAsked.turns 20).2.engine "i" base
      (progress base 0 (.asked 0 "i" :: (sampleAsked.turns 20).1)) .unreachable := by
  refine ⟨_, List.mem_of_getElem? (i := 4) rfl, ?_⟩
  have admitted : Admitted (.asked 0 "i" :: (sampleAsked.turns 20).1) "i" 0 0 :=
    List.mem_of_getElem? (i := 5) rfl
  have ended : .ended 0 (.ok ((sampleAsked.turns 20).2.audit? "i")) ∈
      Happening.asked 0 "i" :: (sampleAsked.turns 20).1 := List.mem_of_getElem? (i := 19) rfl
  obtain ⟨-, -, -, ⟨ending, is, -⟩, -⟩ := scans_end_whole_or_empty sample_idle (sample_runs 20) (by decide)
    (List.mem_of_getElem? (i := 4) rfl) admitted ended
  have unreached : ending = .unreachable := Scan.Ending.eq_of_line (Option.some.inj (is.line.symm.trans rfl))
  exact unreached ▸ is

end Traffic

end RepoAudit
