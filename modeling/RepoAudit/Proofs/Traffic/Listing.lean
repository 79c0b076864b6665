import RepoAudit.Proofs.Scan.Results
import RepoAudit.Proofs.Scan.Surroundings
import RepoAudit.Proofs.Traffic.Completion
import RepoAudit.Proofs.Traffic.Survival

/-!
# What is listed is what the scan has stored

A scan begins without detected findings of its audit, and from then on only the scan adds any, at the end of the list.
So as long as nobody edits one of them, the detected findings that are listed are those that the scan has stored, in
their order (`Traffic.Custody.listed`). Once the scan has ended with scores, all its results are those of this list.
-/

namespace RepoAudit

/-- The id of the finding that is edited: by an errand that changes or deletes it, or by a request for a scan that drops
it. -/
def Happening.edited? : Happening → Option String
  | did (.updateFinding id _) _ => some id
  | did (.deleteFinding id) _ => some id
  | served _ ⟨.deleteFinding id, _⟩ => some id
  | _ => none

/-- The finding that a call files for the audit, if it does. -/
def Exchange.filed (auditId : String) : Exchange → List FindingRecord
  | ⟨.createFinding id _, .ok record⟩ => if id = auditId then [record] else []
  | _ => []

lemma Exchange.filed_eq_nil {auditId : String} {e : Exchange} (other : ∀ draft, e.call ≠ .createFinding auditId draft) :
    e.filed auditId = [] := by
  unfold filed
  split
  · exact if_neg fun same => other _ (congrArg (Call.createFinding · _) same)
  · rfl

/-- The finding that a scan files for the audit, if it does. -/
def Happening.filed (auditId : String) : Happening → List FindingRecord
  | .scanned _ exchange => exchange.filed auditId
  | _ => []

/-- A finding that a person enters is not detected. -/
lemma Errand.Proper.undetected {auditId : String} {draft : FindingRecord}
    (proper : (Errand.createFinding auditId draft).Proper) : draft.autoDetected = .bool false := by
  obtain ⟨raw, body, fits, rfl⟩ := proper
  exact (Service.enteredFinding_of_check fits).1

/-- No change that a person makes says whether a finding was detected. -/
lemma Errand.Proper.unsaid {id : String} {changes : List (FindingField × Json)}
    (proper : (Errand.updateFinding id changes).Proper) : ∀ change ∈ changes, change.1 ≠ .autoDetected := by
  obtain ⟨raw, body, fits, rfl⟩ := proper
  exact fun change member => (Service.findingChanges_of_check fits change (List.mem_of_mem_filter member)).1

namespace Store

variable {store : Store} {auditId : String}

lemma detectedOf_eq_filter (store : Store) (auditId : String) : store.detectedOf auditId =
    store.findings.filter fun finding => finding.autoDetected.isTruthy && finding.isOf auditId :=
  List.filter_filter

lemma detectedOf_putAudit (audit : AuditRecord) :
    (store.putAudit audit).detectedOf auditId = store.detectedOf auditId := by
  rw [detectedOf, findingsOf, findings_putAudit, detectedOf, findingsOf]

/-- A finding that is filed is listed last, if it is one of the audit. -/
lemma detectedOf_concat {finding : FindingRecord} (missing : store.finding? finding.id = none) :
    (store.putFinding finding).detectedOf auditId = store.detectedOf auditId ++
      [finding].filter fun finding => finding.autoDetected.isTruthy && finding.isOf auditId := by
  rw [detectedOf_eq_filter, findings_putFinding_of_missing missing, List.filter_append, detectedOf_eq_filter]

/-- A change of a finding does not show in the list when neither the old one nor the new one is listed. -/
lemma detectedOf_replace {finding : FindingRecord} (found : (store.finding? finding.id).isSome = true)
    (apart : ∀ old ∈ store.detectedOf auditId, old.id ≠ finding.id)
    (unlisted : (finding.autoDetected.isTruthy && finding.isOf auditId) = false) :
    (store.putFinding finding).detectedOf auditId = store.detectedOf auditId := by
  have replaced : (store.putFinding finding).findings = replaceKeyed (·.id) finding store.findings := by
    rw [putFinding, if_pos found]
    rfl
  rw [detectedOf_eq_filter, replaced, detectedOf_eq_filter]
  refine filter_replaceKeyed FindingRecord.id unlisted fun old stored same => ?_
  rw [Bool.eq_false_iff]
  intro listed
  exact apart old (detectedOf_eq_filter store auditId ▸ List.mem_filter.mpr ⟨stored, listed⟩) same

lemma detectedOf_dropFinding {id : String} (apart : ∀ old ∈ store.detectedOf auditId, old.id ≠ id) :
    (store.dropFinding id).detectedOf auditId = store.detectedOf auditId := by
  have swapped : (store.dropFinding id).detectedOf auditId = (store.detectedOf auditId).filter (·.id != id) := by
    simp only [detectedOf, findingsOf, dropFinding, List.filter_filter]
    exact List.filter_congr fun finding _ => by ac_rfl
  rw [swapped, List.filter_eq_self]
  exact fun old listed => bne_iff_ne.mpr (apart old listed)

lemma detectedOf_dropAudit {id : String} (other : id ≠ auditId) :
    (store.dropAudit id).detectedOf auditId = store.detectedOf auditId := by
  simp only [detectedOf_eq_filter, dropAudit, List.filter_filter]
  refine List.filter_congr fun finding _ => ?_
  cases ofAudit : finding.isOf auditId with
  | false => simp
  | true =>
    have apart : finding.isOf id = false :=
      Bool.eq_false_iff.mpr fun ofOther => other (FindingRecord.isOf_inj ofOther ofAudit)
    simp [apart]

end Store

/-- A call leaves the list but for the finding that it files, as long as it deletes none of those listed. -/
lemma World.detectedOf_perform {world : World} {c : Call} {auditId : String}
    (saved : Exchange.Saved ⟨c, (world.perform c).1⟩)
    (unused : world.ledger.store.finding? (world.ledger.ids (world.ledger.drawn + 1)) = none)
    (unedited : ∀ finding ∈ world.ledger.store.detectedOf auditId, c ≠ .deleteFinding finding.id) :
    (world.perform c).2.ledger.store.detectedOf auditId = world.ledger.store.detectedOf auditId ++
      (Exchange.filed auditId ⟨c, (world.perform c).1⟩).filter (·.autoDetected.isTruthy) := by
  have leaves {files : List FindingRecord} (none : files = []) : world.ledger.store.detectedOf auditId =
      world.ledger.store.detectedOf auditId ++ files.filter (·.autoDetected.isTruthy) := by
    rw [none, List.filter_nil, List.append_nil]
  cases c with
  | updateAudit id changes =>
    obtain ⟨-, does⟩ | ⟨audit, disk, -, does⟩ := perform_updateAudit saved
    · rw [does]
      exact leaves rfl
    · rw [does]
      exact (Store.detectedOf_putAudit _).trans (leaves rfl)
  | deleteFinding id =>
    obtain ⟨-, does⟩ | ⟨finding, disk, -, does⟩ := perform_deleteFinding saved
    · rw [does]
      exact leaves rfl
    · rw [does]
      refine (Store.detectedOf_dropFinding fun old listed same => ?_).trans (leaves rfl)
      exact unedited old listed (congrArg Call.deleteFinding same.symm)
  | createFinding id draft =>
    obtain ⟨-, does⟩ | ⟨audit, disk, -, does⟩ := perform_createFinding saved
    · rw [does]
      exact leaves rfl
    · rw [does]
      refine (Store.detectedOf_concat unused).trans ?_
      have ofAudit (new : String) : (Ledger.filed draft new id).isOf auditId = decide (id = auditId) := by
        simp [Ledger.filed, FindingRecord.isOf, Json.isText, beq_eq_decide]
      rw [Exchange.filed]
      split
      · next same =>
        subst same
        simp only [List.filter_cons, ofAudit, decide_true, Bool.and_true, List.filter_nil]
      · next other =>
        simp only [List.filter_cons, ofAudit, other, decide_false, Bool.and_false, List.filter_nil]
        rfl
  | _ => exact leaves rfl

/-- A scan that stays with its audit has stored all that it files for it. -/
lemma Progress.stored_next {auditId : String} {e : Exchange} (stays : e.call.StaysWith auditId) (p : Progress) :
    (p.next e).stored = p.stored ++ e.filed auditId := by
  obtain ⟨c, reply⟩ := e
  cases c with
  | createFinding id draft =>
    obtain rfl : id = auditId := stays
    cases reply with
    | ok record => rw [Exchange.filed, if_pos rfl, next]
    | error error => exact (List.append_nil _).symm
  | _ => exact (List.append_nil _).symm

namespace Traffic

section Listing

variable {hs more : List Happening} {h : Happening} {t₀ t t' : Traffic} {auditId : String} {k n : Nat}
variable {base : AuditRecord}

/-- The detected findings of an audit, as they are listed. -/
def detectedOf (t : Traffic) (auditId : String) : List FindingRecord := t.world.ledger.store.detectedOf auditId

/-- The findings that are read back from these. -/
def detectedFindings (t : Traffic) (auditId : String) : List Finding :=
  (t.detectedOf auditId).map FindingRecord.toFinding

/-- An errand that edits none of the listed findings leaves the list, as long as it leaves the audit. -/
lemma detectedOf_of_does {errand : Errand} {reply : Except StoreError errand.Reply} {ledger : Ledger} (kept : Kept t)
    (does : errand.Does t.world.ledger ledger) (proper : errand.Proper)
    (unedited : ∀ finding ∈ t.detectedOf auditId, (Happening.did errand reply).edited? ≠ some finding.id)
    (present : ledger.store.audit? auditId ≠ none) : ledger.store.detectedOf auditId = t.detectedOf auditId := by
  cases does with
  | nothing | misses => rfl
  | makes => exact Store.detectedOf_putAudit _
  | discards =>
    refine Store.detectedOf_dropAudit fun same => present ?_
    rw [Store.audit?_dropAudit, if_pos same.symm]
  | @files owner _ draft disk found =>
    have missing : t.world.ledger.store.finding?
        (Ledger.filed draft (t.world.ledger.ids (t.world.ledger.drawn + 1)) owner).id = none :=
      kept.unused _ (Nat.lt_succ_self _)
    refine (Store.detectedOf_concat missing).trans ?_
    simp [Ledger.filed, proper.undetected, Json.isTruthy, detectedOf]
  | @changes id finding changes disk found =>
    obtain rfl := Store.id_of_finding? found
    -- The finding is not listed, and no change makes it a detected one or one of another audit.
    have same : (finding.change changes).autoDetected = finding.autoDetected :=
      FindingRecord.get_change_of_notMem proper.unsaid finding
    refine Store.detectedOf_replace ?_ (fun old listed same => unedited old listed ?_) ?_
    · rw [FindingRecord.change_id, found]
      rfl
    · exact congrArg some (same.trans (FindingRecord.change_id _ _)).symm
    · rw [same, FindingRecord.isOf_change, Bool.eq_false_iff, ne_eq, Bool.and_eq_true_iff]
      rintro ⟨detected, ofAudit⟩
      exact unedited finding (Store.mem_detectedOf.mpr ⟨Store.mem_of_finding? found, ofAudit, detected⟩) rfl
  | drops => exact Store.detectedOf_dropFinding fun old listed same => unedited old listed (congrArg some same.symm)

/-- A step leaves the list but for the finding that a scan files, as long as it edits none of those listed. -/
lemma Custody.lists (custody : Custody hs t) (step : Step t h t') (saved : h.Saved) (proper : h.Proper)
    (unedited : ∀ finding ∈ t.detectedOf auditId, h.edited? ≠ some finding.id) (present : t'.audit? auditId ≠ none) :
    t'.detectedOf auditId = t.detectedOf auditId ++ (h.filed auditId).filter (·.autoDetected.isTruthy) := by
  have unused := custody.kept.unused _ (Nat.lt_succ_self _)
  cases step with
  | asked | answered | ended | reported | shifted => exact (List.append_nil _).symm
  | did errand =>
    have same := detectedOf_of_does custody.kept (errand.does _) proper unedited present
    exact same.trans (List.append_nil _).symm
  | @served k owner c next serving =>
    obtain ⟨phase, served⟩ := custody.sound.served _ serving
    have allowed : Scan.openingAllows owner phase c := served.keeps.1
    refine (World.detectedOf_perform saved unused fun finding listed same => ?_).trans ?_
    · subst same
      exact unedited finding listed rfl
    · rw [Exchange.filed_eq_nil fun draft same => ?_]
      · rfl
      · obtain rfl : c = .createFinding auditId draft := same
        exact Scan.not_openingAllows_createFinding phase allowed
  | @scanned before after n owner c next live =>
    have member : ⟨n, owner, .call c next⟩ ∈ t.live := live ▸ List.mem_append_right before List.mem_cons_self
    have stays : c.StaysWith owner := (custody.sound.tidy.live _ member).2.1
    refine World.detectedOf_perform saved unused fun finding listed same => ?_
    rw [same] at stays
    exact stays

/-- A request that marked an audit has not lost it as long as the audit is there later. -/
lemma Sound.unlost (sound : Sound hs t) (runs : Runs t more t') (saved : ∀ h ∈ more, h.Saved)
    (begun : Begun hs auditId k base) (present : t'.audit? auditId ≠ none) : t.audit? auditId ≠ none :=
  fun missing => present (((sound.regular auditId).gone k base begun missing).runs runs saved).1

/-- Of an audit that is there, the scan of the newest request stores all that is filed. -/
lemma Sound.accounts (sound : Sound hs t) (step : Step t h t')
    (admitted : Admitted hs auditId k n) (newest : Newest hs auditId k) (present : t.audit? auditId ≠ none) :
    (progress base n (hs ++ [h])).stored = (progress base n hs).stored ++ h.filed auditId := by
  by_cases call : ∃ e, h = .scanned n e
  · obtain ⟨e, rfl⟩ := call
    obtain ⟨owner, next, live, -, -⟩ := step.scanned_inv
    obtain ⟨⟨j, admitted'⟩, stays, -⟩ := sound.tidy.live _ live
    obtain rfl : owner = auditId := (sound.tidy.one _ _ _ _ _ admitted' admitted).1
    rw [progress_concat_scanned]
    exact Progress.stored_next stays _
  · rw [progress_concat_other fun e is => call ⟨e, is⟩]
    suffices none : h.filed auditId = [] by rw [none, List.append_nil]
    cases step with
    | @scanned before after m owner c next live =>
      have member : ⟨m, owner, .call c next⟩ ∈ t.live := live ▸ List.mem_append_right before List.mem_cons_self
      have stays : c.StaysWith owner := (sound.tidy.live _ member).2.1
      refine Exchange.filed_eq_nil fun draft files => ?_
      obtain rfl : c = .createFinding auditId draft := files
      obtain rfl : auditId = owner := stays
      -- Only the scan of an open interval files for the audit, so it is that of the newest request.
      obtain ⟨j, admitted', isOpen⟩ := sound.holder member rfl fun lost => present lost.1
      obtain ⟨-, latest⟩ := (sound.regular auditId).newest_of_open isOpen
      obtain ⟨base', begun⟩ := newest.1
      obtain ⟨base'', begun'⟩ := isOpen.1
      obtain rfl := Nat.le_antisymm (latest k base' begun) (newest.2 j base'' begun')
      obtain rfl := sound.tidy.once _ _ _ _ _ admitted admitted'
      exact call ⟨_, rfl⟩
    | _ => rfl

/-- True as long as nobody edits a finding that the scan has stored. -/
def Unedited (base : AuditRecord) (n : Nat) (hs : List Happening) : Prop :=
  ∀ before h after, hs = before ++ h :: after → ∀ finding ∈ (progress base n before).stored, h.edited? ≠ some finding.id

lemma Unedited.before (unedited : Unedited base n (hs ++ [h])) : Unedited base n hs :=
  fun before other after split => unedited before other (after ++ [h]) (by simp [split])

lemma Unedited.last (unedited : Unedited base n (hs ++ [h])) :
    ∀ finding ∈ (progress base n hs).stored, h.edited? ≠ some finding.id :=
  unedited hs h [] rfl

lemma Newest.before (newest : Newest (hs ++ [h]) auditId k) (begun : Begun hs auditId k base) :
    Newest hs auditId k :=
  ⟨⟨base, begun⟩, fun j base' begun' => newest.2 j base' begun'.later⟩

/-- When the executor takes the scan of an audit that is not lost, the request has marked the audit, no detected
finding of it is listed, and the scan has not stored any. -/
lemma Custody.admits (custody : Custody hs t) (step : Step t (.served k ⟨.submit auditId, some n⟩) t')
    (unlost : ¬ Lost t auditId) :
    (∃ base, Begun hs auditId k base) ∧ t'.detectedOf auditId = [] ∧ ∀ base, (progress base n hs).stored = [] := by
  obtain ⟨owner, next, serving, reply, world⟩ := step.served_inv
  obtain ⟨phase, served⟩ := custody.sound.served _ serving
  have allowed : Scan.openingAllows owner phase (.submit auditId) := served.keeps.1
  obtain ⟨record, rfl, rfl⟩ := Scan.begun_of_submit allowed
  refine ⟨?_, ?_, fun base => ?_⟩
  · cases record with
    | none => exact absurd served.fits.2 unlost
    | some base => exact ⟨base, (served.fits.1 _ _).mpr ⟨rfl, rfl⟩⟩
  · refine List.eq_nil_iff_forall_not_mem.mpr fun finding listed => ?_
    obtain ⟨stored, ofAudit, detected⟩ := Store.mem_detectedOf.mp listed
    have same : t'.world.ledger = t.world.ledger := by
      rw [world]
      rfl
    have found : t'.finding? finding.id = some finding :=
      (find?_eq_some_iff_mem FindingRecord.id (same ▸ custody.kept.keyed)).mpr ⟨stored, rfl⟩
    exact custody.cleared step found ⟨ofAudit, detected⟩
  · -- The number is that of the next job, and only scans that were taken before have made calls.
    obtain ⟨none, -⟩ | ⟨number, -⟩ := World.perform_submit t.world auditId
    · cases none.symm.trans reply
    · obtain rfl : t.world.executor.jobs.length = n := Option.some.inj (number.symm.trans reply)
      have uncalled : exchangesOf t.world.executor.jobs.length hs = [] := by
        refine List.eq_nil_iff_forall_not_mem.mpr fun e called => ?_
        exact Nat.lt_irrefl _ (custody.sound.tidy.scanned _ e (mem_exchangesOf.mp called))
      rw [progress, uncalled, List.foldl_nil]

/-- The detected findings that are listed are those that the scan has stored, from its admission on. -/
lemma Custody.listed (custody : Custody hs t) (runs : Runs t more t') (proper : ∀ h ∈ more, h.Saved ∧ h.Proper)
    (begun : Begun hs auditId k base) (admitted : Admitted hs auditId k n) (newest : Newest (hs ++ more) auditId k)
    (unedited : Unedited base n (hs ++ more)) (present : t'.audit? auditId ≠ none)
    (listed : t.detectedOf auditId = (progress base n hs).stored.filter (·.autoDetected.isTruthy)) :
    t'.detectedOf auditId = (progress base n (hs ++ more)).stored.filter (·.autoDetected.isTruthy) := by
  induction runs with
  | none => rwa [List.append_nil]
  | @more t₁ t₂ steps h first step ih =>
    have before (h : Happening) (happened : h ∈ steps) := proper h (List.mem_append_left _ happened)
    obtain ⟨saved, proper'⟩ := proper _ (List.mem_append_right _ List.mem_cons_self)
    rw [← List.append_assoc] at newest unedited ⊢
    have custody' := custody.runs first before
    have begun' : Begun (hs ++ steps) auditId k base := List.mem_append_left _ begun
    have newest' := newest.before begun'
    have present' : t₁.audit? auditId ≠ none :=
      custody'.sound.unlost (Runs.none.more step) (by simpa using saved) begun' present
    have earlier := ih before newest' unedited.before present'
    rw [custody'.lists step saved proper' (fun finding listed => ?_) present, earlier,
      custody'.sound.accounts step (List.mem_append_left _ admitted) newest' present', List.filter_append]
    rw [earlier] at listed
    exact unedited.last finding (List.mem_of_mem_filter listed)

/-- As long as nobody edits what the scan of the newest request has stored, the detected findings of its audit are
just those. -/
lemma Orderly.listed (orderly : Orderly t₀) (runs : Runs t₀ hs t)
    (proper : ∀ h ∈ hs, h.Saved ∧ h.Proper) (begun : Begun hs auditId k base) (admitted : Admitted hs auditId k n)
    (newest : Newest hs auditId k) (unedited : Unedited base n hs) (present : t.audit? auditId ≠ none) :
    t.detectedOf auditId = (progress base n hs).stored.filter (·.autoDetected.isTruthy) := by
  have saved (h : Happening) (happened : h ∈ hs) : h.Saved := (proper h happened).1
  obtain ⟨before, after, rfl⟩ := List.append_of_mem admitted
  have within (h : Happening) (happened : h ∈ before) := proper h (List.mem_append_left _ happened)
  have later (h : Happening) (happened : h ∈ .served k ⟨.submit auditId, some n⟩ :: after) :=
    proper h (List.mem_append_right _ happened)
  obtain ⟨t₁, t₂, first, step, rest⟩ := runs.split
  have custody : Custody before t₁ := orderly.custody.runs first within
  have unlost : ¬ Lost t₁ auditId := fun lost =>
    present (lost.runs (rest.cons step) fun h happened => (later h happened).1).1
  obtain ⟨⟨base', marked⟩, none_left, nothing⟩ := custody.admits step unlost
  obtain ⟨-, rfl⟩ := orderly.idle.begun_once runs saved begun (List.mem_append_left _ marked)
  obtain ⟨saved', proper'⟩ := later _ List.mem_cons_self
  rw [← List.singleton_append, ← List.append_assoc] at newest unedited ⊢
  refine (custody.step step saved' proper').listed rest (fun h happened => later h (List.mem_cons_of_mem _ happened))
    marked.later (admitted_concat.mpr (.inr rfl)) newest unedited present ?_
  rw [none_left, progress_concat_other (by simp), nothing, List.filter_nil]

/-- Stored results fit each other. Where no write fails, once a scan with built-in families has ended with scores, and
as long as no newer request has marked the audit and nobody has edited what the scan stored, the detected findings of
the audit are what the scan has stored, in their order, and no two of them have both title and path in common. The audit
has their scores, its summary tells how many they are and how many of the higher severities, and its plan lists the
first titles of these. They are what was found in the tree, in the files and in the manifest, without repetitions,
whatever findings were entered. -/
theorem stored_results_fit {audit : AuditRecord} {result : Except StoreError (Option AuditRecord)}
    (orderly : Orderly t₀) (runs : Runs t₀ hs t) (proper : ∀ h ∈ hs, h.Saved ∧ h.Proper)
    (begun : Begun hs auditId k base) (admitted : Admitted hs auditId k n) (newest : Newest hs auditId k)
    (ended : .ended n result ∈ hs) (builtin : t.engine.IsBuiltin) (unedited : Unedited base n hs)
    (found : t.audit? auditId = some audit) (scored : audit.scores ≠ .null) :
    t.detectedOf auditId = (progress base n hs).stored ∧
    ((t.detectedFindings auditId).map Finding.signature).Nodup ∧ audit.Fits (t.detectedFindings auditId) ∧
    ∃ answers stages last, Scan.Answers.Scanned t.engine answers stages ∧ Scan.Answers.Analyzed t.engine answers last ∧
      (progress base n hs).heard = answers.exchanges base.ownerName.display base.repoName.display ∧
      (t.detectedFindings auditId).map Finding.unfiled = Finding.distinct (answers.found t.engine stages last) := by
  have saved (h : Happening) (happened : h ∈ hs) : h.Saved := (proper h happened).1
  have course := ((orderly.idle.sound_runs runs saved).regular auditId).course k n base begun admitted
  obtain rfl := course.stored newest audit found
  have listed := orderly.listed runs proper begun admitted newest unedited (found ▸ Option.some_ne_none _)
  have concluded := orderly.idle.concluded runs saved begun admitted ended
  obtain ⟨marked, rfl⟩ := begun.inv runs saved
  obtain ⟨finds, detected, nodup, fits⟩ := concluded.fits builtin rfl scored
  rw [List.filter_eq_self.mpr detected] at listed
  rw [detectedFindings, listed]
  exact ⟨rfl, nodup, fits, finds⟩

end Listing

/-- The scan of the sample has stored three findings, beside the one that was entered before, and the results are those
of the three. -/
theorem stored_results_fit_hosted : ∃ audit, sampleCourse.2.audit? "i" = some audit ∧
    (sampleCourse.2.detectedFindings "i").map (·.title) =
      ["Missing .gitignore File", "Missing Package Lock File", "No CI/CD Pipeline Configured"] ∧
    (sampleCourse.2.world.ledger.store.findingsOf "i").length = 4 ∧
    audit.Fits (sampleCourse.2.detectedFindings "i") := by
  have saved : ∀ h ∈ Happening.asked 0 "i" :: sampleCourse.1, h.Saved := by decide +kernel
  have begun : Begun (.asked 0 "i" :: sampleCourse.1) "i" 0 sampleBase := List.mem_of_getElem? (i := 4) rfl
  have admitted : Admitted (.asked 0 "i" :: sampleCourse.1) "i" 0 0 := List.mem_of_getElem? (i := 5) rfl
  have proper : ∀ h ∈ Happening.asked 0 "i" :: sampleCourse.1, h.Proper := by
    intro h happened
    obtain rfl | later := List.mem_cons.mp happened
    · trivial
    · exact (turns_proper 60 _ "i" "i" h later).1
  have ended : sampleCourse.1.any (Happening.isEndOf 0) = true := by decide +kernel
  obtain ⟨_, happened, ends⟩ := List.any_eq_true.mp ended
  obtain ⟨result, rfl⟩ := Happening.exists_of_isEndOf ends
  have orderly : Orderly sampleHosted := ⟨sampleHosted_idle,
    sample_kept.keyed, sample_kept.unused, sample_kept.plain, sample_kept.mirrored⟩
  have sound := orderly.idle.sound_runs sampleCourse_runs saved
  -- Only one request was asked for.
  have asked : sampleCourse.2.asked = 1 := by decide +kernel
  have newest : Newest (.asked 0 "i" :: sampleCourse.1) "i" 0 := by
    refine ⟨⟨_, begun⟩, fun j base begun' => ?_⟩
    have first := sound.tidy.serials _ _ begun'
    omega
  have builtin : sampleCourse.2.engine.IsBuiltin := by
    rw [sampleCourse_runs.engine_eq]
    exact ⟨{}, 2, [.largeFile], rfl⟩
  have calm : ∀ i < 46, ∀ h ∈ (Happening.asked 0 "i" :: sampleCourse.1)[i]?,
      ∀ finding ∈ (progress sampleBase 0 ((Happening.asked 0 "i" :: sampleCourse.1).take i)).stored,
        h.edited? ≠ some finding.id := by
    decide +kernel
  have length : (Happening.asked 0 "i" :: sampleCourse.1).length = 46 := by decide +kernel
  have unedited : Unedited sampleBase 0 (.asked 0 "i" :: sampleCourse.1) := by
    intro before h after split finding stored
    rw [split] at calm length
    have short : before.length < 46 := by
      rw [List.length_append, List.length_cons] at length
      omega
    exact calm before.length short h (by simp) finding (by simpa using stored)
  obtain ⟨audit, found⟩ := Option.isSome_iff_exists.mp
    (show (sampleCourse.2.audit? "i").isSome = true by decide +kernel)
  have scored : ∀ audit ∈ sampleCourse.2.audit? "i", audit.scores.isNull = false := by decide +kernel
  obtain ⟨-, -, fits, -⟩ := stored_results_fit orderly sampleCourse_runs
    (fun h happened => ⟨saved h happened, proper h happened⟩) begun admitted newest
    (List.mem_cons_of_mem _ happened) builtin unedited found fun none => by
      have some := scored audit found
      rw [none] at some
      cases some
  refine ⟨audit, found, ?_, ?_, fits⟩
  · decide +kernel
  · decide +kernel

end Traffic

end RepoAudit
