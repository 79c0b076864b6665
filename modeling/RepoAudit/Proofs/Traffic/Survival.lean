import RepoAudit.Proofs.Traffic.Life

/-!
# Entered findings survive

Scans and requests for scans come and go, and programs end and start again, but a finding that a person
entered goes or changes only by an errand that names it, or with its audit. An accepted request for a scan
drops the detected findings of its audit, and drops nothing else.
-/

namespace RepoAudit.Traffic

section Survival

variable {hs more : List Happening} {h : Happening} {t t' : Traffic} {id auditId : String} {k : Nat}
variable {finding : FindingRecord}

/-- A finding that no errand names, whose audit is not deleted, and that the request that is served does not
take for a detected one of its audit, stays as it is. -/
lemma Custody.leaves (custody : Custody hs t) (step : Step t h t') (saved : h.Saved) (proper : h.Proper)
    (found : t.finding? id = some finding) (unnamed : ¬ h.Names id)
    (undiscarded : ∀ auditId, finding.isOf auditId = true → ¬ h.Discards auditId)
    (undetected : ∀ s e, t.serving = some s → h = .served s.serial e → ¬ IsDetected s.auditId finding) :
    t'.finding? id = some finding := by
  have fate := custody.fate step saved proper id
  generalize t'.finding? id = result at fate
  cases fate with
  | rests => exact found
  | discarded present ofAudit discards =>
    rw [found, Option.some.injEq] at present
    exact absurd discards (undiscarded _ (present ▸ ofAudit))
  | changed _ named => exact absurd named unnamed
  | deleted named => exact absurd named unnamed
  | @cleared s first left serving happened reached same =>
    have clears := custody.clears s serving
    rw [reached] at clears
    obtain ⟨detected, known⟩ := clears.2 first List.mem_cons_self
    have isDetected := known.isDetected detected (same ▸ found)
    exact absurd isDetected (undetected s _ serving happened)
  | added missing =>
    rw [missing] at found
    cases found

/-- A finding that counts as entered stays as it is in every life in which no errand names it and its audit is
not deleted. -/
lemma Custody.survives {ms : List Moment} (custody : Custody hs t) (lives : Lives t ms t')
    (proper : ∀ m ∈ ms, m.Saved ∧ m.Proper ∧ ¬ m.Names id ∧
      ∀ auditId, finding.isOf auditId = true → ¬ m.Discards auditId)
    (found : t.finding? id = some finding) (entered : finding.autoDetected.isTruthy = false) :
    t'.finding? id = some finding := by
  induction lives with
  | none => exact found
  | @step t₁ t₂ ms h lives step ih =>
    have before (m : Moment) (member : m ∈ ms) := proper m (List.mem_append_left _ member)
    obtain ⟨saved, proper', unnamed, undiscarded⟩ := proper _ (List.mem_append_right _ List.mem_cons_self)
    obtain ⟨between, custody'⟩ := custody.lives lives fun m member =>
      ⟨(before m member).1, (before m member).2.1⟩
    refine custody'.leaves step saved proper' (ih before) unnamed undiscarded fun s _ _ _ detected => ?_
    rw [detected.2] at entered
    cases entered
  | @restarted t₁ ms path ledger engine host lives located opened ih =>
    have before (m : Moment) (member : m ∈ ms) := proper m (List.mem_append_left _ member)
    obtain ⟨between, custody'⟩ := custody.lives lives fun m member =>
      ⟨(before m member).1, (before m member).2.1⟩
    rw [custody'.finding?_reopened located opened]
    exact ih before

lemma Custody.runs (custody : Custody hs t) (runs : Runs t more t')
    (proper : ∀ h ∈ more, h.Saved ∧ h.Proper) : Custody (hs ++ more) t' := by
  induction runs with
  | none => simpa using custody
  | more _ step ih =>
    obtain ⟨saved, proper'⟩ := proper _ (List.mem_append_right _ List.mem_cons_self)
    rw [← List.append_assoc]
    exact (ih fun h happened => proper h (List.mem_append_left _ happened)).step step saved proper'

/-- What is known of a finding stays known in a run. -/
lemma Known.runs (known : Known t finding) (custody : Custody hs t) (runs : Runs t more t')
    (proper : ∀ h ∈ more, h.Saved ∧ h.Proper) : Known t' finding := by
  induction runs with
  | none => exact known
  | @more t₁ t₂ steps h first step ih =>
    have before (h : Happening) (happened : h ∈ steps) := proper h (List.mem_append_left _ happened)
    obtain ⟨saved, proper'⟩ := proper _ (List.mem_append_right _ List.mem_cons_self)
    exact (ih before).step ((custody.runs first before).fate step saved proper' _) (step.later saved)

/-- A finding that is known and missing does not come back in a run. -/
lemma Known.missing_runs (known : Known t finding) (missing : t.finding? finding.id = none)
    (custody : Custody hs t) (runs : Runs t more t') (proper : ∀ h ∈ more, h.Saved ∧ h.Proper) :
    t'.finding? finding.id = none := by
  induction runs with
  | none => exact missing
  | @more t₁ t₂ steps h first step ih =>
    have before (h : Happening) (happened : h ∈ steps) := proper h (List.mem_append_left _ happened)
    obtain ⟨saved, proper'⟩ := proper _ (List.mem_append_right _ List.mem_cons_self)
    exact (known.runs custody first before).missing (ih before)
      ((custody.runs first before).fate step saved proper' _)

/-- The request of the serial, when it is being served, is for the audit. -/
structure IsFor (t : Traffic) (k : Nat) (auditId : String) : Prop where
  asked : k < t.asked
  serving : ∀ s, t.serving = some s → s.serial = k → s.auditId = auditId

/-- Requests keep their audits. -/
lemma IsFor.runs (isFor : IsFor t k auditId) (runs : Runs t hs t') : IsFor t' k auditId := by
  induction runs with
  | none => exact isFor
  | more _ step ih =>
    obtain ⟨asked, serving⟩ := ih
    cases step with
    | asked other waits =>
      refine ⟨Nat.lt_succ_of_lt asked, fun s current same => ?_⟩
      obtain rfl := Option.some.inj current
      exact absurd same (Nat.ne_of_gt asked)
    | served current =>
      refine ⟨asked, fun s current' same => ?_⟩
      obtain rfl := Option.some.inj current'
      have ofAudit := serving _ current same
      exact ofAudit
    | answered => exact ⟨asked, fun s current => nomatch current⟩
    | scanned | ended | reported | did | shifted => exact ⟨asked, serving⟩

/-- When the executor takes the scan of a request, no detected finding of its audit is left. -/
lemma Custody.cleared {number : Nat} (custody : Custody hs t)
    (step : Step t (.served k ⟨.submit auditId, some number⟩) t') (found : t'.finding? id = some finding) :
    ¬ IsDetected auditId finding := by
  obtain ⟨owner, next, serving, -, world⟩ := step.served_inv
  obtain ⟨phase, served⟩ := custody.sound.served _ serving
  have allowed : Scan.openingAllows owner phase (.submit auditId) := served.keeps.1
  obtain ⟨record, rfl, rfl⟩ := Scan.begun_of_submit allowed
  have clears : Clears t auditId (.begun record) := served.reached ▸ custody.clears _ serving
  have before : t.finding? id = some finding := by
    rw [finding?, world] at found
    exact found
  exact clears id finding before

/-- A request that is told to be accepted was granted its scan by the executor. -/
lemma Sound.granted (sound : Sound hs t) (step : Step t (.answered k (.ok Scan.started)) t') :
    ∃ s number, t.serving = some s ∧ s.serial = k ∧ Admitted hs s.auditId k number := by
  cases step with
  | @answered owner _ _ serving =>
    obtain ⟨phase, served⟩ := sound.served _ serving
    obtain ⟨record, number, rfl⟩ := served.keeps.mp rfl
    exact ⟨_, number, serving, rfl, served.fits⟩

/-- A request that was asked for in a run is for its audit. -/
lemma isFor_of_asked (runs : Runs t (.asked t.asked auditId :: more) t') : IsFor t' t.asked auditId := by
  obtain ⟨t₁, asks, rest⟩ := runs.head
  refine IsFor.runs ?_ rest
  cases asks with
  | asked _ waits =>
    refine ⟨Nat.lt_succ_self _, fun s current _ => ?_⟩
    obtain rfl := Option.some.inj current
    rfl

/-- When an accepted request for a scan is answered, the executor took its scan before, and no detected
finding of the audit was left then. -/
lemma Custody.accepted (custody : Custody hs t) (runs : Runs t (.asked t.asked auditId :: more) t')
    (proper : ∀ h ∈ more, h.Saved ∧ h.Proper) (accepted : .answered t.asked (.ok Scan.started) ∈ more) :
    ∃ before number after t₁ t₂, more = before ++ .served t.asked ⟨.submit auditId, some number⟩ :: after ∧
      Runs t (.asked t.asked auditId :: before) t₁ ∧
      Step t₁ (.served t.asked ⟨.submit auditId, some number⟩) t₂ ∧ Runs t₂ after t' ∧
      ∀ id finding, t₂.finding? id = some finding → ¬ IsDetected auditId finding := by
  have within {part rest : List Happening} (parts : more = part ++ rest) (h : Happening)
      (happened : h ∈ .asked t.asked auditId :: part) : h.Saved ∧ h.Proper := by
    obtain rfl | member := List.mem_cons.mp happened
    · exact ⟨trivial, trivial⟩
    · exact proper h (parts ▸ List.mem_append_left _ member)
  obtain ⟨t₀, asks, served⟩ := runs.head
  obtain ⟨earlier, later, split⟩ := List.append_of_mem accepted
  obtain ⟨u, _, first, answers, -⟩ := (split ▸ served).split
  obtain ⟨s, number, serving, serial, admitted⟩ :=
    (custody.runs (first.cons asks) (within split)).sound.granted answers
  rw [(isFor_of_asked (first.cons asks)).serving s serving serial] at admitted
  -- The serial is a new one, so the scan was taken for it after it was asked for.
  have member : .served t.asked ⟨.submit auditId, some number⟩ ∈ earlier := by
    obtain old | new := List.mem_append.mp admitted
    · exact absurd (custody.sound.tidy.serials _ _ old) (Nat.lt_irrefl _)
    · simpa using new
  obtain ⟨before, after, rfl⟩ := List.append_of_mem member
  rw [List.append_assoc, List.cons_append] at split
  obtain ⟨t₁, t₂, through, takes, rest⟩ := (split ▸ served).split
  refine ⟨before, number, _, t₁, t₂, split, through.cons asks, takes, rest, fun id finding found => ?_⟩
  exact (custody.runs (through.cons asks) (within split)).cleared takes found

/-- A detected finding of an audit is gone once no detected finding of the audit was left. -/
lemma Custody.gone {before after : List Happening} {t₁ : Traffic} (custody : Custody hs t)
    (first : Runs t before t₁) (rest : Runs t₁ after t') (proper : ∀ h ∈ before ++ after, h.Saved ∧ h.Proper)
    (found : t.finding? id = some finding) (detected : IsDetected auditId finding)
    (none_left : ∀ id finding, t₁.finding? id = some finding → ¬ IsDetected auditId finding) :
    t'.finding? id = none := by
  have properFirst (h : Happening) (happened : h ∈ before) := proper h (List.mem_append_left _ happened)
  have properRest (h : Happening) (happened : h ∈ after) := proper h (List.mem_append_right _ happened)
  obtain rfl : finding.id = id := Store.id_of_finding? found
  have known := (custody.kept.known found).runs custody first properFirst
  have missing : t₁.finding? finding.id = none := by
    cases now : t₁.finding? finding.id with
    | none => rfl
    | some other => exact absurd (known.isDetected detected now) (none_left _ _ now)
  exact known.missing_runs missing (custody.runs first properFirst) rest properRest

/-- A request for a scan leaves all but the detected findings of its audit. -/
lemma Custody.spares {e : Exchange} (custody : Custody hs t) (isFor : IsFor t k auditId)
    (step : Step t (.served k e) t') (saved : e.Saved) (found : t.finding? id = some finding)
    (undetected : ¬ IsDetected auditId finding) : t'.finding? id = some finding := by
  refine custody.leaves step saved trivial found not_false (fun _ _ => not_false) fun s e serving happened => ?_
  obtain ⟨same, -⟩ := Happening.served.inj happened
  rw [isFor.serving s serving same.symm]
  exact undetected

/-- Entered findings survive. However requests, scans and restarts follow one another, a finding that counts as
entered stays as it is until an errand changes or deletes it or deletes its audit. A request for a scan, while
it is served, leaves all but the detected findings of its audit. When it is told to be accepted, none of these
was left when the executor took the scan, and those that there were when it was asked for are gone. -/
theorem entered_findings_survive (reachable : Reachable t) :
    (∀ id finding, t.finding? id = some finding → finding.autoDetected.isTruthy = false →
      ∀ ms t', Lives t ms t' →
        (∀ m ∈ ms, m.Saved ∧ m.Proper ∧ ¬ m.Names id ∧
          ∀ auditId, finding.isOf auditId = true → ¬ m.Discards auditId) →
        t'.finding? id = some finding) ∧
    ∀ auditId hs t', Runs t (.asked t.asked auditId :: hs) t' → (∀ h ∈ hs, h.Saved ∧ h.Proper) →
      (∀ before e after t₁ t₂, hs = before ++ .served t.asked e :: after →
        Runs t (.asked t.asked auditId :: before) t₁ → Step t₁ (.served t.asked e) t₂ →
        ∀ id finding, t₁.finding? id = some finding → ¬ IsDetected auditId finding →
          t₂.finding? id = some finding) ∧
      (.answered t.asked (.ok Scan.started) ∈ hs →
        (∃ before number after t₁ t₂, hs = before ++ .served t.asked ⟨.submit auditId, some number⟩ :: after ∧
          Runs t (.asked t.asked auditId :: before) t₁ ∧
          Step t₁ (.served t.asked ⟨.submit auditId, some number⟩) t₂ ∧ Runs t₂ after t' ∧
          ∀ id finding, t₂.finding? id = some finding → ¬ IsDetected auditId finding) ∧
        ∀ id finding, t.finding? id = some finding → IsDetected auditId finding →
          t'.finding? id = none) := by
  obtain ⟨past, custody⟩ := reachable.custody
  refine ⟨fun id finding found entered ms t' lives proper =>
    custody.survives lives proper found entered, fun auditId hs t' runs proper => ⟨?_, fun accepted => ?_⟩⟩
  · rintro before e after t₁ t₂ rfl first step id finding found undetected
    have isFor := isFor_of_asked first
    have current := custody.runs first fun h happened => ?_
    · have saved := (proper _ (List.mem_append_right before List.mem_cons_self)).1
      exact current.spares isFor step saved found undetected
    · obtain rfl | member := List.mem_cons.mp happened
      · exact ⟨trivial, trivial⟩
      · exact proper h (List.mem_append_left _ member)
  · have cleared := custody.accepted runs proper accepted
    refine ⟨cleared, fun id finding found detected => ?_⟩
    obtain ⟨before, number, after, t₁, t₂, rfl, first, takes, rest, none_left⟩ := cleared
    refine custody.gone (first.more takes) rest (fun h happened => ?_) found detected none_left
    obtain rfl | member : h = .asked t.asked auditId ∨
        h ∈ before ++ .served t.asked ⟨.submit auditId, some number⟩ :: after := by simpa using happened
    · exact ⟨trivial, trivial⟩
    · exact proper h member

end Survival

/-- The sample has its findings in memory, each under an id that was drawn. -/
lemma sample_kept : Kept sample := by
  refine ⟨?_, fun n fresh => ?_, ⟨?_, ?_⟩, ?_⟩
  · simp [Store.Keyed, sample]
  · have long : 3 < n := fresh
    have length : (String.ofList (List.replicate n 'i')).length = n := by simp
    have other (text : String) (short : text.length ≤ 3) : text ≠ String.ofList (List.replicate n 'i') := by
      rintro rfl
      omega
    simpa [sample, Traffic.finding?, Store.finding?] using ⟨other "ii" (by decide), other "iii" (by decide)⟩
  · intro audit stored field
    obtain rfl := List.mem_singleton.mp stored
    cases field <;> rfl
  · intro finding stored
    simp only [sample, List.mem_cons, List.not_mem_nil, or_false] at stored
    obtain rfl | rfl := stored <;> exact ⟨rfl, fun field => by cases field <;> rfl⟩
  · intro path located
    cases located

lemma sample_reachable : Reachable sample := ⟨sample, [], ⟨sample_idle, sample_kept⟩, .none, by simp⟩

lemma turns_proper (n : Nat) (t : Traffic) (id auditId : String) :
    ∀ h ∈ (t.turns n).1, h.Proper ∧ ¬ h.Names id ∧ ¬ h.Discards auditId := by
  induction n generalizing t with
  | zero => simp [turns]
  | succ n ih =>
    unfold turns
    split
    · next h t' due =>
      intro other happened
      obtain rfl | later := List.mem_cons.mp happened
      · unfold turn at due
        split at due <;> cases due <;> exact ⟨trivial, not_false, not_false⟩
      · exact ih t' other later
    · simp

/-- The detected finding of the sample goes with a scan of its audit, and the entered one stays. -/
theorem entered_findings_survive_rescan :
    (sampleAsked.turns 20).2.finding? "iii" = sample.finding? "iii" ∧
      (sampleAsked.turns 20).2.finding? "ii" = none := by
  have saved : ∀ h ∈ Happening.asked 0 "i" :: (sampleAsked.turns 20).1, h.Saved := by decide
  have proper := turns_proper 20 sampleAsked "iii"
  obtain ⟨survives, serves⟩ := entered_findings_survive sample_reachable
  constructor
  · refine survives "iii" _ rfl rfl _ _ (Lives.none.runs (sample_runs 20)) fun m member => ?_
    rw [List.nil_append] at member
    obtain ⟨h, happened, rfl⟩ := List.mem_map.mp member
    refine ⟨saved h happened, ?_⟩
    obtain rfl | later := List.mem_cons.mp happened
    · exact ⟨trivial, not_false, fun _ _ => not_false⟩
    · exact ⟨(proper "i" h later).1, (proper "i" h later).2.1, fun auditId _ => (proper auditId h later).2.2⟩
  · have accepted : .answered 0 (.ok Scan.started) ∈ (sampleAsked.turns 20).1 :=
      List.mem_of_getElem? (i := 7) rfl
    have properSaved (h : Happening) (happened : h ∈ (sampleAsked.turns 20).1) : h.Saved ∧ h.Proper :=
      ⟨saved h (List.mem_cons_of_mem _ happened), (proper "i" h happened).1⟩
    exact ((serves "i" _ _ (sample_runs 20) properSaved).2 accepted).2 "ii" _ rfl ⟨rfl, rfl⟩

end RepoAudit.Traffic
