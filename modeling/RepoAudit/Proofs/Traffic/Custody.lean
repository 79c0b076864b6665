import RepoAudit.Proofs.Traffic.Alter

/-!
# Custody of findings

What happens to the finding of an id in one step (`Fate`), and the invariant that follows from it: findings
stand under ids that were drawn, one for each id, and the file of the store has them (`Kept`); and the request
that is served knows which detected findings of its audit are left to drop (`Clears`).
-/

namespace RepoAudit

/-- True of an errand that changes or deletes the finding of the id. -/
def Happening.Names (id : String) : Happening → Prop
  | did (.updateFinding other _) _ => other = id
  | did (.deleteFinding other) _ => other = id
  | _ => False

/-- True of an errand that deletes the audit. -/
def Happening.Discards (auditId : String) : Happening → Prop
  | did (.deleteAudit other) reply => other = auditId ∧ reply = .ok true
  | _ => False

namespace Traffic

/-- What a step does to the finding of an id. -/
inductive Fate (hs : List Happening) (t : Traffic) (h : Happening) (id : String) :
    Option FindingRecord → Prop
  | rests : Fate hs t h id (t.finding? id)
  | discarded {finding : FindingRecord} {auditId : String} : t.finding? id = some finding →
    finding.isOf auditId = true → h.Discards auditId → Fate hs t h id none
  | changed {finding : FindingRecord} {changes : List (FindingField × Json)} : t.finding? id = some finding →
    h.Names id → (∀ change ∈ changes, change.1 ≠ .autoDetected) →
    Fate hs t h id (some (finding.change changes))
  | deleted : h.Names id → Fate hs t h id none
  | cleared {s : Serving} {finding : FindingRecord} {left : List FindingRecord} : t.serving = some s →
    h = .served s.serial ⟨.deleteFinding id, .ok true⟩ →
    reached s.serial hs = .clearing (finding :: left) → finding.id = id → Fate hs t h id none
  | added {draft : FindingRecord} {auditId : String} : t.finding? id = none →
    id = t.world.ledger.ids (t.world.ledger.drawn + 1) →
    (draft.autoDetected.isTruthy = true → Occupied hs auditId) →
    Fate hs t h id (some (Ledger.filed draft id auditId))

/-- How findings are kept: one for each id, under ids that were drawn, plain, and as the file has them. -/
structure Kept (t : Traffic) : Prop where
  keyed : t.world.ledger.store.Keyed
  unused : ∀ n, t.world.ledger.drawn < n → t.finding? (t.world.ledger.ids n) = none
  plain : t.world.ledger.store.Plain
  mirrored : t.world.ledger.Mirrored

/-- Whatever is found under the id of the finding is of its audit and as detected as it is. -/
structure Known (t : Traffic) (finding : FindingRecord) : Prop where
  used : ∀ n, t.world.ledger.drawn < n → t.world.ledger.ids n ≠ finding.id
  same : ∀ now, t.finding? finding.id = some now →
    now.auditId = finding.auditId ∧ now.autoDetected = finding.autoDetected

/-- True of a finding of the audit that counts as detected. -/
def IsDetected (auditId : String) (finding : FindingRecord) : Prop :=
  finding.isOf auditId = true ∧ finding.autoDetected.isTruthy = true

/-- What a request for a scan has done about the detected findings of its audit. -/
def Clears (t : Traffic) (auditId : String) : Opening → Prop
  | .clearing left =>
    (∀ id finding, t.finding? id = some finding → IsDetected auditId finding → ∃ f ∈ left, f.id = id) ∧
      ∀ finding ∈ left, IsDetected auditId finding ∧ Known t finding
  | .begun _ => ∀ id finding, t.finding? id = some finding → ¬ IsDetected auditId finding
  | .refused _ => ∀ id finding, t.finding? id = some finding → ¬ IsDetected auditId finding
  | _ => True

section Steps

variable {hs : List Happening} {h : Happening} {t t' : Traffic} {store : Store} {drawn : Nat}

namespace Alters

/-- A step that alters the store leaves or changes the finding of an id, or adds or drops it. -/
lemma fate (alters : Alters hs t h store drawn) (kept : Kept t) (id : String) :
    Fate hs t h id (store.finding? id) := by
  cases alters with
  | keeps => exact .rests
  | writes =>
    rw [Store.finding?_putAudit]
    exact .rests
  | @discards auditId happened =>
    have fewer : (t.world.ledger.store.dropAudit auditId).findings.Sublist t.world.ledger.store.findings :=
      List.filter_sublist
    cases now : (t.world.ledger.store.dropAudit auditId).finding? id with
    | some finding =>
      rw [← Store.found_of_sublist kept.keyed fewer now]
      exact .rests
    | none =>
      cases found : t.finding? id with
      | none =>
        rw [← found]
        exact .rests
      | some finding =>
        exact .discarded found (Store.isOf_of_dropAudit found now) (happened ▸ ⟨rfl, rfl⟩)
  | adds found plain detected =>
    rw [Store.finding?_putFinding]
    split
    · next same =>
      have same : id = t.world.ledger.ids (t.world.ledger.drawn + 1) := same
      subst same
      -- The id was drawn for the finding, so no finding had it before.
      exact .added (kept.unused _ (Nat.lt_succ_self _)) rfl detected
    · exact .rests
  | @changes other changes finding reply happened found proper =>
    have under : finding.id = other := Store.id_of_finding? found
    rw [Store.finding?_putFinding, FindingRecord.change_id]
    split
    · next same =>
      obtain rfl : id = other := same.trans under
      exact .changed found (happened ▸ rfl) fun change member => (proper change member).1
    · exact .rests
  | @drops other reply happened =>
    rw [Store.finding?_dropFinding]
    split
    · next same => exact .deleted (happened ▸ same.symm)
    · exact .rests
  | @clears k finding left s happened serving serial reached =>
    rw [Store.finding?_dropFinding]
    split
    · next same =>
      subst same serial
      exact .cleared serving happened reached rfl
    · exact .rests

lemma drawn_le (alters : Alters hs t h store drawn) : t.world.ledger.drawn ≤ drawn := by
  cases alters with
  | keeps le => exact le
  | writes le => exact le
  | adds => exact Nat.le_succ _
  | discards | changes | drops | clears => exact Nat.le_refl _

lemma keyed (alters : Alters hs t h store drawn) (kept : t.world.ledger.store.Keyed) : store.Keyed := by
  cases alters with
  | keeps => exact kept
  | writes =>
    rw [Store.Keyed, Store.findings_putAudit]
    exact kept
  | adds | changes => exact kept.putFinding _
  | discards | drops | clears => exact kept.sublist List.filter_sublist

lemma unused (alters : Alters hs t h store drawn) (kept : Kept t)
    (injective : Function.Injective t.world.ledger.ids) {n : Nat} (fresh : drawn < n) :
    store.finding? (t.world.ledger.ids n) = none := by
  have before := kept.unused n (Nat.lt_of_le_of_lt alters.drawn_le fresh)
  cases alters with
  | keeps => exact before
  | writes =>
    rw [Store.finding?_putAudit]
    exact before
  | adds =>
    rw [Store.finding?_putFinding, if_neg]
    · exact before
    · exact fun same => Nat.ne_of_gt fresh (injective same)
  | changes happened found =>
    rw [Store.finding?_putFinding, if_neg]
    · exact before
    · intro same
      rw [same, FindingRecord.change_id, Store.id_of_finding? found, found] at before
      cases before
  | discards | drops | clears => exact Store.missing_of_sublist List.filter_sublist before

lemma plain (alters : Alters hs t h store drawn) (kept : t.world.ledger.store.Plain) : store.Plain := by
  cases alters with
  | keeps => exact kept
  | writes _ plain =>
    refine ⟨fun audit stored => ?_, fun finding stored => ?_⟩
    · obtain rfl | old := Store.mem_audits_putAudit stored
      · exact plain kept
      · exact kept.audits audit old
    · rw [Store.findings_putAudit] at stored
      exact kept.findings finding stored
  | adds found plain =>
    refine ⟨fun audit stored => kept.audits audit (by simpa using stored), fun finding stored => ?_⟩
    obtain rfl | old := Store.mem_findings_putFinding stored
    · exact ⟨rfl, fun field => by simpa using plain field⟩
    · exact kept.findings finding old
  | @changes id changes record reply happened found proper =>
    refine ⟨fun audit stored => kept.audits audit (by simpa using stored), fun finding stored => ?_⟩
    obtain rfl | old := Store.mem_findings_putFinding stored
    · obtain ⟨auditId, fields⟩ := kept.findings record (Store.mem_of_finding? found)
      refine ⟨by simpa using auditId, fun field => ?_⟩
      obtain same | ⟨value, named, is⟩ := FindingRecord.get_change record changes field
      · exact same ▸ fields field
      · exact is ▸ (proper _ named).2
    · exact kept.findings finding old
  | discards =>
    exact ⟨fun audit stored => kept.audits audit (List.mem_of_mem_filter stored),
      fun finding stored => kept.findings finding (List.mem_of_mem_filter stored)⟩
  | drops | clears =>
    exact ⟨kept.audits, fun finding stored => kept.findings finding (List.mem_of_mem_filter stored)⟩

end Alters

/-- A step changes neither the audit of a finding nor whether it counts as detected. -/
lemma Known.step {finding : FindingRecord} (known : Known t finding)
    (fate : Fate hs t h finding.id (t'.finding? finding.id)) (later : Later t t') :
    Known t' finding := by
  refine ⟨fun n fresh => ?_, fun now found => ?_⟩
  · rw [later.ids]
    exact known.used n (Nat.lt_of_le_of_lt later.drawn fresh)
  · generalize t'.finding? finding.id = result at fate found
    cases fate with
    | rests => exact known.same now found
    | changed before named others =>
      obtain rfl := Option.some.inj found
      obtain ⟨auditId, detected⟩ := known.same _ before
      rw [← detected]
      exact ⟨(FindingRecord.change_auditId _ _).trans auditId, FindingRecord.get_change_of_notMem others _⟩
    | added missing fresh => exact absurd fresh.symm (known.used _ (Nat.lt_succ_self _))
    | discarded | deleted | cleared => cases found

/-- A finding that is found is known. -/
lemma Kept.known (kept : Kept t) {id : String} {finding : FindingRecord}
    (found : t.finding? id = some finding) : Known t finding := by
  obtain rfl : finding.id = id := Store.id_of_finding? found
  refine ⟨fun n fresh same => ?_, fun now present => ?_⟩
  · rw [← same, kept.unused n fresh] at found
    cases found
  · rw [found, Option.some.injEq] at present
    rw [present]
    exact ⟨rfl, rfl⟩

/-- A finding that is known and detected, and found again, counts as detected. -/
lemma Known.isDetected {finding now : FindingRecord} {auditId : String} (known : Known t finding)
    (detected : IsDetected auditId finding) (found : t.finding? finding.id = some now) :
    IsDetected auditId now := by
  obtain ⟨sameAudit, same⟩ := known.same now found
  rw [IsDetected, FindingRecord.isOf, sameAudit, same]
  exact detected

/-- A finding that is known and missing does not come back. -/
lemma Known.missing {finding : FindingRecord} (known : Known t finding)
    (missing : t.finding? finding.id = none)
    (fate : Fate hs t h finding.id (t'.finding? finding.id)) : t'.finding? finding.id = none := by
  generalize t'.finding? finding.id = result at fate
  cases fate with
  | rests => exact missing
  | changed before => exact absurd (missing.symm.trans before) (by simp)
  | added _ fresh => exact absurd fresh.symm (known.used _ (Nat.lt_succ_self _))
  | discarded | deleted | cleared => rfl

/-- A step keeps findings as they are to be kept. -/
lemma Kept.step (kept : Kept t) (injective : Function.Injective t.world.ledger.ids)
    (alters : Alters hs t h t'.world.ledger.store t'.world.ledger.drawn) (later : Later t t')
    (files : (t'.world.ledger.store = t.world.ledger.store ∧ t'.world.ledger.disk = t.world.ledger.disk) ∨
      t'.world.ledger.Written) : Kept t' := by
  have keyed := alters.keyed kept.keyed
  have plain := alters.plain kept.plain
  refine ⟨keyed, fun n fresh => ?_, plain, ?_⟩
  · rw [later.ids]
    exact alters.unused kept injective fresh
  · obtain ⟨store, disk⟩ | written := files
    · rw [Ledger.Mirrored, store, disk]
      exact kept.mirrored
    · exact written.mirrored plain keyed

/-- While a request has not asked the executor yet, no scan is inside an interval of its audit. -/
lemma Sound.unoccupied {s : Serving} {phase : Opening} (sound : Sound hs t)
    (served : Served hs t s phase) (waits : pending phase = true) (other : phase ≠ .fresh) :
    ¬ Occupied hs s.auditId := by
  rintro ⟨k, n, admitted, isOpen⟩
  obtain ⟨audit, found, -⟩ := (sound.regular s.auditId).status.mpr ⟨k, isOpen⟩
  have unmarked (unmarked : Unmarked t s.auditId) : False := by
    obtain ⟨old, found', idle⟩ | lost := unmarked
    · exact (sound.regular s.auditId).closed found' idle isOpen
    · exact not_lost found lost
  -- Where the request has set the mark, the interval is its own, and no scan was taken for it.
  have marked (record : Option AuditRecord) (marked : Marked hs t s.auditId s.serial record) : False := by
    cases record with
    | none =>
      rw [marked.2.1] at found
      cases found
    | some base =>
      have own : Open hs s.auditId s.serial := ⟨⟨base, (marked.1 _ _).mpr ⟨rfl, rfl⟩⟩, served.kept waits,
        fun m admitted => absurd admitted (served.untaken waits _ m)⟩
      obtain rfl := (sound.regular s.auditId).unique isOpen own
      exact served.untaken waits _ n admitted
  have fits := served.fits
  cases phase with
  | fresh => exact other rfl
  | seen => exact unmarked fits.2
  | clearing left => exact unmarked fits.2
  | begun record => exact marked record fits
  | refused record => exact marked record fits
  | granted | closed => cases waits

end Steps

/-- The invariant of a service that keeps findings. -/
structure Custody (hs : List Happening) (t : Traffic) : Prop where
  sound : Sound hs t
  kept : Kept t
  clears : ∀ s, t.serving = some s → Clears t s.auditId (reached s.serial hs)

section Custody

variable {hs : List Happening} {h : Happening} {t t' : Traffic}

/-- What happens to findings in a step. -/
lemma Custody.fate (custody : Custody hs t) (step : Step t h t') (saved : h.Saved) (proper : h.Proper)
    (id : String) : Fate hs t h id (t'.finding? id) :=
  (custody.sound.alters step saved proper).fate custody.kept id

/-- A step that is no call of the request leaves what the request has done about detected findings. -/
lemma Clears.rests {auditId : String} {phase : Opening} (clears : Clears t auditId phase)
    (fate : ∀ id, Fate hs t h id (t'.finding? id)) (later : Later t t')
    (unoccupied : pending phase = true → phase ≠ .fresh → ¬ Occupied hs auditId) :
    Clears t' auditId phase := by
  -- A detected finding of the audit was there before the step: only a scan adds such a finding, and none is inside an
  -- interval of the audit.
  have before {id : String} {finding : FindingRecord} (occupied : ¬ Occupied hs auditId)
      (found : t'.finding? id = some finding) (detected : IsDetected auditId finding) :
      ∃ old, t.finding? id = some old ∧ IsDetected auditId old := by
    have fate := fate id
    generalize t'.finding? id = result at fate found
    cases fate with
    | rests => exact ⟨finding, found, detected⟩
    | @changed old changes present named others =>
      obtain rfl := Option.some.inj found
      refine ⟨old, present, ?_⟩
      have same : (old.change changes).autoDetected = old.autoDetected :=
        FindingRecord.get_change_of_notMem others old
      rw [IsDetected, FindingRecord.isOf_change, same] at detected
      exact detected
    | @added draft other missing fresh occupies =>
      obtain rfl := Option.some.inj found
      have same : other = auditId := by simpa [FindingRecord.isOf, Ledger.filed, Json.isText] using detected.1
      exact absurd (same ▸ occupies detected.2) occupied
    | discarded | deleted | cleared => cases found
  cases phase with
  | clearing left =>
    have occupied := unoccupied rfl (by simp)
    refine ⟨fun id finding found detected => ?_, fun finding member => ?_⟩
    · obtain ⟨old, present, detected'⟩ := before occupied found detected
      exact clears.1 id old present detected'
    · obtain ⟨detected, known⟩ := clears.2 finding member
      exact ⟨detected, known.step (fate finding.id) later⟩
  | begun | refused =>
    intro id finding found detected
    obtain ⟨old, present, detected'⟩ := before (unoccupied rfl (by simp)) found detected
    exact clears id old present detected'
  | fresh | seen | granted | closed => trivial

/-- The request asks for the findings of its audit, and the detected ones are left to drop. -/
lemma Kept.clears_listed (kept : Kept t) (auditId : String) :
    Clears t auditId (.clearing ((t.world.ledger.store.findingsOf auditId).filter (·.autoDetected.isTruthy))) := by
  refine ⟨fun id finding found detected => ?_, fun finding left => ?_⟩
  · refine ⟨finding, ?_, Store.id_of_finding? found⟩
    rw [List.mem_filter, Store.findingsOf, List.mem_filter]
    exact ⟨⟨Store.mem_of_finding? found, detected.1⟩, detected.2⟩
  · rw [List.mem_filter, Store.findingsOf, List.mem_filter] at left
    obtain ⟨⟨stored, ofAudit⟩, detected⟩ := left
    have found : t.finding? finding.id = some finding :=
      (find?_eq_some_iff_mem FindingRecord.id kept.keyed).mpr ⟨stored, rfl⟩
    exact ⟨⟨ofAudit, detected⟩, kept.known found⟩

/-- The request drops the first of the findings that are left. -/
lemma Clears.drops {auditId : String} {first : FindingRecord} {left : List FindingRecord}
    (clears : Clears t auditId (.clearing (first :: left))) (later : Later t t')
    (fate : ∀ id, Fate hs t h id (t'.finding? id))
    (found : ∀ id finding, t'.finding? id = some finding → id ≠ first.id ∧ t.finding? id = some finding) :
    Clears t' auditId (.clearing left) := by
  refine ⟨fun id finding present detected => ?_, fun finding member => ?_⟩
  · obtain ⟨other, before⟩ := found id finding present
    obtain ⟨old, member, same⟩ := clears.1 id finding before detected
    obtain rfl | rest := List.mem_cons.mp member
    · exact absurd same.symm other
    · exact ⟨old, rest, same⟩
  · obtain ⟨detected, known⟩ := clears.2 finding (List.mem_cons_of_mem _ member)
    exact ⟨detected, known.step (fate finding.id) later⟩

/-- A call of the request goes on with dropping the detected findings of its audit. -/
lemma Custody.serves {k : Nat} {auditId : String} {c : Call}
    {next : c.Reply → Program (Except StoreError Scan.Acceptance)} (custody : Custody hs t)
    (serving : t.serving = some ⟨k, auditId, .call c next⟩)
    (step : Step t (.served k ⟨c, (t.world.perform c).1⟩) t') (world : t'.world = (t.world.perform c).2)
    (saved : Exchange.Saved ⟨c, (t.world.perform c).1⟩) :
    Clears t' auditId ((reached k hs).next ⟨c, (t.world.perform c).1⟩) := by
  obtain ⟨phase, served⟩ := custody.sound.served _ serving
  have reached : reached k hs = phase := served.reached
  have clears : Clears t auditId phase := reached ▸ custody.clears _ serving
  have allowed : Scan.openingAllows auditId phase c := served.keeps.1
  rw [reached]
  have findings (id : String) : t'.finding? id = (t.world.perform c).2.ledger.store.finding? id := by
    rw [finding?, world]
  cases phase with
  | fresh =>
    cases allowed
    show Clears t' auditId (Opening.next .fresh ⟨.getAudit auditId, t.audit? auditId⟩)
    cases t.audit? auditId with
    | none => trivial
    | some audit =>
      show Clears t' auditId (if audit.isRunning then .closed else .seen)
      split <;> trivial
  | seen =>
    cases allowed
    have kept' : Kept t' := custody.kept.step custody.sound.tidy.injective
      (custody.sound.alters step saved trivial) (step.later saved) (step.files saved)
    have listed := kept'.clears_listed auditId
    rw [world] at listed
    exact listed
  | clearing left =>
    cases left with
    | nil =>
      cases allowed
      -- No finding is left to drop, so the audit has no detected one.
      have none_left (id : String) (finding : FindingRecord) (found : t.finding? id = some finding) :
          ¬ IsDetected auditId finding := by
        intro detected
        obtain ⟨old, member, -⟩ := clears.1 id finding found detected
        cases member
      obtain ⟨-, does⟩ | ⟨audit, disk, -, does⟩ := World.perform_updateAudit saved
      · rw [does]
        intro id finding found
        rw [findings, does] at found
        exact none_left id finding found
      · rw [does]
        intro id finding found
        rw [findings, does, Store.finding?_putAudit] at found
        exact none_left id finding found
    | cons first left =>
      cases allowed
      have fate := custody.fate step saved trivial
      obtain ⟨missing, does⟩ | ⟨_, disk, -, does⟩ := World.perform_deleteFinding saved
      · rw [does]
        refine clears.drops (step.later saved) fate fun id finding found => ?_
        rw [findings, does] at found
        refine ⟨fun same => ?_, found⟩
        rw [same, missing] at found
        cases found
      · rw [does]
        refine clears.drops (step.later saved) fate fun id finding found => ?_
        rw [findings, does, Store.finding?_dropFinding] at found
        split at found
        · cases found
        · next other => exact ⟨other, found⟩
  | begun record =>
    cases allowed
    show Clears t' auditId (Opening.next (.begun record) ⟨.submit auditId, (t.world.perform (.submit auditId)).1⟩)
    cases (t.world.perform (.submit auditId)).1 with
    | none => 
      intro id finding found
      exact clears id finding ((findings id).symm.trans found)
    | some number => trivial
  | refused record =>
    obtain rfl | ⟨now, rfl⟩ := allowed
    · intro id finding found
      exact clears id finding ((findings id).symm.trans found)
    · trivial
  | granted record number => trivial
  | closed => trivial

lemma Custody.step (custody : Custody hs t) (step : Step t h t') (saved : h.Saved) (proper : h.Proper) :
    Custody (hs ++ [h]) t' := by
  have later := step.later saved
  have alters := custody.sound.alters step saved proper
  have fate := custody.fate step saved proper
  refine ⟨custody.sound.step step saved,
    custody.kept.step custody.sound.tidy.injective alters later (step.files saved), ?_⟩
  have rests {s : Serving} (serving : t.serving = some s) (other : ∀ e, h ≠ .served s.serial e) :
      Clears t' s.auditId (reached s.serial (hs ++ [h])) := by
    obtain ⟨phase, served⟩ := custody.sound.served s serving
    rw [reached_concat_other other]
    refine (custody.clears s serving).rests fate later fun waits apart => ?_
    rw [served.reached] at waits apart
    exact custody.sound.unoccupied served waits apart
  intro s serving
  cases step with
  | asked auditId waits =>
    obtain rfl := Option.some.inj serving
    have unserved : reached t.asked hs = .fresh :=
      reached_of_unserved fun e happened => Nat.lt_irrefl _ (custody.sound.tidy.serials _ e happened)
    rw [reached_concat_other (by simp), unserved]
    trivial
  | served current =>
    obtain rfl := Option.some.inj serving
    rw [reached_concat_served]
    exact custody.serves current (.served current) rfl saved
  | answered => cases serving
  | scanned | ended | reported | did | shifted => exact rests serving (by simp)

end Custody

end Traffic

end RepoAudit
