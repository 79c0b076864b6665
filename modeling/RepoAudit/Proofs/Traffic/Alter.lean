import RepoAudit.Proofs.Service.Form
import RepoAudit.Proofs.Store.File
import RepoAudit.Proofs.Traffic.Interval

/-!
# What a step does to the store

`Alters` lists all that a step can do to the records of the store. Errands are those that the service makes of
bodies that fit their forms (`Errand.Proper`). A finding that counts as detected comes only from a scan inside
the interval of its request, and besides errands that name it only the request that is served drops one.
-/

namespace RepoAudit

/-- An errand that the service does: what it enters or changes of findings comes from a body that fits its
form. -/
def Errand.Proper : Errand → Prop
  | createFinding _ draft =>
    ∃ raw body, Form.newFinding.check raw = .ok body ∧ draft = Service.enteredFinding body
  | updateFinding _ changes =>
    ∃ raw body, Form.findingChanges.check raw = .ok body ∧
      changes = (Service.findingFields body).filter fun change => !change.2.isNull
  | _ => True

/-- A step that is no errand, or one that the service does. -/
def Happening.Proper : Happening → Prop
  | did errand _ => errand.Proper
  | _ => True

/-- What a scan keeps of a finding is no array and no object. -/
lemma FindingRecord.isPlain_ofFinding (finding : Finding) (field : FindingField) :
    ((ofFinding finding).get field).isPlain 0 = true := by
  cases field <;> simp [ofFinding, get]

namespace Ledger

lemma files_listAudits : Files listAudits := by
  refine .bind .get fun ledger => ?_
  split
  · exact .pure _
  · exact .throw _

end Ledger

/-- Errands write the document of the store whenever they change it. -/
lemma Errand.files (errand : Errand) : Ledger.Files errand.action := by
  cases errand with
  | createAudit owner name address => exact Ledger.files_createAudit owner name address
  | deleteAudit id => exact Ledger.files_deleteAudit id
  | createFinding auditId draft => exact Ledger.files_createFinding auditId draft
  | updateFinding id changes => exact Ledger.files_updateFinding id changes
  | deleteFinding id => exact Ledger.files_deleteFinding id
  | listAudits => exact Ledger.files_listAudits
  | getAudit | getFinding | listFindings => exact .bind .get fun _ => .pure _

/-- Calls write the document of the store whenever they change it. -/
lemma World.files {world : World} {c : Call} (saved : Exchange.Saved ⟨c, (world.perform c).1⟩) :
    ((world.perform c).2.ledger.store = world.ledger.store ∧
      (world.perform c).2.ledger.disk = world.ledger.disk) ∨ (world.perform c).2.ledger.Written := by
  cases c with
  | updateAudit id changes => exact Ledger.files_updateAudit id changes world.ledger saved
  | createFinding auditId draft => exact Ledger.files_createFinding auditId draft world.ledger saved
  | deleteFinding id => exact Ledger.files_deleteFinding id world.ledger saved
  | _ => exact .inl ⟨rfl, rfl⟩

namespace Traffic

/-- The finding of an id. -/
def finding? (t : Traffic) (id : String) : Option FindingRecord := t.world.ledger.store.finding? id

/-- A scan of the audit is inside the interval of its request. -/
def Occupied (hs : List Happening) (auditId : String) : Prop :=
  ∃ k n, Admitted hs auditId k n ∧ Open hs auditId k

/-- All that a step can do to the store, with the number of ids that are drawn after it. -/
inductive Alters (hs : List Happening) (t : Traffic) (h : Happening) : Store → Nat → Prop
  | keeps {drawn : Nat} : t.world.ledger.drawn ≤ drawn → Alters hs t h t.world.ledger.store drawn
  | writes {audit : AuditRecord} {drawn : Nat} : t.world.ledger.drawn ≤ drawn →
    (t.world.ledger.store.Plain → ∀ field, (audit.get field).isPlain 3 = true) →
    Alters hs t h (t.world.ledger.store.putAudit audit) drawn
  | discards {id : String} : h = .did (.deleteAudit id) (.ok true) →
    Alters hs t h (t.world.ledger.store.dropAudit id) t.world.ledger.drawn
  | adds {auditId : String} {audit : AuditRecord} {draft : FindingRecord} :
    t.audit? auditId = some audit → (∀ field, (draft.get field).isPlain 0 = true) →
    (draft.autoDetected.isTruthy = true → Occupied hs auditId) →
    Alters hs t h (t.world.ledger.store.putFinding
      (Ledger.filed draft (t.world.ledger.ids (t.world.ledger.drawn + 1)) auditId))
      (t.world.ledger.drawn + 1)
  | changes {id : String} {changes : List (FindingField × Json)} {finding : FindingRecord}
      {reply : Except StoreError (Option FindingRecord)} : h = .did (.updateFinding id changes) reply →
    t.finding? id = some finding →
    (∀ change ∈ changes, change.1 ≠ .autoDetected ∧ change.2.isPlain 0 = true) →
    Alters hs t h (t.world.ledger.store.putFinding (finding.change changes)) t.world.ledger.drawn
  | drops {id : String} {reply : Except StoreError Bool} : h = .did (.deleteFinding id) reply →
    Alters hs t h (t.world.ledger.store.dropFinding id) t.world.ledger.drawn
  | clears {k : Nat} {finding : FindingRecord} {left : List FindingRecord} {s : Serving} :
    h = .served k ⟨.deleteFinding finding.id, .ok true⟩ → t.serving = some s → s.serial = k →
    reached k hs = .clearing (finding :: left) →
    Alters hs t h (t.world.ledger.store.dropFinding finding.id) t.world.ledger.drawn

section Steps

variable {hs : List Happening} {h : Happening} {t t' : Traffic}

/-- The deletion of an audit that is there and not running is told to be done. -/
lemma deleteAudit_saved {ledger : Ledger} {id : String} {audit : AuditRecord}
    (found : ledger.store.audit? id = some audit) (idle : audit.isRunning = false)
    (saved : Saved (Ledger.Action.on (Ledger.deleteAudit id) ledger).1) :
    (Ledger.Action.on (Ledger.deleteAudit id) ledger).1 = .ok true := by
  obtain ⟨missing, -⟩ | ⟨other, present, running, -⟩ | ⟨_, reply, disk, -, -, tried, effect⟩ :=
    Ledger.deleteAudit_on id ledger
  · rw [found] at missing
    cases missing
  · rw [found, Option.some.injEq] at present
    rw [← present, idle] at running
    cases running
  · rw [effect] at saved ⊢
    exact tried.eq_ok saved

/-- An errand that the service does enters no finding as detected, and changes none to be so. -/
lemma alters_of_does {errand : Errand} {reply : Except StoreError errand.Reply} {ledger : Ledger}
    (does : errand.Does t.world.ledger ledger) (proper : errand.Proper) (saved : Saved reply)
    (is : reply = (Ledger.Action.on errand.action t.world.ledger).1) :
    Alters hs t (.did errand reply) ledger.store ledger.drawn := by
  cases does with
  | nothing => exact .keeps (Nat.le_refl _)
  | misses => exact .keeps (Nat.le_succ _)
  | makes owner name address disk =>
    refine .writes (Nat.le_succ _) fun _ field => ?_
    cases field <;> rfl
  | discards disk found idle =>
    refine .discards ?_
    rw [is] at saved ⊢
    rw [← deleteAudit_saved found idle saved]
    rfl
  | files draft disk found =>
    obtain ⟨raw, body, fits, rfl⟩ := proper
    obtain ⟨undetected, -, plain⟩ := Service.enteredFinding_of_check fits
    refine .adds found plain fun detected => ?_
    rw [undetected] at detected
    cases detected
  | changes changes disk found =>
    obtain ⟨raw, body, fits, rfl⟩ := proper
    refine .changes rfl found fun change member => ?_
    exact Service.findingChanges_of_check fits change (List.mem_of_mem_filter member)
  | drops disk found => exact .drops rfl

variable {k n : Nat} {auditId : String} {c : Call}

/-- A scan that calls writes plain values into its audit, and adds detected findings inside the interval of its
request. -/
lemma Sound.scan_alters {next : c.Reply → Program (Except StoreError (Option AuditRecord))}
    (sound : Sound hs t) (live : ⟨n, auditId, .call c next⟩ ∈ t.live)
    (saved : Exchange.Saved ⟨c, (t.world.perform c).1⟩) :
    Alters hs t (.scanned n ⟨c, (t.world.perform c).1⟩) (t.world.perform c).2.ledger.store
      (t.world.perform c).2.ledger.drawn := by
  have stays := (sound.tidy.live _ live).2.1
  -- The audit is there, so the scan has not lost it, and what it may call is what its tenure allows.
  have allowed {audit : AuditRecord} (writes : c.WritesTo auditId) (found : t.audit? auditId = some audit) :
      Occupied hs auditId ∧ ∃ p, Scan.tenureAllows auditId p c := by
    obtain ⟨k, admitted, isOpen⟩ := sound.holder live writes (not_lost found)
    obtain ⟨base, begun⟩ := isOpen.1
    have course := (sound.regular auditId).course k n base begun admitted
    exact ⟨⟨k, n, admitted, isOpen⟩, _, (course.program sound.tidy live).1⟩
  cases c with
  | updateAudit id changes =>
    obtain rfl : id = auditId := stays
    obtain ⟨-, does⟩ | ⟨audit, disk, found, does⟩ := World.perform_updateAudit saved
    · rw [does]
      exact .keeps (Nat.le_refl _)
    · obtain ⟨-, p, -, -, -, -, plain⟩ := allowed rfl found
      rw [does]
      refine .writes (Nat.le_refl _) fun holds => ?_
      exact AuditRecord.isPlain_change (holds.audits audit (Store.mem_of_audit? found)) plain
  | createFinding id draft =>
    obtain rfl : id = auditId := stays
    obtain ⟨-, does⟩ | ⟨audit, disk, found, does⟩ := World.perform_createFinding saved
    · rw [does]
      exact .keeps (Nat.le_succ _)
    · obtain ⟨occupied, p, -, -, finding, rfl⟩ := allowed rfl found
      rw [does]
      exact .adds found (FindingRecord.isPlain_ofFinding finding) fun _ => occupied
  | deleteFinding id => exact stays.elim
  | _ => exact .keeps (Nat.le_refl _)

/-- The request that is served writes plain values into its audit, and drops the findings that are left to
drop. -/
lemma Sound.serve_alters {next : c.Reply → Program (Except StoreError Scan.Acceptance)} (sound : Sound hs t)
    (serving : t.serving = some ⟨k, auditId, .call c next⟩)
    (saved : Exchange.Saved ⟨c, (t.world.perform c).1⟩) :
    Alters hs t (.served k ⟨c, (t.world.perform c).1⟩) (t.world.perform c).2.ledger.store
      (t.world.perform c).2.ledger.drawn := by
  obtain ⟨phase, served⟩ := sound.served _ serving
  have allowed : Scan.openingAllows auditId phase c := served.keeps.1
  have reads (reads : c.writes = false) : Alters hs t (.served k ⟨c, (t.world.perform c).1⟩)
      (t.world.perform c).2.ledger.store (t.world.perform c).2.ledger.drawn := by
    rw [World.perform_ledger reads]
    exact .keeps (Nat.le_refl _)
  have updates {changes : List (AuditField × Json)} (is : c = .updateAudit auditId changes)
      (plain : ∀ change ∈ changes, change.2.isPlain 3 = true) :
      Alters hs t (.served k ⟨c, (t.world.perform c).1⟩) (t.world.perform c).2.ledger.store
        (t.world.perform c).2.ledger.drawn := by
    subst is
    obtain ⟨-, does⟩ | ⟨audit, disk, found, does⟩ := World.perform_updateAudit saved
    · rw [does]
      exact .keeps (Nat.le_refl _)
    · rw [does]
      refine .writes (Nat.le_refl _) fun holds => ?_
      exact AuditRecord.isPlain_change (holds.audits audit (Store.mem_of_audit? found)) plain
  cases phase with
  | fresh | seen | begun =>
    cases allowed
    exact reads rfl
  | clearing left =>
    cases left with
    | nil =>
      cases allowed
      exact updates rfl (by simp [Scan.beginning])
    | cons finding rest =>
      cases allowed
      obtain ⟨-, does⟩ | ⟨_, disk, -, does⟩ := World.perform_deleteFinding saved
      · rw [does]
        exact .keeps (Nat.le_refl _)
      · rw [does]
        exact .clears rfl serving rfl served.reached
  | refused found =>
    obtain rfl | ⟨now, rfl⟩ := allowed
    · exact reads rfl
    · exact updates rfl (by simp [Scan.refusal])
  | granted found number =>
    obtain rfl | rfl := allowed <;> exact reads rfl
  | closed => exact allowed.elim

/-- A step alters the store in one of these ways. -/
lemma Sound.alters (sound : Sound hs t) (step : Step t h t') (saved : h.Saved) (proper : h.Proper) :
    Alters hs t h t'.world.ledger.store t'.world.ledger.drawn := by
  cases step with
  | served serving => exact sound.serve_alters serving saved
  | scanned live => exact sound.scan_alters (live ▸ List.mem_append_right _ List.mem_cons_self) saved
  | did errand => exact alters_of_does (errand.does _) proper saved rfl
  | asked | answered | ended | reported | shifted => exact .keeps (Nat.le_refl _)

/-- A step leaves the store and its file, or it writes the document of the store. -/
lemma Step.files (step : Step t h t') (saved : h.Saved) :
    (t'.world.ledger.store = t.world.ledger.store ∧ t'.world.ledger.disk = t.world.ledger.disk) ∨
      t'.world.ledger.Written := by
  cases step with
  | served | scanned => exact World.files saved
  | did errand => exact errand.files _ saved
  | asked | answered | ended | reported | shifted => exact .inl ⟨rfl, rfl⟩

end Steps

end Traffic

end RepoAudit
