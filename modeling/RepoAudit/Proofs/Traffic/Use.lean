import Mathlib.Logic.Relation
import RepoAudit.Proofs.Store.Restored
import RepoAudit.Proofs.Traffic.Life
import RepoAudit.Proofs.Traffic.Typing

/-!
# Stores in use

A store is used by requests, by scans that were asked for or not, and by whoever changes records of it by the names
of their fields; and it may be opened again from its file at any time. As long as values are of their kinds and no
write fails, each finding is of an audit that is there, and an audit that was deleted does not come back, nor does
a finding of it.
-/

namespace RepoAudit.Traffic

/-- What can happen to a store that is used, when values are of their kinds and no write fails. -/
inductive Use : Traffic → Traffic → Prop
  | step {t t' : Traffic} {h : Happening} : Step t h t' → h.Saved → h.Typed → t'.world.host.Typed → Use t t'
  | changesAudit {t : Traffic} (id : String) (changes : List (String × Json)) :
    (∀ change ∈ changes, ∀ field, AuditField.ofName? change.1 = some field → field.Admits change.2) →
    Saved (t.world.onLedger (Ledger.updateAuditByName id changes)).1 →
    Use t { t with world := (t.world.onLedger (Ledger.updateAuditByName id changes)).2 }
  | changesFinding {t : Traffic} (id : String) (changes : List (String × Json)) :
    (∀ change ∈ changes, change.2.isPlain 0 = true) →
    Saved (t.world.onLedger (Ledger.updateFindingByName id changes)).1 →
    Use t { t with world := (t.world.onLedger (Ledger.updateFindingByName id changes)).2 }
  /-- A scan goes on that nobody asked the executor for. -/
  | scans {t : Traffic} (number : Nat) (engine : Engine) (auditId : String) :
    Use t { t with live := t.live ++ [⟨number, auditId, Scan.run engine auditId⟩] }
  /-- The program ends, and the store is opened again from its file. -/
  | reopens {t : Traffic} {path : Path} {ledger : Ledger} (engine : Engine) (host : SourceHost) :
    t.world.ledger.store.path = some path →
    Ledger.Action.on (Ledger.openStore (some path)) t.world.ledger.ended = (.ok (), ledger) → host.Typed →
    Use t (t.reopened ledger engine host)

/-- What can happen to a store that is used for a while. -/
abbrev Uses : Traffic → Traffic → Prop := Relation.ReflTransGen Use

/-- An empty store that is not used yet. If it has a file, no records are read from it. -/
structure Vacant (t : Traffic) : Prop where
  injective : Function.Injective t.world.ledger.ids
  audits : t.world.ledger.store.audits = []
  findings : t.world.ledger.store.findings = []
  file : ∀ path, t.world.ledger.store.path = some path →
    Ledger.readStore t.world.ledger.disk path = .ok { path := some path }
  live : t.live = []
  serving : t.serving = none
  host : t.world.host.Typed

/-- A state that an empty store can come to. -/
def Used (t : Traffic) : Prop := ∃ t₀, Vacant t₀ ∧ Uses t₀ t

/-- The store and its file are as they are to be, and whatever goes on keeps typed values. -/
structure Consistent (t : Traffic) : Prop where
  ledger : t.world.ledger.Consistent
  live : ∀ scan ∈ t.live, scan.program.Typed
  serving : ∀ s, t.serving = some s → s.program.Typed
  host : t.world.host.Typed

section Steps

variable {t t' : Traffic} {h : Happening} {auditId : String}

lemma Vacant.consistent (vacant : Vacant t) : Consistent t := by
  have absent (id : String) : t.world.ledger.store.audit? id = none := by
    rw [Store.audit?, vacant.audits]
    rfl
  have intact : t.world.ledger.store.Intact := by
    refine ⟨?_, ?_, ?_, ?_, ?_⟩
    · simp [vacant.audits]
    · simp [Store.Keyed, vacant.findings]
    all_goals simp [vacant.audits, vacant.findings]
  refine ⟨⟨vacant.injective, fun n _ => absent _, intact, fun path located => ?_⟩, ?_, ?_, vacant.host⟩
  · refine ⟨_, vacant.file path located, ⟨located.symm, ?_, id, ?_, ?_⟩, fun present => absurd rfl present⟩
    · rw [vacant.findings]
    · rw [vacant.audits]
      rfl
    · simp [vacant.audits]
  · simp [vacant.live]
  · simp [vacant.serving]

lemma Step.leads (step : Step t h t') (consistent : Consistent t) (typed : h.Typed) :
    t.world.ledger.Leads t'.world.ledger := by
  cases step with
  | served serving => exact World.leads (consistent.serving _ serving).1 t.world
  | scanned live =>
    have typed := consistent.live _ (live ▸ List.mem_append_right _ List.mem_cons_self)
    exact World.leads typed.1 t.world
  | did errand => exact Errand.leads typed t.world.ledger
  | asked | answered | ended | reported | shifted => exact ⟨rfl, .keeps (Nat.le_refl _)⟩

/-- Whatever goes on keeps typed values after a step. -/
lemma Step.consistent (step : Step t h t') (consistent : Consistent t) (saved : h.Saved) (typed : h.Typed)
    (host : t'.world.host.Typed) : Consistent t' := by
  have ledger := consistent.ledger.leads (step.leads consistent typed) (step.files saved)
  obtain ⟨-, live, serving, told⟩ := consistent
  cases step with
  | asked auditId waits =>
    refine ⟨ledger, live, fun s current => ?_, host⟩
    obtain rfl := Option.some.inj current
    exact Scan.typed_start auditId
  | @served k owner c next current =>
    refine ⟨ledger, fun scan going => ?_, fun s current' => ?_, host⟩
    · obtain old | new := mem_liveAfter going
      · exact live scan old
      · exact new ▸ Scan.typed_run t.engine scan.auditId
    · obtain rfl := Option.some.inj current'
      exact ((serving _ current).call told).2
  | answered => exact ⟨ledger, live, fun s none => (nomatch none), host⟩
  | scanned going =>
    rw [going, List.forall_mem_append, List.forall_mem_cons] at live
    obtain ⟨first, this, last⟩ := live
    exact ⟨ledger, List.forall_mem_append.mpr ⟨first, List.forall_mem_cons.mpr ⟨(this.call told).2, last⟩⟩,
      serving, host⟩
  | ended going =>
    rw [going, List.forall_mem_append, List.forall_mem_cons] at live
    obtain ⟨first, -, last⟩ := live
    exact ⟨ledger, List.forall_mem_append.mpr ⟨first, last⟩, serving, host⟩
  | reported | did | shifted => exact ⟨ledger, live, serving, host⟩

/-- The store stays as it is to be while it is used. -/
lemma Use.consistent (use : Use t t') (consistent : Consistent t) : Consistent t' := by
  obtain ⟨ledger, live, serving, host⟩ := id consistent
  cases use with
  | step step saved typed told => exact step.consistent consistent saved typed told
  | changesAudit id changes typed saved =>
    have leads := Ledger.leads_updateAuditByName id t.world.ledger typed
    exact ⟨ledger.leads leads (Ledger.files_updateAuditByName id changes _ saved), live, serving, host⟩
  | changesFinding id changes plain saved =>
    have leads := Ledger.leads_updateFindingByName id t.world.ledger plain
    exact ⟨ledger.leads leads (Ledger.files_updateFindingByName id changes _ saved), live, serving, host⟩
  | scans number engine auditId =>
    refine ⟨ledger, List.forall_mem_append.mpr ⟨live, List.forall_mem_singleton.mpr ?_⟩, serving, host⟩
    exact Scan.typed_run engine auditId
  | reopens engine host' located opened told =>
    obtain ⟨-, -, -, again⟩ := ledger.opened located opened rfl rfl rfl
    exact ⟨again, List.forall_mem_nil _, fun s none => (nomatch none), told⟩

lemma Use.lost (use : Use t t') (consistent : Consistent t) (lost : Lost t auditId) : Lost t' auditId := by
  cases use with
  | step step saved typed told => exact (step.leads consistent typed).missing lost.1 lost.2
  | changesAudit id changes typed saved =>
    exact (Ledger.leads_updateAuditByName id t.world.ledger typed).missing lost.1 lost.2
  | changesFinding id changes plain saved =>
    exact (Ledger.leads_updateFindingByName id t.world.ledger plain).missing lost.1 lost.2
  | scans => exact lost
  | reopens engine host located opened told =>
    obtain ⟨ids, drawn, missing, -⟩ := consistent.ledger.opened located opened rfl rfl rfl
    refine ⟨missing auditId lost.1, fun n later => ?_⟩
    have later : t.world.ledger.drawn < n := drawn ▸ later
    exact ids ▸ lost.2 n later

lemma Uses.consistent (uses : Uses t t') (consistent : Consistent t) : Consistent t' := by
  induction uses with
  | refl => exact consistent
  | tail _ use ih => exact use.consistent ih

lemma Used.consistent (used : Used t) : Consistent t := by
  obtain ⟨t₀, vacant, uses⟩ := used
  exact uses.consistent vacant.consistent

lemma Uses.lost (uses : Uses t t') (consistent : Consistent t) (lost : Lost t auditId) : Lost t' auditId := by
  induction uses with
  | refl => exact lost
  | tail before use ih => exact use.lost (Uses.consistent before consistent) ih

/-- A lost audit has no findings. -/
lemma Consistent.orphanless (consistent : Consistent t) (missing : t.audit? auditId = none) :
    ∀ finding ∈ t.world.ledger.store.findings, finding.isOf auditId = false := by
  intro finding stored
  obtain ⟨owner, ofOwner, there⟩ := consistent.ledger.intact.owned finding stored
  rw [Bool.eq_false_iff]
  intro ofAudit
  obtain rfl := FindingRecord.isOf_inj ofOwner ofAudit
  rw [audit?] at missing
  rw [missing] at there
  cases there

/-- However a store is used, each audit and each finding stands under an id of its own, and each finding is of an
audit that is there. The deletion of an audit drops the audit with its findings and nothing else; whatever goes on
after it, be it a scan of the audit, the audit does not come back, nor does a finding of it. -/
theorem findings_have_their_audits (used : Used t) :
    ((t.world.ledger.store.audits.map (·.id)).Nodup ∧
      ∀ audit ∈ t.world.ledger.store.audits, t.audit? audit.id = some audit) ∧
    ((t.world.ledger.store.findings.map (·.id)).Nodup ∧
      ∀ finding ∈ t.world.ledger.store.findings, t.finding? finding.id = some finding) ∧
    (∀ finding ∈ t.world.ledger.store.findings,
      ∃ auditId audit, finding.isOf auditId = true ∧ t.audit? auditId = some audit) ∧
    ∀ auditId t', Step t (.did (.deleteAudit auditId) (.ok true)) t' →
      t'.world.ledger.store.audits = t.world.ledger.store.audits.filter (·.id != auditId) ∧
      t'.world.ledger.store.findings = t.world.ledger.store.findings.filter (!·.isOf auditId) ∧
      ∀ t'', Uses t' t'' → t''.audit? auditId = none ∧
        ∀ finding ∈ t''.world.ledger.store.findings, finding.isOf auditId = false := by
  have consistent := used.consistent
  have intact := consistent.ledger.intact
  refine ⟨⟨intact.audits, fun audit stored => ?_⟩, ⟨intact.findings, fun finding stored => ?_⟩,
    fun finding stored => ?_, fun auditId t' step => ?_⟩
  · exact (find?_eq_some_iff_mem AuditRecord.id intact.audits).mpr ⟨stored, rfl⟩
  · exact (find?_eq_some_iff_mem FindingRecord.id intact.findings).mpr ⟨stored, rfl⟩
  · obtain ⟨auditId, ofAudit, there⟩ := intact.owned finding stored
    obtain ⟨audit, found⟩ := Option.isSome_iff_exists.mp there
    exact ⟨auditId, audit, ofAudit, found⟩
  · -- The id of a deleted audit is not drawn again, and a finding comes only with its audit.
    obtain ⟨audit, disk, found, after⟩ := step.deleted
    have lost := lost_of_deleted consistent.ledger.unused step
    have host : t'.world.host.Typed := by
      rw [after]
      exact consistent.host
    have consistent' := step.consistent consistent (fun _ same => nomatch same) trivial host
    refine ⟨by rw [after]; rfl, by rw [after]; rfl, fun t'' uses => ?_⟩
    have gone := (uses.lost consistent' lost).1
    exact ⟨gone, (uses.consistent consistent').orphanless gone⟩

end Steps

section Sample

/-- The steps that are due keep typed values, and the host stays. -/
lemma turn_typed {t t' : Traffic} {h : Happening} (due : t.turn = some (h, t')) :
    h.Typed ∧ t'.world.host = t.world.host := by
  unfold turn at due
  split at due <;> cases due
  · exact ⟨trivial, World.perform_host _⟩
  · exact ⟨trivial, rfl⟩
  · exact ⟨trivial, World.perform_host _⟩
  · exact ⟨trivial, rfl⟩

/-- The steps that are due are a use of the store. -/
lemma uses_turns (n : Nat) (t : Traffic) (host : t.world.host.Typed) (saved : ∀ h ∈ (t.turns n).1, h.Saved) :
    Uses t (t.turns n).2 := by
  induction n generalizing t with
  | zero => exact .refl
  | succ n ih =>
    unfold turns at saved ⊢
    split at saved
    · next h t' due =>
      obtain ⟨typed, same⟩ := turn_typed due
      obtain ⟨first, rest⟩ := List.forall_mem_cons.mp saved
      have host' := same ▸ host
      exact .head (.step (turn_step due) first typed host') (ih t' host' rest)
    · exact .refl

/-- The sample before it was used. -/
def sampleVacant : Traffic :=
  { sample with world := { sample.world with ledger := { sample.world.ledger with store := {}, drawn := 0 } } }

/-- What is entered of a finding of the sample. -/
def sampleDraft : FindingRecord := FindingRecord.ofFinding
  { category := "security", severity := "low", title := "entered", description := "", businessImpact := ""
    fixSteps := "", autoDetected := false }

/-- The world in which an audit and a finding of it were made. -/
def stocked (world : World) : World :=
  ((world.onLedger (Errand.createAudit "owner" "name" "").action).2.onLedger
    (Errand.createFinding "i" sampleDraft).action).2

lemma host_stocked (world : World) : (stocked world).host = world.host := rfl

/-- A scan of the audit goes on, of which some calls were made. -/
def sampleUsed : Traffic :=
  (turns 3 { sampleVacant with
    world := stocked sampleVacant.world, live := [⟨0, "i", Scan.run sampleVacant.engine "i"⟩] }).2

/-- The audit was deleted while the scan goes on. -/
def sampleDeleted : Traffic :=
  { sampleUsed with world := (sampleUsed.world.onLedger (Errand.deleteAudit "i").action).2 }

lemma sampleVacant_vacant : Vacant sampleVacant where
  injective := sample_idle.injective
  audits := rfl
  findings := rfl
  file := fun _ located => nomatch located
  live := rfl
  serving := rfl
  host := fun _ _ _ told => nomatch told

/-- To make the audit and the finding is a use of the store, when both are written. -/
lemma uses_stocked {t : Traffic} (host : t.world.host.Typed)
    (made : Saved (t.world.onLedger (Errand.createAudit "owner" "name" "").action).1)
    (filed : Saved ((t.world.onLedger (Errand.createAudit "owner" "name" "").action).2.onLedger
      (Errand.createFinding "i" sampleDraft).action).1) : Uses t { t with world := stocked t.world } := by
  refine .head (.step (.did (.createAudit "owner" "name" "")) made trivial host) ?_
  exact .single (.step (.did (.createFinding "i" sampleDraft)) filed (FindingRecord.isPlain_ofFinding _) host)

lemma sampleUsed_used : Used sampleUsed := by
  have host : sampleVacant.world.host.Typed := sampleVacant_vacant.host
  have made : Uses sampleVacant { sampleVacant with world := stocked sampleVacant.world } :=
    uses_stocked host (by decide) (by decide)
  refine ⟨sampleVacant, sampleVacant_vacant, made.trans ?_⟩
  exact .head (.scans 0 _ "i") (uses_turns 3 _ host (by decide))

/-- While a scan goes on, its audit is deleted: when it has ended, neither the audit is there nor a finding of it. -/
theorem findings_have_their_audits_midway :
    ((sampleUsed.audit? "i").isSome ∧ (sampleUsed.world.ledger.store.findings.any (·.isOf "i")) = true ∧
      sampleUsed.live.length = 1) ∧
    (sampleDeleted.turns 20).2.live = [] ∧ (sampleDeleted.turns 20).2.audit? "i" = none ∧
      ∀ finding ∈ (sampleDeleted.turns 20).2.world.ledger.store.findings, finding.isOf "i" = false := by
  have deleted : Step sampleUsed (.did (.deleteAudit "i") (.ok true)) sampleDeleted := .did (.deleteAudit "i")
  obtain ⟨-, -, -, deletes⟩ := findings_have_their_audits sampleUsed_used
  obtain ⟨-, -, gone⟩ := deletes "i" sampleDeleted deleted
  refine ⟨⟨rfl, rfl, rfl⟩, rfl, gone _ (uses_turns 20 sampleDeleted ?_ (by decide))⟩
  exact fun _ _ _ told => nomatch told

end Sample

end RepoAudit.Traffic
