import RepoAudit.Proofs.Store.Arranged
import RepoAudit.Proofs.Traffic.Reopening

/-!
# The order of stores that are opened again

A store that is opened again has the records that there were, but in the order of their ids. Where the ids did not
rise from one record to the next, findings and the audits of one moment change their places.
-/

namespace RepoAudit.Traffic

section Filed

variable {t t' : Traffic}

lemma Vacant.filed (vacant : Vacant t) : t.world.ledger.Filed := by
  intro path kept located reads
  rw [vacant.file path located] at reads
  obtain rfl := Except.ok.inj reads
  exact ⟨.nil, .nil⟩

lemma Use.filed (use : Use t t') (consistent : Consistent t) (filed : t.world.ledger.Filed) :
    t'.world.ledger.Filed := by
  have intact := (use.consistent consistent).ledger.intact
  cases use with
  | step step saved typed told => exact filed.step intact (step.files saved)
  | changesAudit id changes typed saved => exact filed.step intact (Ledger.files_updateAuditByName id changes _ saved)
  | changesFinding id changes plain saved =>
    exact filed.step intact (Ledger.files_updateFindingByName id changes _ saved)
  | scans => exact filed
  | reopens engine host located opened told =>
    exact (filed.opened consistent.ledger located (Ledger.disk_ended _) opened).1

lemma Uses.filed (uses : Uses t t') (consistent : Consistent t) (filed : t.world.ledger.Filed) :
    t'.world.ledger.Filed := by
  induction uses with
  | refl => exact filed
  | tail before use ih => exact use.filed (Uses.consistent before consistent) ih

lemma Used.filed (used : Used t) : t.world.ledger.Filed := by
  obtain ⟨t₀, vacant, uses⟩ := used
  exact uses.filed vacant.consistent vacant.filed

end Filed

/-- A store that was used is opened again in the order of its ids. The findings of every audit are listed as they
were before just when they were listed in that order before, and so are the audits just when those of one moment
were. -/
theorem reopened_stores_list_by_id {t : Traffic} {path : Path} {fresh : Ledger} (used : Used t)
    (located : t.world.ledger.store.path = some path) (same : fresh.disk = t.world.ledger.disk) :
    ∃ again, Ledger.Action.on (Ledger.openStore (some path)) fresh = (.ok (), again) ∧
      (∀ auditId, ∃ before after,
        Ledger.Action.on (Ledger.listFindings auditId) t.world.ledger = (.ok before, t.world.ledger) ∧
        Ledger.Action.on (Ledger.listFindings auditId) again = (.ok after, again) ∧
        after.Perm before ∧ (after.map (·.id)).Pairwise (· ≤ ·) ∧
        (after.map (·.id) = before.map (·.id) ↔ (before.map (·.id)).Pairwise (· ≤ ·))) ∧
      ∃ before after,
        Ledger.Action.on Ledger.listAudits t.world.ledger = (.ok before, t.world.ledger) ∧
        Ledger.Action.on Ledger.listAudits again = (.ok after, again) ∧
        (after.map (·.id)).Perm (before.map (·.id)) ∧ after.Pairwise AuditRecord.Precedes ∧
        (after.map (·.id) = before.map (·.id) ↔ before.Pairwise AuditRecord.Precedes) := by
  have consistent := used.consistent.ledger
  have intact := consistent.intact
  obtain ⟨kept, disk, restores, opens, -⟩ := consistent.restorable.opens intact located same
  obtain ⟨-, arranged⟩ := used.filed.opened consistent located same opens
  have intact' : (Ledger.closeRunning fresh.now kept).Intact := Ledger.intact_closeRunning (restores.intact intact)
  refine ⟨_, opens, fun auditId => ?_, ?_⟩
  · refine ⟨_, _, rfl, rfl, ?_⟩
    have found := restores.findings.filter (·.isOf auditId)
    have ordered := arranged.findingsOf auditId
    exact ⟨found, ordered, map_eq_map_iff_pairwise (fun _ _ => le_antisymm) (found.map _) ordered⟩
  · refine ⟨_, _, Ledger.listAudits_on intact.typed.audits, Ledger.listAudits_on intact'.typed.audits, ?_⟩
    -- The ids lead to the same moments before and after, so they tell the order in which the audits are listed.
    obtain ⟨back, audits, agrees⟩ := restores.relisted fresh.now
    have leads : ∀ audit ∈ (Ledger.closeRunning fresh.now kept).audits,
        t.world.ledger.store.momentOf audit.id = audit.moment := by
      intro audit stored
      obtain ⟨old, present, rfl⟩ := List.mem_map.mp (audits.mem_iff.mp stored)
      obtain ⟨id, moment⟩ := agrees old present
      rw [id, moment]
      exact intact.momentOf present
    have ids : ((Ledger.closeRunning fresh.now kept).audits.map (·.id)).Perm
        (t.world.ledger.store.audits.map (·.id)) := by
      rw [Ledger.ids_closeRunning]
      exact restores.ids
    have listed := (((byMoment_perm _).map _).trans ids).trans ((byMoment_perm _).map _).symm
    have ordered := precedes_byMoment arranged.audits
    refine ⟨listed, ordered, AuditRecord.ids_eq_iff_precedes t.world.ledger.store.momentOf ?_ ?_ listed ordered⟩
    · exact fun audit present => leads audit ((byMoment_perm _).mem_iff.mp present)
    · exact fun audit present => intact.momentOf ((byMoment_perm _).mem_iff.mp present)

section Sample

/-- Ids that are apart by their lengths and do not rise. -/
def sampleIds (n : Nat) : String := String.ofList (List.replicate n (if n % 2 = 0 then 'a' else 'b'))

lemma sampleIds_injective : Function.Injective sampleIds := by
  intro m n same
  have length := congrArg String.length same
  simpa [sampleIds] using length

/-- The sample before it was used, with a file and with ids that do not rise. -/
def sampleFalling : Traffic :=
  { sampleFiled with world := { sampleFiled.world with ledger :=
    { sampleFiled.world.ledger with ids := sampleIds } } }

lemma sampleFalling_vacant : Vacant sampleFalling :=
  { sampleFiled_vacant with injective := sampleIds_injective }

/-- The state in which an errand was done. -/
def done (t : Traffic) (errand : Errand) : Traffic := { t with world := (t.world.onLedger errand.action).2 }

lemma uses_done {t : Traffic} (errand : Errand) (host : t.world.host.Typed) (typed : errand.Typed)
    (saved : Saved (t.world.onLedger errand.action).1) :
    Uses t (done t errand) ∧ (done t errand).world.host.Typed :=
  ⟨.single (.step (.did errand) saved typed host), host⟩

/-- Two audits were made in one moment, and two findings of the first one. -/
def sampleFilled : Traffic :=
  [Errand.createAudit "owner" "name" "", .createAudit "owner" "other" "", .createFinding "b" sampleDraft,
    .createFinding "b" sampleDraft].foldl done sampleFalling

lemma sampleFilled_used : Used sampleFilled := by
  have plain := FindingRecord.isPlain_ofFinding
  have host : sampleFalling.world.host.Typed := sampleFalling_vacant.host
  obtain ⟨first, host⟩ := uses_done (.createAudit "owner" "name" "") host trivial (by decide +kernel)
  obtain ⟨second, host⟩ := uses_done (.createAudit "owner" "other" "") host trivial (by decide +kernel)
  obtain ⟨third, host⟩ := uses_done (.createFinding "b" sampleDraft) host (plain _) (by decide +kernel)
  obtain ⟨fourth, -⟩ := uses_done (.createFinding "b" sampleDraft) host (plain _) (by decide +kernel)
  exact ⟨sampleFalling, sampleFalling_vacant, ((first.trans second).trans third).trans fourth⟩

/-- The findings and the audits of the sample change their places when its store is opened again. -/
theorem reopened_stores_list_by_id_falling :
    ∃ again,
      Ledger.Action.on (Ledger.openStore (some samplePath)) sampleFilled.world.ledger.ended = (.ok (), again) ∧
      (∃ before after,
        Ledger.Action.on (Ledger.listFindings "b") sampleFilled.world.ledger =
          (.ok before, sampleFilled.world.ledger) ∧
        Ledger.Action.on (Ledger.listFindings "b") again = (.ok after, again) ∧
        before.map (·.id) = ["bbb", "aaaa"] ∧ after.map (·.id) ≠ before.map (·.id)) ∧
      ∃ before after,
        Ledger.Action.on Ledger.listAudits sampleFilled.world.ledger = (.ok before, sampleFilled.world.ledger) ∧
        Ledger.Action.on Ledger.listAudits again = (.ok after, again) ∧
        before.map (·.id) = ["b", "aa"] ∧ after.map (·.id) ≠ before.map (·.id) := by
  have located : sampleFilled.world.ledger.store.path = some samplePath := by decide +kernel
  obtain ⟨again, opens, findings, before, after, lists, lists', -, -, same⟩ :=
    reopened_stores_list_by_id sampleFilled_used located (Ledger.disk_ended sampleFilled.world.ledger)
  refine ⟨again, opens, ?_, before, after, lists, lists', ?_⟩
  · obtain ⟨before, after, lists, lists', -, -, same⟩ := findings "b"
    have found : before.map (·.id) = ["bbb", "aaaa"] := by
      obtain rfl := Except.ok.inj (congrArg Prod.fst lists)
      decide +kernel
    refine ⟨before, after, lists, lists', found, fun equal => ?_⟩
    have rising := found ▸ same.mp equal
    revert rising
    decide
  · -- Audits of one moment are listed in the order in which they came.
    have tied : sampleFilled.world.ledger.store.audits.Pairwise fun a b => decide (a.moment ≤ b.moment) = true := by
      decide +kernel
    have found : before = sampleFilled.world.ledger.store.audits := by
      have is := lists.symm.trans (Ledger.listAudits_on sampleFilled_used.consistent.ledger.intact.typed.audits)
      rw [byMoment, List.mergeSort_of_pairwise tied] at is
      exact Except.ok.inj (congrArg Prod.fst is)
    refine ⟨by rw [found]; decide +kernel, fun equal => ?_⟩
    have precedes := same.mp equal
    rw [found] at precedes
    revert precedes
    decide +kernel

end Sample

end RepoAudit.Traffic
