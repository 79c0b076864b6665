import RepoAudit.Proofs.Scan.Calls
import RepoAudit.Proofs.Scan.Surroundings
import RepoAudit.Proofs.Traffic.Errand

/-!
# What is about an audit

Every change of a store is about one audit: it changes the record of the audit, or one of its findings
(`Ledger.Touches`). All other audits keep their records, and their findings keep their values and their order
(`Ledger.Touches.audit?_eq`, `Ledger.Touches.findingsOf_eq`). Which audit a call or an errand is about is read off it
(`Call.About`, `Errand.About`).
-/

namespace RepoAudit

namespace Ledger

/-- The id is not to be drawn any more. -/
def Spent (ledger : Ledger) (id : String) : Prop := ∀ n, ledger.drawn < n → ledger.ids n ≠ id

/-- No two findings share an id, and no id that is to be drawn is in use. -/
structure Orderly (ledger : Ledger) : Prop where
  keyed : ledger.store.Keyed
  drawsNew : ledger.DrawsNew

/-- All that can be done to a store that is about some of the audits, with the number of ids that are drawn after it. -/
inductive Touched (about : String → Prop) (ledger : Ledger) : Store → Nat → Prop
  | keeps {drawn : Nat} : ledger.drawn ≤ drawn → Touched about ledger ledger.store drawn
  | puts {audit : AuditRecord} {drawn : Nat} : about audit.id → ledger.drawn ≤ drawn →
    Touched about ledger (ledger.store.putAudit audit) drawn
  | discards {id : String} : about id → Touched about ledger (ledger.store.dropAudit id) ledger.drawn
  | files {auditId : String} (draft : FindingRecord) : about auditId →
    Touched about ledger (ledger.store.putFinding
      (filed draft (ledger.ids (ledger.drawn + 1)) auditId)) (ledger.drawn + 1)
  | amends {id : String} {finding : FindingRecord} (changes : List (FindingField × Json)) :
    ledger.store.finding? id = some finding → (∀ auditId, finding.isOf auditId = true → about auditId) →
    Touched about ledger (ledger.store.putFinding (finding.change changes)) ledger.drawn
  | drops {id : String} : (∀ finding, ledger.store.finding? id = some finding →
      ∀ auditId, finding.isOf auditId = true → about auditId) →
    Touched about ledger (ledger.store.dropFinding id) ledger.drawn

/-- A ledger becomes another one by a change that is about some of the audits, whatever becomes of the disk and of the
time. -/
structure Touches (about : String → Prop) (ledger after : Ledger) : Prop where
  ids : after.ids = ledger.ids
  touched : ledger.Touched about after.store after.drawn

variable {about : String → Prop} {ledger after : Ledger} {auditId id : String}

lemma Touches.refl (about : String → Prop) (ledger : Ledger) : ledger.Touches about ledger :=
  ⟨rfl, .keeps (Nat.le_refl _)⟩

lemma Touches.drawn_le (touches : ledger.Touches about after) : ledger.drawn ≤ after.drawn := by
  obtain ⟨-, touched⟩ := touches
  generalize after.store = store, after.drawn = drawn at touched ⊢
  cases touched with
  | keeps later | puts _ later => exact later
  | files => exact Nat.le_succ _
  | discards | amends | drops => exact Nat.le_refl _

lemma Spent.touches (spent : ledger.Spent id) (touches : ledger.Touches about after) : after.Spent id := by
  intro n later
  rw [touches.ids]
  exact spent n (Nat.lt_of_le_of_lt touches.drawn_le later)

/-- The record of an audit that a change is not about stays. -/
lemma Touches.audit?_eq (touches : ledger.Touches about after) (other : ¬ about auditId) :
    after.store.audit? auditId = ledger.store.audit? auditId := by
  obtain ⟨-, touched⟩ := touches
  generalize after.store = store, after.drawn = drawn at touched ⊢
  cases touched with
  | keeps => rfl
  | @puts audit _ of =>
    rw [Store.audit?_putAudit, if_neg]
    rintro rfl
    exact other of
  | @discards id of =>
    rw [Store.audit?_dropAudit, if_neg]
    rintro rfl
    exact other of
  | files | amends => rw [Store.audit?_putFinding]
  | drops => rfl

/-- A finding that is found after a change was found before it, or it was added by it. -/
lemma Touches.finding?_eq_some (touches : ledger.Touches about after) (keyed : ledger.store.Keyed)
    {finding : FindingRecord} (found : after.store.finding? id = some finding) :
    (∃ old, ledger.store.finding? id = some old ∧ old.auditId = finding.auditId) ∨
      id = ledger.ids (ledger.drawn + 1) ∧ after.drawn = ledger.drawn + 1 := by
  obtain ⟨-, touched⟩ := touches
  generalize after.store = store, after.drawn = drawn at touched found ⊢
  cases touched with
  | keeps => exact .inl ⟨finding, found, rfl⟩
  | puts => exact .inl ⟨finding, by rwa [Store.finding?_putAudit] at found, rfl⟩
  | discards => exact .inl ⟨finding, Store.found_of_sublist keyed List.filter_sublist found, rfl⟩
  | files draft =>
    rw [Store.finding?_putFinding] at found
    split at found
    · next new => exact .inr ⟨new, rfl⟩
    · exact .inl ⟨finding, found, rfl⟩
  | amends changes present =>
    rw [Store.finding?_putFinding, FindingRecord.change_id] at found
    split at found
    · next same =>
      obtain rfl := Option.some.inj found
      rw [same, Store.id_of_finding? present, present]
      exact .inl ⟨_, rfl, (FindingRecord.change_auditId _ _).symm⟩
    · exact .inl ⟨finding, found, rfl⟩
  | drops => exact .inl ⟨finding, Store.found_of_sublist keyed List.filter_sublist found, rfl⟩

lemma Orderly.touches (orderly : ledger.Orderly) (touches : ledger.Touches about after) : after.Orderly := by
  refine ⟨?_, ⟨?_, fun n later => ?_⟩⟩
  · obtain ⟨-, touched⟩ := touches
    generalize after.store = store, after.drawn = drawn at touched ⊢
    cases touched with
    | keeps => exact orderly.keyed
    | puts =>
      rw [Store.Keyed, Store.findings_putAudit]
      exact orderly.keyed
    | files | amends => exact orderly.keyed.putFinding _
    | discards | drops => exact orderly.keyed.sublist List.filter_sublist
  · rw [touches.ids]
    exact orderly.drawsNew.injective
  · rw [touches.ids]
    cases found : after.store.finding? (ledger.ids n) with
    | none => rfl
    | some finding =>
      obtain ⟨old, present, -⟩ | ⟨same, drawn⟩ := touches.finding?_eq_some orderly.keyed found
      · rw [orderly.drawsNew.unused n (Nat.lt_of_le_of_lt touches.drawn_le later)] at present
        cases present
      · obtain rfl := orderly.drawsNew.injective same
        exact absurd later (by omega)

/-- The findings of an audit that a change is not about stay, in their order. -/
lemma Touches.findingsOf_eq (touches : ledger.Touches about after) (orderly : ledger.Orderly)
    (other : ¬ about auditId) : after.store.findingsOf auditId = ledger.store.findingsOf auditId := by
  obtain ⟨-, touched⟩ := touches
  -- Where no two findings share an id, what becomes of the finding of an id is told by the one that is found.
  have isFound (finding : FindingRecord) (stored : finding ∈ ledger.store.findings) :
      ledger.store.finding? finding.id = some finding :=
    (find?_eq_some_iff_mem FindingRecord.id orderly.keyed).mpr ⟨stored, rfl⟩
  generalize after.store = store, after.drawn = drawn at touched ⊢
  cases touched with
  | keeps => rfl
  | puts => rw [Store.findingsOf, Store.findings_putAudit, Store.findingsOf]
  | @discards id of =>
    rw [Store.findingsOf, Store.dropAudit, List.filter_filter, Store.findingsOf]
    refine List.filter_congr fun finding _ => ?_
    by_cases ofAudit : finding.isOf auditId = true
    · have apart : finding.isOf id ≠ true := fun ofOther => other (FindingRecord.isOf_inj ofOther ofAudit ▸ of)
      simp [ofAudit, apart]
    · simp [ofAudit]
  | @files ofId draft of =>
    have apart : (filed draft (ledger.ids (ledger.drawn + 1)) ofId).isOf auditId = false :=
      beq_false_of_ne fun same => other (same ▸ of)
    rw [Store.findingsOf, Store.findings_putFinding_of_missing (orderly.drawsNew.unused _ (Nat.lt_succ_self _)),
      List.filter_append, List.filter_cons_of_neg (by simp [apart]), List.filter_nil, List.append_nil, Store.findingsOf]
  | @amends id finding changes found of =>
    have apart : finding.isOf auditId = false := by simpa using fun ofAudit => other (of auditId ofAudit)
    have present : (ledger.store.finding? (finding.change changes).id).isSome = true := by
      rw [FindingRecord.change_id, Store.id_of_finding? found, found, Option.isSome_some]
    rw [Store.findingsOf, Store.putFinding, if_pos present]
    have apart' := (FindingRecord.isOf_change auditId finding changes).trans apart
    refine filter_replaceKeyed FindingRecord.id apart' fun old stored same => ?_
    have is : ledger.store.finding? old.id = some finding := by
      rw [same, FindingRecord.change_id, Store.id_of_finding? found, found]
    obtain rfl := Option.some.inj ((isFound old stored).symm.trans is)
    exact apart
  | @drops id of =>
    rw [Store.findingsOf, Store.dropFinding, List.filter_filter, Store.findingsOf]
    refine List.filter_congr fun finding stored => ?_
    by_cases ofAudit : finding.isOf auditId = true
    · have apart : finding.id ≠ id := fun same =>
        other (of finding (same ▸ isFound finding stored) auditId ofAudit)
      simp [ofAudit, apart]
    · simp [ofAudit]

/-- The id was drawn, and the finding under it, if there is one, is of the audit or it is not. -/
structure Allotted (own : Bool) (auditId : String) (ledger : Ledger) (id : String) : Prop where
  spent : ledger.Spent id
  whose : ∀ finding, ledger.store.finding? id = some finding → finding.isOf auditId = own

lemma Allotted.touches {own : Bool} (allotted : Allotted own auditId ledger id) (orderly : ledger.Orderly)
    (touches : ledger.Touches about after) : Allotted own auditId after id := by
  refine ⟨allotted.spent.touches touches, fun finding found => ?_⟩
  obtain ⟨old, present, same⟩ | ⟨new, -⟩ := touches.finding?_eq_some orderly.keyed found
  · rw [FindingRecord.isOf, ← same]
    exact allotted.whose old present
  · exact absurd new.symm (allotted.spent _ (Nat.lt_succ_self _))

/-- The ids of the findings of an audit are allotted to it, and to no other one. -/
lemma Orderly.allotted (orderly : ledger.Orderly) {other : String} {own : Bool} (same : (other == auditId) = own)
    {finding : FindingRecord} (listed : finding ∈ ledger.store.findingsOf other) :
    Allotted own auditId ledger finding.id := by
  obtain ⟨stored, ofOther⟩ := List.mem_filter.mp listed
  have found : ledger.store.finding? finding.id = some finding :=
    (find?_eq_some_iff_mem FindingRecord.id orderly.keyed).mpr ⟨stored, rfl⟩
  refine ⟨fun n later same => ?_, fun now present => ?_⟩
  · rw [← same, orderly.drawsNew.unused n later] at found
    cases found
  · obtain rfl := Option.some.inj (found.symm.trans present)
    obtain rfl := same
    cases ofAudit : finding.isOf auditId with
    | true => simp [FindingRecord.isOf_inj ofOther ofAudit]
    | false =>
      have apart : other ≠ auditId := by
        rintro rfl
        simp [ofOther] at ofAudit
      simp [apart]

end Ledger

/-- The finding of an id, if there is one, is of these audits. -/
def Store.IsAbout (store : Store) (about : String → Prop) (id : String) : Prop :=
  ∀ finding, store.finding? id = some finding → ∀ auditId, finding.isOf auditId = true → about auditId

/-- True of a call that writes to these audits only. -/
def Call.About (about : String → Prop) (store : Store) : Call → Prop
  | updateAudit id _ => about id
  | createFinding id _ => about id
  | deleteFinding id => store.IsAbout about id
  | _ => True

/-- True of an errand that is about these audits or about a new one. -/
def Errand.About (about : String → Prop) (store : Store) : Errand → Prop
  | deleteAudit id => about id
  | createFinding id _ => about id
  | updateFinding id _ => store.IsAbout about id
  | deleteFinding id => store.IsAbout about id
  | _ => True

/-- Every errand is about some audits. -/
lemma Errand.about_true (errand : Errand) (store : Store) : errand.About (fun _ => True) store := by
  cases errand with
  | updateFinding | deleteFinding => exact fun _ _ _ _ => trivial
  | _ => trivial

lemma Call.about_true (c : Call) (store : Store) : c.About (fun _ => True) store := by
  cases c with
  | deleteFinding => exact fun _ _ _ _ => trivial
  | _ => trivial

section Effects

variable {about : String → Prop}

lemma Ledger.touches_updateAudit {id : String} (changes : List (AuditField × Json)) (ledger : Ledger) (of : about id) :
    ledger.Touches about (Action.on (updateAudit id changes) ledger).2 := by
  obtain ⟨-, does⟩ | ⟨audit, reply, disk, found, -, does⟩ := updateAudit_on id changes ledger
  · rw [does]
    exact .refl about ledger
  · rw [does]
    refine ⟨rfl, .puts ?_ (Nat.le_refl _)⟩
    rwa [AuditRecord.change_id, Store.id_of_audit? found]

/-- An errand is about the audits that it names, or about the one that it makes. -/
lemma Errand.touches {errand : Errand} {ledger : Ledger} (of : errand.About about ledger.store)
    (new : ∀ owner name address, errand = .createAudit owner name address → about (ledger.ids (ledger.drawn + 1))) :
    ledger.Touches about (Ledger.Action.on errand.action ledger).2 := by
  have does := errand.does ledger
  generalize (Ledger.Action.on errand.action ledger).2 = after at does
  refine ⟨does.ids, ?_⟩
  cases does with
  | nothing => exact .keeps (Nat.le_refl _)
  | misses => exact .keeps (Nat.le_succ _)
  | makes owner name address => exact .puts (new owner name address rfl) (Nat.le_succ _)
  | discards => exact .discards of
  | files draft => exact .files draft of
  | changes changes disk found => exact .amends changes found (of _ found)
  | drops => exact .drops of

lemma Ledger.touches_updateAuditByName (id : String) (changes : List (String × Json)) (ledger : Ledger)
    (of : about id) : ledger.Touches about (Action.on (updateAuditByName id changes) ledger).2 := by
  obtain ⟨error, does⟩ | does := updateAuditByName_on id changes ledger
  · rw [does]
    exact .refl about ledger
  · rw [does]
    exact touches_updateAudit _ ledger of

lemma Ledger.touches_updateFindingByName (id : String) (changes : List (String × Json)) (ledger : Ledger)
    (of : ledger.store.IsAbout about id) :
    ledger.Touches about (Action.on (updateFindingByName id changes) ledger).2 := by
  obtain ⟨error, does⟩ | does := updateFindingByName_on id changes ledger
  · rw [does]
    exact .refl about ledger
  · rw [does]
    exact Errand.touches (show (Errand.updateFinding id _).About about _ from of) (by simp)

lemma World.touches {c : Call} {world : World} (of : c.About about world.ledger.store) :
    world.ledger.Touches about (world.perform c).2.ledger := by
  cases c with
  | updateAudit id changes => exact Ledger.touches_updateAudit changes world.ledger of
  | createFinding id draft =>
    exact Errand.touches (show (Errand.createFinding id draft).About about _ from of) (by simp)
  | deleteFinding id => exact Errand.touches (show (Errand.deleteFinding id).About about _ from of) (by simp)
  | _ => exact .refl about world.ledger

/-- A call that does not write is about no audit. -/
lemma World.touches_reads (about : String → Prop) (world : World) {c : Call} (reads : c.writes = false) :
    world.ledger.Touches about (world.perform c).2.ledger := by
  rw [perform_ledger reads]
  exact .refl about world.ledger

end Effects

/-- What a scan may call is about its own audit. -/
lemma Call.StaysWith.about {auditId : String} {c : Call} (stays : c.StaysWith auditId) (store : Store) :
    c.About (· = auditId) store := by
  cases c with
  | updateAudit | createFinding => exact stays
  | deleteFinding => exact stays.elim
  | _ => trivial

end RepoAudit
