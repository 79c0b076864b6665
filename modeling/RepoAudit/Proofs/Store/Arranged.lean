import RepoAudit.Proofs.Store.Restored

/-!
# The order of records

A store has its records in the order in which they came, but the members of its document are written in the order
of their names, and they are read in the order in which they were written. So what comes from a file that a store
has written stands in the order of its ids (`Ledger.Filed`), and in that order it is listed: all findings of an
audit, and those audits that were made at one moment.
-/

namespace RepoAudit

section Sorted

variable {α : Type}

/-- A list that is sorted anew keeps the order that it had where the new one does not tell. -/
lemma pairwise_mergeSort_of_pairwise {before : α → α → Bool} {older : α → α → Prop} {items : List α}
    (transitive : ∀ a b c, before a b = true → before b c = true → before a c = true)
    (total : ∀ a b, (before a b || before b a) = true) (refl : ∀ a, older a a) (was : items.Pairwise older) :
    (items.mergeSort before).Pairwise fun a b => before a b = true ∧ (before b a = true → older a b) := by
  -- The items are sorted with their places, and of items that the order does not tell apart the places decide.
  rw [← List.mergeSort_zipIdx, List.pairwise_map]
  have sorted := List.pairwise_mergeSort (List.zipIdxLE_trans transitive) (List.zipIdxLE_total total) items.zipIdx
  refine sorted.imp_of_mem fun {first second} stored stored' under => ?_
  obtain ⟨-, below, is⟩ := List.mem_zipIdx (List.mem_mergeSort.mp stored)
  obtain ⟨-, below', is'⟩ := List.mem_zipIdx (List.mem_mergeSort.mp stored')
  simp only [Nat.sub_zero, zero_add] at is is' below below'
  unfold List.zipIdxLE at under
  split at under
  · next comes =>
    refine ⟨comes, fun back => ?_⟩
    rw [if_pos back, decide_eq_true_eq] at under
    rw [is, is']
    obtain earlier | same := Nat.lt_or_eq_of_le under
    · exact List.pairwise_iff_getElem.mp was _ _ below below' earlier
    · simp only [same]
      exact refl _
  · cases under

/-- Of the keys in some order, those that are in order are the same just when they were in order. -/
lemma map_eq_map_iff_pairwise {β : Type} {key : α → β} {r : β → β → Prop} {items others : List α}
    (antisymm : ∀ a b, r a b → r b a → a = b) (same : (items.map key).Perm (others.map key))
    (ordered : (items.map key).Pairwise r) :
    items.map key = others.map key ↔ (others.map key).Pairwise r := by
  constructor
  · intro equal
    exact equal ▸ ordered
  · intro ordered'
    exact List.Perm.eq_of_pairwise (fun a b _ _ => antisymm a b) ordered ordered' same

end Sorted

/-! ## What is read stands in the order of its ids -/

lemma FindingRecord.of_ofJson? {id : String} {value : Json} {finding : FindingRecord}
    (is : ofJson? id value = some finding) : finding.id = id := by
  cases value with
  | object members =>
    simp only [ofJson?] at is
    split at is
    · split at is
      · cases is
        exact change_id _ _
      · cases is
    · cases is
  | _ => cases is

namespace Store

/-- The audits of a store stand in the order of their ids, and so do its findings. -/
structure Arranged (store : Store) : Prop where
  audits : (store.audits.map (·.id)).Pairwise (· ≤ ·)
  findings : (store.findings.map (·.id)).Pairwise (· ≤ ·)

/-- Records that stand under their ids are related as the names of the members that they come from. -/
lemma pairwise_recordsOf {α : Type} {id : α → String} {record? : String → Json → Option α}
    {r : String → String → Prop} (under : ∀ name value record, record? name value = some record → id record = name)
    {members : List (String × Json)} (related : (members.map (·.1)).Pairwise r) :
    ((recordsOf record? (.object members)).map id).Pairwise r := by
  rw [recordsOf, List.pairwise_map]
  apply (List.pairwise_map.mp related).filterMap
  intro first second comes record is other is'
  rw [under _ _ _ is, under _ _ _ is']
  exact comes

/-- A store that is read from the document of another one is arranged. -/
lemma arranged_ofDocument {store : Store} (intact : store.Intact) (path : Option Path) :
    (ofDocument path store.document.settled).Arranged := by
  obtain ⟨ofVersion, ofAudits, ofFindings⟩ := getD_document_settled store
  have current : (Json.integer version).equalsInteger version = true := beq_self_eq_true _
  have ordered {members : List (String × Json)} (distinct : (members.map (·.1)).Nodup) :
      ((Json.collected (Json.inOrder (Json.settled.settledMembers members))).map (·.1)).Pairwise (· ≤ ·) := by
    rw [Json.collected_of_nodup]
    · exact Json.pairwise_inOrder _
    · refine ((Json.inOrder_perm _).map _).nodup_iff.mpr ?_
      rw [Json.settledMembers_eq, List.map_map]
      exact distinct
  rw [ofDocument, ofVersion, current, if_pos rfl, ofAudits, ofFindings]
  constructor
  · apply pairwise_recordsOf
    · exact fun name value audit is => (AuditRecord.of_ofJson? is).1
    · apply ordered
      rw [List.map_map]
      exact intact.audits
  · apply pairwise_recordsOf
    · exact fun name value finding is => FindingRecord.of_ofJson? is
    · apply ordered
      rw [List.map_map]
      exact intact.findings

lemma Arranged.findingsOf {store : Store} (arranged : store.Arranged) (auditId : String) :
    ((store.findingsOf auditId).map (·.id)).Pairwise (· ≤ ·) :=
  arranged.findings.sublist (List.filter_sublist.map _)

end Store

namespace Ledger

/-- What is read from the file of the store is arranged. -/
def Filed (ledger : Ledger) : Prop :=
  ∀ path kept, ledger.store.path = some path → readStore ledger.disk path = .ok kept → kept.Arranged

lemma Written.filed {ledger : Ledger} (written : ledger.Written) (intact : ledger.store.Intact) :
    ledger.Filed := by
  intro path kept located reads
  obtain ⟨holds, writable, -⟩ := written path located
  rw [readStore_of_octetsOf holds (Json.read_write intact.typed.plain.document writable)] at reads
  rw [← Except.ok.inj reads]
  exact Store.arranged_ofDocument intact _

lemma Filed.step {ledger after : Ledger} (filed : ledger.Filed) (intact : after.store.Intact)
    (files : (after.store = ledger.store ∧ after.disk = ledger.disk) ∨ after.Written) : after.Filed := by
  obtain ⟨store, disk⟩ | written := files
  · intro path kept located reads
    rw [store] at located
    rw [disk] at reads
    exact filed path kept located reads
  · exact written.filed intact

lemma arranged_closeRunning {now : Instant} {store : Store} (arranged : store.Arranged) :
    (closeRunning now store).Arranged := by
  constructor
  · rw [ids_closeRunning]
    exact arranged.audits
  · exact arranged.findings

/-- A store that is opened from its file is arranged, and so is what its file gives. -/
lemma Filed.opened {ledger fresh after : Ledger} {path : Path} (filed : ledger.Filed)
    (consistent : ledger.Consistent) (located : ledger.store.path = some path) (same : fresh.disk = ledger.disk)
    (opens : Action.on (openStore (some path)) fresh = (.ok (), after)) : after.Filed ∧ after.store.Arranged := by
  obtain ⟨kept, reads, restores, -⟩ := consistent.restorable path located
  have arranged := filed path kept located reads
  rw [← same] at reads
  have saved : Saved (Action.on (openStore (some path)) fresh).1 := by
    rw [opens]
    exact fun error same => nomatch same
  obtain ⟨disk, opens', files⟩ := openStore_on reads saved
  obtain rfl := congrArg Prod.snd (opens.symm.trans opens')
  refine ⟨?_, arranged_closeRunning arranged⟩
  obtain ⟨rfl, -⟩ | written := files
  · intro path' kept' located' reads'
    obtain rfl : path' = path := Option.some.inj (located'.symm.trans (restores.path.trans located))
    obtain rfl : kept = kept' := Except.ok.inj (reads.symm.trans reads')
    exact arranged
  · exact written.filed (intact_closeRunning (restores.intact consistent.intact))

end Ledger

/-! ## How records are listed -/

namespace AuditRecord

/-- The moment in which an audit was made. -/
def moment (audit : AuditRecord) : String := audit.createdAt.text?.getD ""

/-- One audit was made before another one, or at the same moment and under an id that is not greater. -/
def Precedes (audit other : AuditRecord) : Prop :=
  audit.moment < other.moment ∨ audit.moment = other.moment ∧ audit.id ≤ other.id

instance (audit other : AuditRecord) : Decidable (audit.Precedes other) :=
  inferInstanceAs (Decidable (_ ∨ _ ∧ _))

/-- The order of ids that lead to moments. -/
def IdPrecedes (moments : String → String) (i j : String) : Prop :=
  moments i < moments j ∨ moments i = moments j ∧ i ≤ j

lemma IdPrecedes.antisymm {moments : String → String} {i j : String} (first : IdPrecedes moments i j)
    (second : IdPrecedes moments j i) : i = j := by
  obtain before | ⟨tied, below⟩ := first
  · obtain after | ⟨tied, -⟩ := second
    · exact absurd after (lt_asymm before)
    · exact absurd tied before.ne'
  · obtain after | ⟨-, below'⟩ := second
    · exact absurd tied after.ne'
    · exact le_antisymm below below'

/-- Whether one audit precedes another one is told by their ids, where these lead to their moments. -/
lemma pairwise_precedes_iff {moments : String → String} {audits : List AuditRecord}
    (leads : ∀ audit ∈ audits, moments audit.id = audit.moment) :
    audits.Pairwise Precedes ↔ (audits.map (·.id)).Pairwise (IdPrecedes moments) := by
  rw [List.pairwise_map]
  apply List.Pairwise.iff_of_mem
  intro audit other stored stored'
  rw [IdPrecedes, leads audit stored, leads other stored', Precedes]

/-- Of two listings of audits of the same ids, by which the same moments are led to, one that is in order has the
ids of the other just when that one is in order. -/
lemma ids_eq_iff_precedes (moments : String → String) {listed others : List AuditRecord}
    (leads : ∀ audit ∈ listed, moments audit.id = audit.moment)
    (leads' : ∀ audit ∈ others, moments audit.id = audit.moment)
    (same : (listed.map (·.id)).Perm (others.map (·.id))) (ordered : listed.Pairwise Precedes) :
    listed.map (·.id) = others.map (·.id) ↔ others.Pairwise Precedes := by
  rw [pairwise_precedes_iff leads] at ordered
  rw [pairwise_precedes_iff leads']
  exact map_eq_map_iff_pairwise (fun _ _ => IdPrecedes.antisymm) same ordered

end AuditRecord

/-- The moment of the audit of an id. -/
def Store.momentOf (store : Store) (id : String) : String := ((store.audit? id).map (·.moment)).getD ""

lemma Store.Intact.momentOf {store : Store} (intact : store.Intact) {audit : AuditRecord}
    (stored : audit ∈ store.audits) : store.momentOf audit.id = audit.moment := by
  have found : store.audit? audit.id = some audit :=
    (find?_eq_some_iff_mem AuditRecord.id intact.audits).mpr ⟨stored, rfl⟩
  rw [Store.momentOf, found]
  rfl

/-- A store that is restored has the audits that there were, each under its id and of its moment, also when its
running scans are ended. -/
lemma Store.Restores.relisted {kept store : Store} (restores : kept.Restores store) (now : Instant) :
    ∃ back : AuditRecord → AuditRecord, (Ledger.closeRunning now kept).audits.Perm (store.audits.map back) ∧
      ∀ audit ∈ store.audits, (back audit).id = audit.id ∧ (back audit).moment = audit.moment := by
  obtain ⟨-, -, back, audits, agrees⟩ := restores
  refine ⟨Ledger.closed now ∘ back, ?_, fun audit stored => ?_⟩
  · rw [Ledger.audits_closeRunning, ← List.map_map]
    exact audits.map _
  · obtain ⟨agrees, -⟩ := agrees audit stored
    have kept : (Ledger.closed now (back audit)).createdAt = (back audit).createdAt := by
      obtain kept | ⟨-, named, -⟩ := Ledger.get_closed now (back audit) .createdAt
      · exact kept
      · exact absurd named (by simp [Ledger.closingFields])
    have same : (back audit).createdAt = audit.createdAt := agrees.fields .createdAt List.not_mem_nil
    refine ⟨(Ledger.id_closed now _).trans agrees.id, ?_⟩
    rw [AuditRecord.moment, Function.comp_apply, kept, same]
    rfl

/-- Audits in the order of their moments. -/
def byMoment (audits : List AuditRecord) : List AuditRecord :=
  audits.mergeSort fun a b => decide (a.moment ≤ b.moment)

lemma byMoment_perm (audits : List AuditRecord) : (byMoment audits).Perm audits := List.mergeSort_perm _ _

lemma orderAudits_of_typed {audits : List AuditRecord} (typed : ∀ audit ∈ audits, audit.Typed) :
    orderAudits audits = .ok (byMoment audits) := by
  have dated : (audits.mapM fun audit => audit.createdAt.text?.map (·, audit)) =
      some (audits.map fun audit => (audit.moment, audit)) := by
    apply mapM_of_forall
    intro audit stored
    obtain ⟨text, is⟩ := typed audit stored .createdAt
    have is : audit.createdAt = .text text := is
    rw [AuditRecord.moment, is]
    rfl
  have sorted : ((audits.map fun audit => (audit.moment, audit)).mergeSort notAfter) =
      (byMoment audits).map fun audit => (audit.moment, audit) := by
    symm
    apply List.map_mergeSort
    intro audit _ other _
    rfl
  rw [orderAudits, dated]
  simp only [sorted, List.map_map]
  exact congrArg _ (List.map_id _)

/-- Audits that stand in the order of their ids are listed so where they were made at one moment. -/
lemma precedes_byMoment {audits : List AuditRecord} (arranged : (audits.map (·.id)).Pairwise (· ≤ ·)) :
    (byMoment audits).Pairwise AuditRecord.Precedes := by
  have stable := pairwise_mergeSort_of_pairwise (decide_le_trans AuditRecord.moment)
    (decide_le_total AuditRecord.moment) (fun audit => le_refl audit.id) (List.pairwise_map.mp arranged)
  refine stable.imp fun {audit other} listed => ?_
  obtain ⟨comes, tied⟩ := listed
  obtain before | same := lt_or_eq_of_le (of_decide_eq_true comes)
  · exact .inl before
  · exact .inr ⟨same, tied (decide_eq_true same.ge)⟩

lemma Ledger.listAudits_on {ledger : Ledger} (typed : ∀ audit ∈ ledger.store.audits, audit.Typed) :
    Action.on listAudits ledger = (.ok (byMoment ledger.store.audits), ledger) := by
  simp only [listAudits, Action.on_bind, Action.on_get, orderAudits_of_typed typed]
  rfl

end RepoAudit
