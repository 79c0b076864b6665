import RepoAudit.Proofs.Clock
import RepoAudit.Proofs.Store.Arranged
import RepoAudit.Proofs.Store.Writing

/-!
# The order of creation

A store has its audits in the order in which they were made, but it lists them in the order of the texts of their
moments. So two audits are listed in the order of their creation, unless the first one was made at a whole second and
the other one later in it (`Ledger.audits_are_listed_by_their_texts`).
-/

namespace RepoAudit

/-- The audit that an operation makes, if it is to make one, with the moment. -/
def Operation.makes (ledger : Ledger) : Operation → List (String × Instant)
  | createAudit .. => [(ledger.ids (ledger.drawn + 1), ledger.now)]
  | _ => []

/-- The audit that an operation gives another time of creation, if it is to give one. -/
def Operation.redates : Operation → List String
  | updateAudit id changes => if (auditChanges changes).any (·.1 == .createdAt) then [id] else []
  | _ => []

namespace Ledger

open Operation (auditChanges)

/-- A store that was empty and is used while time passes, with the audits that were made, the first one first, and
those of them that were given another time of creation. -/
inductive Chronicle : Ledger → List (String × Instant) → List String → Prop
  | opened {ledger : Ledger} : Function.Injective ledger.ids → ledger.store.audits = [] →
    ledger.store.findings = [] → ledger.now.Fits → Chronicle ledger [] []
  | did {ledger : Ledger} {made : List (String × Instant)} {redated : List String} (op : Operation) :
    Chronicle ledger made redated → op.Typed →
    Chronicle (Action.on op.action ledger).2 (made ++ op.makes ledger) (redated ++ op.redates)
  | passed {ledger : Ledger} {made : List (String × Instant)} {redated : List String} {now : Instant} :
    Chronicle ledger made redated → now.Fits → ledger.now.NotAfter now →
    Chronicle { ledger with now } made redated

/-- Those of the audits that were made which are there, the first one first. -/
def survivors (ledger : Ledger) (made : List (String × Instant)) : List (String × Instant) :=
  made.filter fun audit => (ledger.store.audit? audit.1).isSome

/-- Audits are kept in the order in which they were made, and have the moments in which they were. -/
structure Timely (ledger : Ledger) (made : List (String × Instant)) (redated : List String) : Prop where
  injective : Function.Injective ledger.ids
  intact : ledger.store.Intact
  fits : ledger.now.Fits
  moments : ∀ audit ∈ made, audit.2.Fits ∧ audit.2.NotAfter ledger.now
  ordered : made.Pairwise fun first second => first.2.NotAfter second.2
  drawn : ∀ audit ∈ made, ∃ n ≤ ledger.drawn, ledger.ids n = audit.1
  distinct : (made.map (·.1)).Nodup
  stored : (ledger.store.audits.map (·.id)).Sublist (made.map (·.1))
  dated : ∀ audit ∈ made, audit.1 ∉ redated → ∀ record, ledger.store.audit? audit.1 = some record →
    record.createdAt = .text audit.2.text

section Step

variable {ledger : Ledger} {made : List (String × Instant)} {redated : List String} {op : Operation} {store : Store}

/-- An audit whose id was not drawn yet is missing. -/
lemma Timely.missing (timely : Timely ledger made redated) {n : Nat} (later : ledger.drawn < n) :
    ledger.ids n ∉ made.map (·.1) ∧ ledger.store.audit? (ledger.ids n) = none := by
  have unmade : ledger.ids n ∉ made.map (·.1) := by
    intro member
    obtain ⟨audit, stored, same⟩ := List.mem_map.mp member
    obtain ⟨m, before, is⟩ := timely.drawn audit stored
    obtain rfl := timely.injective (is.trans same)
    omega
  refine ⟨unmade, (find?_eq_none_iff AuditRecord.id).mpr fun stored => unmade ?_⟩
  exact timely.stored.subset stored

/-- The audits after an operation: those that were there, apart from one that is deleted, and the one that is made. -/
lemma Timely.stored_target (timely : Timely ledger made redated) (is : op.target ledger = some store) :
    (store.audits.map (·.id)).Sublist ((made ++ op.makes ledger).map (·.1)) := by
  have stored := timely.stored
  have put {audit old : AuditRecord} {id : String} (found : ledger.store.audit? id = some old)
      (same : audit.id = id) : ((ledger.store.putAudit audit).audits.map (·.id)) = ledger.store.audits.map (·.id) := by
    subst same
    rw [Store.putAudit, if_pos (by rw [found]; rfl)]
    exact map_replaceKeyed AuditRecord.id audit ledger.store.audits
  cases op with
  | createAudit owner name address =>
    obtain rfl := Option.some.inj is
    have missing := (timely.missing (Nat.lt_succ_self ledger.drawn)).2
    have unstored : ¬ (ledger.store.audit? (newAudit (ledger.ids (ledger.drawn + 1)) owner name address
        ledger.now).id).isSome := by
      rw [newAudit, missing]
      exact Bool.false_ne_true
    rw [Store.putAudit, if_neg unstored, List.map_append, List.map_append]
    exact stored.append (.refl _)
  | updateAudit id changes =>
    simp only [Operation.target, Option.ite_none_right_eq_some, Option.map_eq_some_iff] at is
    obtain ⟨-, old, found, rfl⟩ := is
    rw [put found ((AuditRecord.change_id _ _).trans (Store.id_of_audit? found))]
    simpa only [Operation.makes, List.append_nil] using stored
  | deleteAudit id =>
    obtain ⟨old, -, rfl⟩ := Option.map_eq_some_iff.mp is
    simp only [Operation.makes, List.append_nil]
    exact (List.filter_sublist.map _).trans stored
  | createFinding auditId draft =>
    obtain ⟨old, -, rfl⟩ := Option.map_eq_some_iff.mp is
    simpa only [Store.audits_putFinding, Operation.makes, List.append_nil] using stored
  | updateFinding id changes =>
    simp only [Operation.target, Option.ite_none_right_eq_some, Option.map_eq_some_iff] at is
    obtain ⟨-, old, -, rfl⟩ := is
    simpa only [Store.audits_putFinding, Operation.makes, List.append_nil] using stored
  | deleteFinding id =>
    obtain ⟨old, -, rfl⟩ := Option.map_eq_some_iff.mp is
    simpa only [Store.audits_dropFinding, Operation.makes, List.append_nil] using stored

/-- An audit that is there after an operation was there before and is of the same time, unless it is made or given
another time. -/
lemma createdAt_target {record : AuditRecord} {id : String} (is : op.target ledger = some store)
    (found : store.audit? id = some record) (undated : id ∉ op.redates) :
    (∃ old, ledger.store.audit? id = some old ∧ record.createdAt = old.createdAt) ∨
      (id, ledger.now) ∈ op.makes ledger ∧ record.createdAt = .text ledger.now.text := by
  cases op with
  | createAudit owner name address =>
    obtain rfl := Option.some.inj is
    rw [Store.audit?_putAudit] at found
    split at found
    · next same =>
      obtain rfl := Option.some.inj found
      exact .inr ⟨List.mem_singleton.mpr (by rw [same]; rfl), rfl⟩
    · exact .inl ⟨record, found, rfl⟩
  | updateAudit id' changes =>
    simp only [Operation.target, Option.ite_none_right_eq_some, Option.map_eq_some_iff] at is
    obtain ⟨-, old, found', rfl⟩ := is
    rw [Store.audit?_putAudit, AuditRecord.change_id, Store.id_of_audit? found'] at found
    split at found
    · next same =>
      subst same
      obtain rfl := Option.some.inj found
      have unnamed : ∀ change ∈ auditChanges changes, change.1 ≠ .createdAt := fun change named same => by
        have names : (auditChanges changes).any (·.1 == .createdAt) = true :=
          List.any_eq_true.mpr ⟨change, named, by simpa using same⟩
        rw [Operation.redates, if_pos names] at undated
        exact undated (List.mem_singleton_self _)
      exact .inl ⟨old, found', AuditRecord.get_change_of_notMem unnamed old⟩
    · exact .inl ⟨record, found, rfl⟩
  | deleteAudit id' =>
    obtain ⟨old, -, rfl⟩ := Option.map_eq_some_iff.mp is
    rw [Store.audit?_dropAudit] at found
    split at found
    · cases found
    · exact .inl ⟨record, found, rfl⟩
  | createFinding auditId draft =>
    obtain ⟨old, -, rfl⟩ := Option.map_eq_some_iff.mp is
    rw [Store.audit?_putFinding] at found
    exact .inl ⟨record, found, rfl⟩
  | updateFinding id' changes =>
    simp only [Operation.target, Option.ite_none_right_eq_some, Option.map_eq_some_iff] at is
    obtain ⟨-, old, -, rfl⟩ := is
    rw [Store.audit?_putFinding] at found
    exact .inl ⟨record, found, rfl⟩
  | deleteFinding id' =>
    obtain ⟨old, -, rfl⟩ := Option.map_eq_some_iff.mp is
    exact .inl ⟨record, found, rfl⟩

/-- An operation makes no audit, or one under the id that it draws. -/
lemma makes_cases (op : Operation) (ledger : Ledger) : op.makes ledger = [] ∨
    op.draws = 1 ∧ op.makes ledger = [(ledger.ids (ledger.drawn + 1), ledger.now)] := by
  cases op with
  | createAudit owner name address => exact .inr ⟨rfl, rfl⟩
  | _ => exact .inl rfl

lemma moment_of_makes {audit : String × Instant} (new : audit ∈ op.makes ledger) :
    op.draws = 1 ∧ audit = (ledger.ids (ledger.drawn + 1), ledger.now) := by
  obtain none | ⟨draws, one⟩ := makes_cases op ledger
  · rw [none] at new
    cases new
  · exact ⟨draws, List.mem_singleton.mp (one ▸ new)⟩

/-- After an operation an audit that was made by it or before is still of the time when it was made, unless it was given
another. -/
lemma Timely.dated_target {audit : String × Instant} {record : AuditRecord} (timely : Timely ledger made redated)
    (is : op.target ledger = some store) (there : audit ∈ made ++ op.makes ledger) (unredated : audit.1 ∉ redated)
    (undated : audit.1 ∉ op.redates) (found : store.audit? audit.1 = some record) :
    record.createdAt = .text audit.2.text := by
  obtain ⟨unmade, missing⟩ := timely.missing (Nat.lt_succ_self ledger.drawn)
  have moment (new : audit ∈ op.makes ledger) : audit = (ledger.ids (ledger.drawn + 1), ledger.now) :=
    (moment_of_makes new).2
  obtain ⟨old, found', same⟩ | ⟨new, is'⟩ := createdAt_target is found undated
  · obtain before | new := List.mem_append.mp there
    · exact same.trans (timely.dated audit before unredated old found')
    · rw [moment new, missing] at found'
      cases found'
  · obtain before | new' := List.mem_append.mp there
    · have old : audit.1 ∈ made.map (·.1) := List.mem_map_of_mem before
      rw [congrArg Prod.fst (moment_of_makes new).2] at old
      exact absurd old unmade
    · rw [moment new']
      exact is'

/-- An operation keeps audits in the order in which they were made. -/
lemma Timely.step (timely : Timely ledger made redated) (typed : op.Typed) :
    Timely (Action.on op.action ledger).2 (made ++ op.makes ledger) (redated ++ op.redates) := by
  obtain ⟨disk, does⟩ := op.leaves ledger
  obtain ⟨unmade, missing⟩ := timely.missing (Nat.lt_succ_self ledger.drawn)
  rw [does]
  refine ⟨timely.injective, ?_, timely.fits, fun audit stored => ?_, ?_, fun audit stored => ?_, ?_, ?_, ?_⟩
  · cases is : op.target ledger with
    | none => exact timely.intact
    | some store => exact (Operation.changed typed is).intact timely.intact
  · obtain old | new := List.mem_append.mp stored
    · exact timely.moments audit old
    · obtain ⟨-, rfl⟩ := moment_of_makes new
      exact ⟨timely.fits, le_refl _⟩
  · refine List.pairwise_append.mpr ⟨timely.ordered, ?_, fun first old second new => ?_⟩
    · obtain none | ⟨-, one⟩ := makes_cases op ledger
      · rw [none]
        exact .nil
      · rw [one]
        exact List.pairwise_singleton _ _
    · obtain ⟨-, rfl⟩ := moment_of_makes new
      exact (timely.moments first old).2
  · obtain old | new := List.mem_append.mp stored
    · obtain ⟨n, before, is⟩ := timely.drawn audit old
      exact ⟨n, Nat.le_add_right_of_le before, is⟩
    · obtain ⟨draws, rfl⟩ := moment_of_makes new
      exact ⟨ledger.drawn + 1, by rw [draws], rfl⟩
  · rw [List.map_append]
    obtain none | ⟨-, one⟩ := makes_cases op ledger
    · simpa [none] using timely.distinct
    · rw [one]
      refine List.nodup_append.mpr ⟨timely.distinct, List.nodup_singleton _, fun first old second new same => unmade ?_⟩
      rw [same, List.mem_singleton.mp new] at old
      exact old
  · cases is : op.target ledger with
    | none =>
      rw [List.map_append]
      exact timely.stored.trans (List.sublist_append_left _ _)
    | some store => exact timely.stored_target is
  · intro audit stored undated record found
    obtain ⟨before, after⟩ : audit.1 ∉ redated ∧ audit.1 ∉ op.redates := by simpa using undated
    cases is : op.target ledger with
    | none =>
      rw [is] at found
      obtain old | new := List.mem_append.mp stored
      · exact timely.dated audit old before record found
      · obtain ⟨-, rfl⟩ := moment_of_makes new
        cases missing.symm.trans found
    | some store =>
      rw [is] at found
      exact timely.dated_target is stored before after found

lemma Chronicle.timely (chronicle : Chronicle ledger made redated) : Timely ledger made redated := by
  induction chronicle with
  | @opened ledger injective audits findings fits =>
    refine ⟨injective, ⟨?_, ?_, ?_, ?_, ?_⟩, fits, nofun, .nil, nofun, .nil, ?_, nofun⟩
    · simp [audits]
    · simp [Store.Keyed, findings]
    · simp [findings]
    · simp [audits]
    · simp [findings]
    · simp [audits]
  | did op _ typed ih => exact ih.step typed
  | passed _ fits later ih =>
    exact ⟨ih.injective, ih.intact, fits, fun audit stored =>
      ⟨(ih.moments audit stored).1, le_trans (ih.moments audit stored).2 later⟩, ih.ordered, ih.drawn, ih.distinct,
      ih.stored, ih.dated⟩

end Step

section Listing

variable {ledger : Ledger} {made : List (String × Instant)} {redated : List String}

/-- Of a list without repetitions the items that are in a part of it are that part. -/
lemma filter_of_sublist {α : Type} {part items : List α} {kept : α → Bool} (within : part.Sublist items)
    (distinct : items.Nodup) (are : ∀ item ∈ items, (kept item = true ↔ item ∈ part)) : items.filter kept = part := by
  induction within with
  | slnil => rfl
  | @cons part items item within ih =>
    obtain ⟨new, distinct⟩ := List.nodup_cons.mp distinct
    have dropped : ¬ kept item = true := fun keeps => new (within.subset ((are item List.mem_cons_self).mp keeps))
    rw [List.filter_cons, if_neg dropped]
    exact ih distinct fun other stored => are other (.tail _ stored)
  | @cons_cons part items item within ih =>
    obtain ⟨new, distinct⟩ := List.nodup_cons.mp distinct
    rw [List.filter_cons, if_pos ((are item List.mem_cons_self).mpr List.mem_cons_self)]
    refine congrArg (item :: ·) (ih distinct fun other stored => ?_)
    have apart : other ≠ item := fun same => new (same ▸ stored)
    simpa [apart] using are other (.tail _ stored)

/-- The audits are kept in the order in which they were made. -/
lemma Timely.ids (timely : Timely ledger made redated) :
    (ledger.survivors made).map (·.1) = ledger.store.audits.map (·.id) := by
  have same : (ledger.survivors made).map (·.1) =
      (made.map (·.1)).filter fun id => (ledger.store.audit? id).isSome := by
    rw [List.filter_map]
    rfl
  rw [same]
  refine filter_of_sublist timely.stored timely.distinct fun id _ => ?_
  rw [← Option.ne_none_iff_isSome, Ne, Store.audit?, find?_eq_none_iff AuditRecord.id, not_not]

/-- An audit that was made and is there has the moment in which it was made. -/
lemma Timely.moment (timely : Timely ledger made redated) {audit : String × Instant} {record : AuditRecord}
    (stored : audit ∈ made) (undated : audit.1 ∉ redated) (there : record ∈ ledger.store.audits)
    (same : record.id = audit.1) : record.moment = audit.2.text := by
  have found : ledger.store.audit? audit.1 = some record :=
    (find?_eq_some_iff_mem AuditRecord.id timely.intact.audits).mpr ⟨there, same⟩
  rw [AuditRecord.moment, timely.dated audit stored undated record found]
  rfl

/-- Two records stand one after the other just when their keys do. -/
lemma pair_sublist_map_iff {α β : Type} {key : α → β} {items : List α} {first second : α}
    (distinct : (items.map key).Nodup) (stored : first ∈ items) (stored' : second ∈ items) :
    [key first, key second].Sublist (items.map key) ↔ [first, second].Sublist items := by
  constructor
  · intro keys
    obtain ⟨records, there, same⟩ := List.sublist_map_iff.mp keys
    obtain ⟨record, other, rfl⟩ : ∃ record other, records = [record, other] :=
      List.length_eq_two.mp (by simpa using (congrArg List.length same).symm)
    obtain ⟨same, same', -⟩ : key first = key record ∧ key second = key other ∧ True := by simpa using same
    obtain rfl := List.inj_on_of_nodup_map distinct stored (there.subset (.head _)) same
    obtain rfl := List.inj_on_of_nodup_map distinct stored' (there.subset (.tail _ (.head _))) same'
    exact there
  · exact fun there => there.map key

/-- Two audits that are kept one after the other are listed so just when the text of the first one's moment is not
greater. -/
lemma pair_byMoment_iff {audits : List AuditRecord} {first second : AuditRecord}
    (kept : [first, second].Sublist audits) :
    [first, second].Sublist (byMoment audits) ↔ first.moment ≤ second.moment := by
  constructor
  · intro listed
    have sorted := List.pairwise_mergeSort (decide_le_trans AuditRecord.moment) (decide_le_total AuditRecord.moment)
      audits
    exact of_decide_eq_true (List.pairwise_iff_forall_sublist.mp sorted listed)
  · intro ordered
    exact List.pair_sublist_mergeSort (decide_le_trans AuditRecord.moment) (decide_le_total AuditRecord.moment)
      (decide_eq_true ordered) kept

/-- Two audits that were made one after the other are listed so, unless the first one was made at the whole second of
the other one. -/
lemma Timely.listed_iff (timely : Timely ledger made redated) {first second : String × Instant}
    (survive : [first, second].Sublist (ledger.survivors made)) (undated : first.1 ∉ redated)
    (undated' : second.1 ∉ redated) :
    [first.1, second.1].Sublist ((byMoment ledger.store.audits).map (·.id)) ↔ ¬ first.2.Opens second.2 := by
  have within : [first, second].Sublist made := survive.trans List.filter_sublist
  have stored : first ∈ made := within.subset (.head _)
  have stored' : second ∈ made := within.subset (.tail _ (.head _))
  have ordered : first.2.NotAfter second.2 := List.pairwise_iff_forall_sublist.mp timely.ordered within
  have ids : [first.1, second.1].Sublist (ledger.store.audits.map (·.id)) := by
    rw [← timely.ids]
    exact survive.map (·.1)
  obtain ⟨record, there, same⟩ := List.mem_map.mp (ids.subset (.head _))
  obtain ⟨other, there', same'⟩ := List.mem_map.mp (ids.subset (.tail _ (.head _)))
  have listed := byMoment_perm ledger.store.audits
  have distinct := (listed.map (·.id)).nodup_iff.mpr timely.intact.audits
  rw [← same, ← same'] at ids ⊢
  rw [pair_sublist_map_iff distinct (listed.mem_iff.mpr there) (listed.mem_iff.mpr there'),
    pair_byMoment_iff ((pair_sublist_map_iff timely.intact.audits there there').mp ids),
    timely.moment stored undated there same, timely.moment stored' undated' there' same',
    Instant.text_le_iff (timely.moments first stored).1 (timely.moments second stored').1 ordered]

/-- Where no two audits are listed otherwise than they were made, all are listed as they are kept. -/
lemma Timely.byMoment_eq (timely : Timely ledger made [])
    (apart : (ledger.survivors made).Pairwise fun first second => ¬ first.2.Opens second.2) :
    byMoment ledger.store.audits = ledger.store.audits := by
  have distinct := ((byMoment_perm ledger.store.audits).map (·.id)).nodup_iff.mpr timely.intact.audits
  refine List.mergeSort_of_pairwise (List.pairwise_iff_forall_sublist.mpr fun {record other} kept => ?_)
  have listed {record : AuditRecord} (there : record ∈ ledger.store.audits) : record ∈ byMoment ledger.store.audits :=
    (byMoment_perm _).mem_iff.mpr there
  have ids : [record.id, other.id].Sublist ((ledger.survivors made).map (·.1)) := by
    rw [timely.ids]
    exact kept.map (·.id)
  obtain ⟨audits, survive, same⟩ := List.sublist_map_iff.mp ids
  obtain ⟨first, second, rfl⟩ : ∃ first second, audits = [first, second] :=
    List.length_eq_two.mp (by simpa using (congrArg List.length same).symm)
  obtain ⟨is, is', -⟩ : record.id = first.1 ∧ other.id = second.1 ∧ True := by simpa using same
  have in_order := (timely.listed_iff survive List.not_mem_nil List.not_mem_nil).mpr
    (List.pairwise_iff_forall_sublist.mp apart survive)
  rw [← is, ← is', pair_sublist_map_iff distinct (listed (kept.subset (.head _)))
    (listed (kept.subset (.tail _ (.head _)))), pair_byMoment_iff kept] at in_order
  exact decide_eq_true in_order

/-- The audits that were made and are there are listed, each once. Two of them are listed in the order of their
creation, unless the first one was made at the whole second of the other one, or one of them was given another time of
creation. So where none was given another one, all are listed in the order of their creation just when no two of them
are such. -/
theorem audits_are_listed_by_their_texts (chronicle : Chronicle ledger made redated) :
    ∃ listed, Action.on listAudits ledger = (.ok listed, ledger) ∧
      (listed.map (·.id)).Perm ((ledger.survivors made).map (·.1)) ∧
      (∀ first second, [first, second].Sublist (ledger.survivors made) → first.1 ∉ redated → second.1 ∉ redated →
        ([first.1, second.1].Sublist (listed.map (·.id)) ↔ ¬ first.2.Opens second.2)) ∧
      (redated = [] → (listed.map (·.id) = (ledger.survivors made).map (·.1) ↔
        (ledger.survivors made).Pairwise fun first second => ¬ first.2.Opens second.2)) := by
  have timely := chronicle.timely
  have perm : ((byMoment ledger.store.audits).map (·.id)).Perm ((ledger.survivors made).map (·.1)) := by
    rw [timely.ids]
    exact (byMoment_perm ledger.store.audits).map _
  refine ⟨byMoment ledger.store.audits, Ledger.listAudits_on timely.intact.typed.audits, perm,
    fun first second => timely.listed_iff, ?_⟩
  rintro rfl
  constructor
  · intro same
    refine List.pairwise_iff_forall_sublist.mpr fun {first second} survive => ?_
    refine (timely.listed_iff survive List.not_mem_nil List.not_mem_nil).mp ?_
    rw [same]
    exact survive.map (·.1)
  · intro apart
    rw [timely.byMoment_eq apart, timely.ids]

end Listing

section Sample

/-- An empty store at a whole second. -/
def midnight : Ledger where
  now := ⟨2024, 1, 1, 0, 0, 0, 0⟩
  ids := fun n => String.ofList (List.replicate n 'i')

/-- The next instant. -/
def afterMidnight : Instant := ⟨2024, 1, 1, 0, 0, 0, 1⟩

/-- An audit is made at a whole second. -/
def madeFirst : Ledger := (Action.on (Operation.createAudit "acme" "shop" "").action midnight).2

/-- Another one is made a microsecond later. -/
def madeBoth : Ledger :=
  (Action.on (Operation.createAudit "acme" "shop" "").action { madeFirst with now := afterMidnight }).2

lemma fits_midnight : midnight.now.Fits :=
  ⟨.cons (by decide) (.cons (by decide) (.cons (by decide) (.cons (by decide) (.cons (by decide)
    (.cons (by decide) .nil))))), by decide⟩

lemma fits_afterMidnight : afterMidnight.Fits :=
  ⟨fits_midnight.fields, by decide⟩

lemma madeBoth_chronicle : Chronicle madeBoth [("i", midnight.now), ("ii", afterMidnight)] [] := by
  have injective : Function.Injective midnight.ids := fun m n same => by
    have length := congrArg String.length same
    simpa [midnight] using length
  have typed : (Operation.createAudit "acme" "shop" "").Typed := trivial
  have later : madeFirst.now.NotAfter afterMidnight := by decide
  have opened : Chronicle midnight [] [] := .opened injective rfl rfl fits_midnight
  have first : Chronicle madeFirst [("i", midnight.now)] [] := opened.did _ typed
  exact (first.passed fits_afterMidnight later).did (.createAudit "acme" "shop" "") typed

/-- An audit that is made at a whole second is not listed before one that is made in the next microsecond. -/
theorem audits_are_listed_by_their_texts_midnight : ∃ listed,
    Action.on listAudits madeBoth = (.ok listed, madeBoth) ∧
    (madeBoth.survivors [("i", midnight.now), ("ii", afterMidnight)]).map (·.1) = ["i", "ii"] ∧
    listed.map (·.id) ≠ ["i", "ii"] := by
  obtain ⟨listed, lists, -, -, exact⟩ := audits_are_listed_by_their_texts madeBoth_chronicle
  have survive : madeBoth.survivors [("i", midnight.now), ("ii", afterMidnight)] =
      [("i", midnight.now), ("ii", afterMidnight)] := by decide +kernel
  rw [survive] at exact
  refine ⟨listed, lists, by rw [survive]; rfl, fun same => ?_⟩
  have apart := (exact rfl).mp same
  exact absurd (show midnight.now.Opens afterMidnight by decide) (List.pairwise_pair.mp apart)

end Sample

end Ledger

end RepoAudit
