import RepoAudit.Proofs.Rule.Title
import RepoAudit.Proofs.Scan.Detection
import RepoAudit.Proofs.Traffic.Reach

/-!
# The lineage of findings

What becomes of the findings of a store. Each of them stays in its place or goes: one that stays keeps its id, its
audit and what it says about its detection (`FindingRecord.Continues`), and new findings come after all others, under
ids that were never in use (`Store.Follows`). Every operation on a store carries on in this way (`Ledger.CarriesOn`), as
long as what is entered and what is changed is of listed words.
-/

namespace RepoAudit

/-- The finding is what has become of an old one. -/
structure FindingRecord.Continues (finding old : FindingRecord) : Prop where
  id : finding.id = old.id
  auditId : finding.auditId = old.auditId
  autoDetected : finding.autoDetected = old.autoDetected
  listed : old.Listed → finding.Listed

/-- The findings of a store come after those of an earlier one. Some of these are left, in their order, and the new ones
stand behind them, under other ids and as the first argument says. -/
def Store.Follows (entered : FindingRecord → Prop) (before after : Store) : Prop :=
  ∃ kept added, after.findings = kept ++ added ∧ kept.SublistForall₂ FindingRecord.Continues before.findings ∧
    ∀ finding ∈ added, entered finding ∧ ∀ old ∈ before.findings, old.id ≠ finding.id

namespace FindingRecord

variable {origin : Bool → Prop} {finding old older : FindingRecord}

lemma Continues.refl (finding : FindingRecord) : finding.Continues finding := ⟨rfl, rfl, rfl, fun listed => listed⟩

lemma Continues.trans (second : finding.Continues old) (first : old.Continues older) : finding.Continues older :=
  ⟨second.id.trans first.id, second.auditId.trans first.auditId, second.autoDetected.trans first.autoDetected,
    fun listed => second.listed (first.listed listed)⟩

instance : Std.Refl Continues := ⟨.refl⟩

instance : IsTrans FindingRecord Continues := ⟨fun _ _ _ => .trans⟩

lemma Continues.enters (continues : finding.Continues old) (enters : old.Enters origin) : finding.Enters origin := by
  obtain ⟨listed, auto, asked, is⟩ := enters
  exact ⟨continues.listed listed, auto, asked, continues.autoDetected.trans is⟩

/-- A changed finding continues the old one when what it says about its detection is not changed. -/
lemma continues_change {changes : List (FindingField × Json)}
    (takes : ∀ change ∈ changes, change.1 ≠ .autoDetected ∧ change.1.Takes change.2) (finding : FindingRecord) :
    (finding.change changes).Continues finding where
  id := change_id finding changes
  auditId := change_auditId finding changes
  autoDetected := get_change_of_notMem (fun change member => (takes change member).1) finding
  listed listed := listed.change fun change member => (takes change member).2

end FindingRecord

section Sublists

variable {α β : Type} {R : α → β → Prop} {l : List α} {first second : List β}

/-- What is left of two lists is what is left of each. -/
lemma exists_of_sublistForall₂_append (sub : l.SublistForall₂ R (first ++ second)) :
    ∃ l₁ l₂, l = l₁ ++ l₂ ∧ l₁.SublistForall₂ R first ∧ l₂.SublistForall₂ R second := by
  induction first generalizing l with
  | nil => exact ⟨[], l, rfl, .nil, sub⟩
  | cons b first ih =>
    cases sub with
    | nil => exact ⟨[], [], rfl, .nil, .nil⟩
    | cons related sub =>
      obtain ⟨l₁, l₂, rfl, left, right⟩ := ih sub
      exact ⟨_ :: l₁, l₂, rfl, .cons related left, right⟩
    | cons_right sub =>
      obtain ⟨l₁, l₂, rfl, left, right⟩ := ih sub
      exact ⟨l₁, l₂, rfl, .cons_right left, right⟩

end Sublists

namespace Store.Follows

variable {entered weaker : FindingRecord → Prop} {before after : Store}

lemma mono (follows : before.Follows entered after) (imp : ∀ finding, entered finding → weaker finding) :
    before.Follows weaker after := by
  obtain ⟨kept, added, split, continues, new⟩ := follows
  exact ⟨kept, added, split, continues, fun finding member => (new finding member).imp_left (imp finding)⟩

/-- The finding that is found under the id of an old one continues it. -/
lemma continues (follows : before.Follows entered after) (keyed : before.Keyed) {old finding : FindingRecord}
    (stored : old ∈ before.findings) (there : finding ∈ after.findings) (same : finding.id = old.id) :
    finding.Continues old := by
  obtain ⟨kept, added, split, continues, new⟩ := follows
  rw [split] at there
  obtain left | late := List.mem_append.mp there
  · obtain ⟨other, listed, becomes⟩ := exists_of_mem_sublistForall₂ continues _ left
    obtain rfl : other = old := List.inj_on_of_nodup_map keyed listed stored (becomes.id.symm.trans same)
    exact becomes
  · exact absurd same.symm ((new finding late).2 old stored)

end Store.Follows

namespace Ledger

/-- A ledger becomes another one, in which findings were entered as is asked for. -/
structure CarriesOn (origin : Bool → Prop) (ledger after : Ledger) : Prop where
  ids : after.ids = ledger.ids
  drawn : ledger.drawn ≤ after.drawn
  findings : ∃ kept added, after.store.findings = kept ++ added ∧
    kept.SublistForall₂ FindingRecord.Continues ledger.store.findings ∧
    ∀ finding ∈ added, finding.Enters origin ∧ ∃ n, ledger.drawn < n ∧ finding.id = ledger.ids n
  orderly : after.Orderly

variable {origin weaker : Bool → Prop} {ledger between after : Ledger}

/-- Where findings only go, nothing is entered. -/
lemma CarriesOn.of_sublist (ids : after.ids = ledger.ids) (drawn : ledger.drawn ≤ after.drawn)
    (fewer : after.store.findings.Sublist ledger.store.findings) (orderly : after.Orderly) :
    ledger.CarriesOn origin after :=
  ⟨ids, drawn, ⟨_, [], (List.append_nil _).symm, fewer.sublistForall₂, fun _ none => nomatch none⟩, orderly⟩

lemma CarriesOn.refl (orderly : ledger.Orderly) : ledger.CarriesOn origin ledger :=
  .of_sublist rfl (Nat.le_refl _) (.refl _) orderly

lemma CarriesOn.mono (carries : ledger.CarriesOn origin after) (imp : ∀ auto, origin auto → weaker auto) :
    ledger.CarriesOn weaker after := by
  obtain ⟨ids, drawn, ⟨kept, added, split, continues, entered⟩, orderly⟩ := carries
  refine ⟨ids, drawn, ⟨kept, added, split, continues, fun finding member => ?_⟩, orderly⟩
  obtain ⟨enters, new⟩ := entered finding member
  exact ⟨enters.mono imp, new⟩

lemma CarriesOn.trans (first : ledger.CarriesOn origin between) (second : between.CarriesOn origin after) :
    ledger.CarriesOn origin after := by
  obtain ⟨ids, drawn, ⟨kept, added, split, continues, entered⟩, -⟩ := first
  obtain ⟨ids', drawn', ⟨kept', added', split', continues', entered'⟩, orderly⟩ := second
  rw [split] at continues'
  obtain ⟨old, new, rfl, ofKept, ofAdded⟩ := exists_of_sublistForall₂_append continues'
  have left : old.SublistForall₂ FindingRecord.Continues ledger.store.findings := IsTrans.trans _ _ _ ofKept continues
  refine ⟨ids'.trans ids, Nat.le_trans drawn drawn', ⟨old, new ++ added', ?_, left, ?_⟩, orderly⟩
  · rw [split', List.append_assoc]
  · -- What was entered first and is left has kept its id, and what was entered then has a later one.
    intro finding member
    obtain left | late := List.mem_append.mp member
    · obtain ⟨entry, listed, becomes⟩ := exists_of_mem_sublistForall₂ ofAdded _ left
      obtain ⟨enters, n, later, is⟩ := entered entry listed
      exact ⟨becomes.enters enters, n, later, becomes.id.trans is⟩
    · obtain ⟨enters, n, later, is⟩ := entered' finding late
      exact ⟨enters, n, Nat.lt_of_le_of_lt drawn later, ids ▸ is⟩

/-- Where all findings are of listed words, they stay so. -/
lemma CarriesOn.listed (carries : ledger.CarriesOn origin after)
    (listed : ∀ finding ∈ ledger.store.findings, finding.Listed) :
    ∀ finding ∈ after.store.findings, finding.Listed := by
  obtain ⟨-, -, ⟨kept, added, split, continues, entered⟩, -⟩ := carries
  intro finding stored
  rw [split] at stored
  obtain left | new := List.mem_append.mp stored
  · obtain ⟨old, member, becomes⟩ := exists_of_mem_sublistForall₂ continues _ left
    exact becomes.listed (listed old member)
  · exact (entered finding new).1.1

/-- What is entered has a new id, so the findings come after those before. -/
lemma CarriesOn.follows (carries : ledger.CarriesOn origin after) (orderly : ledger.Orderly) :
    ledger.store.Follows (fun finding => finding.Enters origin) after.store := by
  obtain ⟨-, -, ⟨kept, added, split, continues, entered⟩, -⟩ := carries
  refine ⟨kept, added, split, continues, fun finding member => ?_⟩
  obtain ⟨enters, n, later, is⟩ := entered finding member
  refine ⟨enters, fun old stored same => ?_⟩
  have found : ledger.store.finding? (ledger.ids n) = some old :=
    (find?_eq_some_iff_mem FindingRecord.id orderly.keyed).mpr ⟨stored, same.trans is⟩
  rw [orderly.drawsNew.unused n later] at found
  cases found

end Ledger

/-- An errand that enters findings as is asked for, and changes findings to listed words. -/
def Errand.Enters (origin : Bool → Prop) : Errand → Prop
  | createFinding _ draft => draft.Enters origin
  | updateFinding _ changes => ∀ change ∈ changes, change.1 ≠ .autoDetected ∧ change.1.Takes change.2
  | _ => True

section Effects

variable {origin : Bool → Prop}

/-- The finding of an id that is changed continues the old one, and the others stay. -/
lemma Store.continues_putFinding {store : Store} {id : String} {finding : FindingRecord}
    {changes : List (FindingField × Json)} (keyed : store.Keyed) (found : store.finding? id = some finding)
    (takes : ∀ change ∈ changes, change.1 ≠ .autoDetected ∧ change.1.Takes change.2) :
    (store.putFinding (finding.change changes)).findings.SublistForall₂ FindingRecord.Continues store.findings := by
  have present : (store.finding? (finding.change changes).id).isSome = true := by
    rw [FindingRecord.change_id, id_of_finding? found, found, Option.isSome_some]
  rw [putFinding, if_pos present, List.sublistForall₂_iff]
  refine ⟨store.findings, List.forall₂_map_left_iff.mpr (List.forall₂_same.mpr fun old stored => ?_), .refl _⟩
  split
  · next same =>
    -- No two findings share an id, so the one in this place is the one that is changed.
    have is : store.finding? id = some old := by
      refine (find?_eq_some_iff_mem FindingRecord.id keyed).mpr ⟨stored, ?_⟩
      rw [eq_of_beq same, FindingRecord.change_id, id_of_finding? found]
    obtain rfl := Option.some.inj (found.symm.trans is)
    exact FindingRecord.continues_change takes finding
  · exact .refl old

/-- Errands carry on as they enter findings. -/
lemma Errand.carriesOn {errand : Errand} {ledger : Ledger} (enters : errand.Enters origin) (orderly : ledger.Orderly) :
    ledger.CarriesOn origin (Ledger.Action.on errand.action ledger).2 := by
  have later := orderly.touches (Errand.touches (errand.about_true ledger.store) fun _ _ _ _ => trivial)
  have does := errand.does ledger
  generalize (Ledger.Action.on errand.action ledger).2 = after at does later
  have carries := @Ledger.CarriesOn.of_sublist origin ledger after does.ids does.drawn
  cases does with
  | nothing | misses => exact carries (.refl _) later
  | makes =>
    refine carries ?_ later
    rw [Store.findings_putAudit]
  | discards | drops => exact carries List.filter_sublist later
  | files draft =>
    obtain ⟨listed, auto, asked, is⟩ := enters
    have missing := orderly.drawsNew.unused _ (Nat.lt_succ_self ledger.drawn)
    refine ⟨rfl, Nat.le_succ _, ⟨_, [_], Store.findings_putFinding_of_missing missing,
      List.Sublist.sublistForall₂ (.refl _), ?_⟩, later⟩
    intro finding new
    obtain rfl := List.mem_singleton.mp new
    exact ⟨⟨listed.filed _ _, auto, asked, is⟩, _, Nat.lt_succ_self _, rfl⟩
  | changes changes disk found =>
    exact ⟨rfl, Nat.le_refl _, ⟨_, [], (List.append_nil _).symm, Store.continues_putFinding orderly.keyed found enters,
      fun _ none => nomatch none⟩, later⟩

lemma Ledger.carriesOn_updateAudit {ledger : Ledger} (id : String) (changes : List (AuditField × Json))
    (orderly : ledger.Orderly) : ledger.CarriesOn origin (Action.on (updateAudit id changes) ledger).2 := by
  have touches : ledger.Touches (fun _ => True) (Action.on (updateAudit id changes) ledger).2 :=
    touches_updateAudit changes ledger trivial
  have later := orderly.touches touches
  obtain ⟨-, does⟩ | ⟨audit, reply, disk, -, -, does⟩ := updateAudit_on id changes ledger
  · rw [does]
    exact .refl orderly
  · rw [does] at later ⊢
    refine .of_sublist rfl (Nat.le_refl _) ?_ later
    rw [Store.findings_putAudit]

/-- Calls carry on as they enter findings. -/
lemma World.carriesOn {c : Call} {world : World} (enters : c.Enters origin) (orderly : world.ledger.Orderly) :
    world.ledger.CarriesOn origin (world.perform c).2.ledger := by
  cases c with
  | updateAudit id changes => exact Ledger.carriesOn_updateAudit id changes orderly
  | createFinding auditId draft =>
    exact Errand.carriesOn (show (Errand.createFinding auditId draft).Enters origin from enters) orderly
  | deleteFinding id => exact Errand.carriesOn (show (Errand.deleteFinding id).Enters origin from trivial) orderly
  | _ => exact .refl orderly

/-- A program that keeps to what is asked for carries on so, from its first call to its last one. -/
lemma Program.Keeps.carriesOn {α : Type} {program : Program α} {post : α → Unit → Prop}
    (keeps : program.Keeps (entering origin) post ()) {world : World} (orderly : world.ledger.Orderly) :
    world.ledger.CarriesOn origin (program.run world).2.ledger := by
  induction program generalizing world with
  | done value => exact .refl orderly
  | call c next ih =>
    obtain ⟨enters, goes⟩ := keeps
    have first := World.carriesOn enters orderly
    exact first.trans (ih _ (goes _ trivial) first.orderly)

end Effects

end RepoAudit
