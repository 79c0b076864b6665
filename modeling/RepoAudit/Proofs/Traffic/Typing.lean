import RepoAudit.Proofs.Scan.Calls
import RepoAudit.Proofs.Scan.Opening
import RepoAudit.Proofs.Store.Intact
import RepoAudit.Proofs.Traffic.Errand

/-!
# Typed calls

Scans and requests for scans keep typed values, whatever they are replied, as long as the host tells of no
language twice. So by each of their calls, and by each errand with such values, a ledger leads to another one as
`Ledger.Leads` says.
-/

namespace RepoAudit

/-- Languages with names of their own. -/
def Named (languages : List (String × Int)) : Prop := (languages.map (·.1)).Nodup

/-- A host that tells of no language twice. -/
def SourceHost.Typed (host : SourceHost) : Prop :=
  ∀ owner name languages, host.languages owner name = .ok languages → Named languages

/-- A call that keeps typed values. -/
def Call.Typed : Call → Prop
  | updateAudit _ changes => ∀ change ∈ changes, change.1.Admits change.2
  | createFinding _ draft => ∀ field, (draft.get field).isPlain 0 = true
  | _ => True

/-- An errand that keeps typed values. -/
def Errand.Typed : Errand → Prop
  | createFinding _ draft => ∀ field, (draft.get field).isPlain 0 = true
  | updateFinding _ changes => ∀ change ∈ changes, change.2.isPlain 0 = true
  | _ => True

/-- A step that is no errand, or one that keeps typed values. -/
def Happening.Typed : Happening → Prop
  | did errand _ => errand.Typed
  | _ => True

namespace Scan

/-- The contract of programs that keep typed values. -/
def typing : Contract Unit where
  allows _ := Call.Typed
  replies _ := Tells Named
  next _ _ := ()

lemma Makes.typed {auditId : String} {c : Call} (makes : Makes Named auditId c) : c.Typed := by
  cases makes with
  | now | looks | hostName | repository | languages | tree | file => exact trivial
  | logs log => exact List.forall_mem_singleton.mpr ⟨log.entries, rfl⟩
  | @keepsSnapshot snapshot named => exact List.forall_mem_singleton.mpr (.inr ⟨snapshot, named, rfl⟩)
  | keepsTree tree => exact List.forall_mem_singleton.mpr ⟨tree, rfl⟩
  | adds finding =>
    intro field
    cases field <;> simp [FindingRecord.ofFinding, FindingRecord.get]
  | ends now summary =>
    simp only [Call.Typed, ending, List.forall_mem_cons]
    exact ⟨⟨_, rfl⟩, .inr ⟨_, rfl⟩, .inr ⟨_, rfl⟩, List.forall_mem_nil _⟩
  | concludes now scores summary plan =>
    simp only [Call.Typed, List.forall_mem_cons]
    exact ⟨⟨_, rfl⟩, .inr ⟨scores, rfl⟩, .inr ⟨_, rfl⟩, .inr ⟨plan, rfl⟩, .inr ⟨_, rfl⟩, List.forall_mem_nil _⟩

lemma typed_of_openingAllows {auditId : String} {s : Opening} {c : Call} (allowed : openingAllows auditId s c) :
    c.Typed := by
  cases s with
  | fresh | seen | begun =>
    cases allowed
    exact trivial
  | clearing left =>
    cases left with
    | nil =>
      cases allowed
      simp only [Call.Typed, beginning, List.forall_mem_cons]
      exact ⟨⟨_, rfl⟩, .inl rfl, .inl rfl, .inl rfl, ⟨[], rfl⟩, .inl rfl, List.forall_mem_nil _⟩
    | cons finding rest =>
      cases allowed
      exact trivial
  | refused found =>
    obtain rfl | ⟨now, rfl⟩ := allowed
    · exact trivial
    · simp only [Call.Typed, refusal, List.forall_mem_cons]
      exact ⟨⟨_, rfl⟩, .inr ⟨_, rfl⟩, .inr ⟨_, rfl⟩, List.forall_mem_nil _⟩
  | granted found number => obtain rfl | rfl := allowed <;> exact trivial
  | closed => exact allowed.elim

end Scan

/-- A program that keeps typed values. -/
def Program.Typed {α : Type} (program : Program α) : Prop := program.Keeps Scan.typing (fun _ _ => True) ()

lemma Scan.typed_run (engine : Engine) (auditId : String) : (run engine auditId).Typed := by
  have keeps : (run engine auditId).Keeps (manner Named auditId) (Ended auditId) [] := ended_run List.nodup_nil
  exact Program.Keeps.mono (fun _ _ _ => trivial)
    (keeps.weaken (fun _ _ _ => Makes.typed) fun _ _ _ tells => tells)

lemma Scan.typed_start (auditId : String) : (start auditId).run.Typed :=
  Program.Keeps.mono (fun _ _ _ => trivial)
    (opens_start.weaken (fun _ _ _ => typed_of_openingAllows) fun _ _ _ _ => trivial)

/-- A typed program makes a typed call, and it is typed after the reply of a host that tells of no language
twice. -/
lemma Program.Typed.call {α : Type} {c : Call} {next : c.Reply → Program α} (typed : (Program.call c next).Typed)
    {world : World} (host : world.host.Typed) : c.Typed ∧ (next (world.perform c).1).Typed := by
  refine ⟨typed.1, typed.2 _ ?_⟩
  -- Only the reply about languages has to be as it is counted on.
  cases c with
  | languages owner name =>
    show Scan.Tells Named ⟨.languages owner name, world.host.languages owner name⟩
    rcases told : world.host.languages owner name with reason | languages
    · exact trivial
    · exact host owner name languages told
  | _ => exact trivial

namespace Ledger

lemma leads_updateAudit (id : String) {changes : List (AuditField × Json)} (ledger : Ledger)
    (typed : ∀ change ∈ changes, change.1.Admits change.2) :
    ledger.Leads (Action.on (updateAudit id changes) ledger).2 := by
  obtain ⟨-, does⟩ | ⟨audit, reply, disk, found, -, does⟩ := updateAudit_on id changes ledger
  · rw [does]
    exact .refl ledger
  · rw [does]
    exact ⟨rfl, .changes found typed⟩

end Ledger

lemma Errand.leads {errand : Errand} (typed : errand.Typed) (ledger : Ledger) :
    ledger.Leads (Ledger.Action.on errand.action ledger).2 := by
  have does := errand.does ledger
  generalize (Ledger.Action.on errand.action ledger).2 = after at does
  refine ⟨does.ids, ?_⟩
  cases does with
  | nothing => exact .keeps (Nat.le_refl _)
  | misses => exact .keeps (Nat.le_succ _)
  | makes owner name address disk => exact .makes rfl (Ledger.typed_newAudit _ _ _ _ _)
  | discards disk found idle => exact .discards _
  | files draft disk found => exact .files found typed
  | changes changes disk found => exact .amends found typed
  | drops disk found => exact .drops _

namespace Ledger

/-- A change of an audit by names, with values of the fields that are named. -/
lemma leads_updateAuditByName (id : String) {changes : List (String × Json)} (ledger : Ledger)
    (typed : ∀ change ∈ changes, ∀ field, AuditField.ofName? change.1 = some field → field.Admits change.2) :
    ledger.Leads (Action.on (updateAuditByName id changes) ledger).2 := by
  obtain ⟨error, does⟩ | does := updateAuditByName_on id changes ledger
  · rw [does]
    exact .refl ledger
  · rw [does]
    refine leads_updateAudit id ledger fun change named => ?_
    obtain ⟨given, stored, is⟩ := List.mem_filterMap.mp named
    obtain ⟨field, found, rfl⟩ := Option.map_eq_some_iff.mp is
    exact typed given stored field found

/-- A change of a finding by names, with plain values. -/
lemma leads_updateFindingByName (id : String) {changes : List (String × Json)} (ledger : Ledger)
    (plain : ∀ change ∈ changes, change.2.isPlain 0 = true) :
    ledger.Leads (Action.on (updateFindingByName id changes) ledger).2 := by
  obtain ⟨error, does⟩ | does := updateFindingByName_on id changes ledger
  · rw [does]
    exact .refl ledger
  · rw [does]
    refine Errand.leads (show (Errand.updateFinding id _).Typed from fun change named => ?_) ledger
    obtain ⟨given, stored, is⟩ := List.mem_filterMap.mp named
    obtain ⟨field, -, rfl⟩ := Option.map_eq_some_iff.mp is
    exact plain given stored

end Ledger

lemma World.leads {c : Call} (typed : c.Typed) (world : World) : world.ledger.Leads (world.perform c).2.ledger := by
  cases c with
  | updateAudit id changes => exact Ledger.leads_updateAudit id world.ledger typed
  | createFinding auditId draft =>
    exact Errand.leads (show (Errand.createFinding auditId draft).Typed from typed) world.ledger
  | deleteFinding id => exact Errand.leads (show (Errand.deleteFinding id).Typed from trivial) world.ledger
  | _ => exact .refl world.ledger

end RepoAudit
