import RepoAudit.Proofs.Scan.Opening
import RepoAudit.Proofs.Traffic.Reach

/-!
# What programs are about

A scan or a request keeps to its audit by itself: what it changes, it changes of this audit, and the findings that a
request deletes were listed for it. In a store in which ids are drawn once this stays so whatever becomes of the store,
both for programs that are about other audits (`Program.Elsewhere`) and for requests for the audit
(`Program.Requests`). Once the executor has answered a request, little is left of it to do (`Program.Past`).
-/

namespace RepoAudit

/-- The findings that a request that has come so far is still to drop. -/
def Opening.left : Opening → List FindingRecord
  | clearing left => left
  | _ => []

namespace Scan

variable {auditId other : String} {phase : Opening} {c : Call}

/-- What a request is to drop was to be dropped before, or it has just been listed. -/
lemma mem_left_next {reply : c.Reply} (allowed : openingAllows other phase c) {finding : FindingRecord}
    (member : finding ∈ (phase.next ⟨c, reply⟩).left) : finding ∈ phase.left ∨
      ∃ findings, (⟨c, reply⟩ : Exchange) = ⟨.listFindings other, findings⟩ ∧ finding ∈ findings := by
  cases phase with
  | fresh =>
    cases allowed
    cases reply with
    | none => cases member
    | some audit => cases running : audit.isRunning <;> simp [Opening.next, running, Opening.left] at member
  | seen =>
    cases allowed
    exact .inr ⟨reply, rfl, List.mem_of_mem_filter member⟩
  | clearing left =>
    cases left with
    | nil =>
      cases allowed
      cases reply <;> cases member
    | cons first rest =>
      cases allowed
      cases reply with
      | error => cases member
      | ok => exact .inl (List.mem_cons_of_mem _ member)
  | begun =>
    cases allowed
    cases reply <;> cases member
  | refused => obtain rfl | ⟨now, rfl⟩ := allowed <;> cases member
  | granted => cases member
  | closed => exact allowed.elim

/-- The contract of a program that is not about the audit. Its state has the ids of findings that it may delete: those
that were listed for other audits. -/
def elsewhere (auditId : String) : Contract (List String) where
  allows ids
    | .updateAudit id _ | .createFinding id _ | .listFindings id | .submit id => id ≠ auditId
    | .deleteFinding id => id ∈ ids
    | _ => True
  next ids
    | ⟨.listFindings _, findings⟩ => findings.map (·.id) ++ ids
    | _ => ids

/-- A request that may delete what it is to drop, makes only calls that are not about the audit. -/
lemma elsewhere_of_opening {ids : List String} (apart : other ≠ auditId)
    (listed : ∀ finding ∈ phase.left, finding.id ∈ ids) (allowed : openingAllows other phase c) :
    (elsewhere auditId).allows ids c := by
  cases phase with
  | fresh =>
    cases allowed
    trivial
  | seen | begun =>
    cases allowed
    exact apart
  | clearing left =>
    cases left with
    | nil =>
      cases allowed
      exact apart
    | cons finding rest =>
      cases allowed
      exact listed _ List.mem_cons_self
  | refused =>
    obtain rfl | ⟨now, rfl⟩ := allowed
    · trivial
    · exact apart
  | granted => obtain rfl | rfl := allowed <;> trivial
  | closed => exact allowed.elim

lemma mem_next_elsewhere {ids : List String} {e : Exchange} {id : String} (known : id ∈ ids) :
    id ∈ (elsewhere auditId).next ids e := by
  obtain ⟨c, reply⟩ := e
  cases c with
  | listFindings => exact List.mem_append_right _ known
  | _ => exact known

end Scan

/-- A program that is not about the audit, with a store in which the findings that it may delete are not of it. -/
def Program.Elsewhere {α : Type} (auditId : String) (ledger : Ledger) (program : Program α) : Prop :=
  ∃ ids, program.Keeps (Scan.elsewhere auditId) (fun _ _ => True) ids ∧ ∀ id ∈ ids, ledger.Allotted false auditId id

section Elsewhere

variable {α : Type} {auditId id : String} {engine : Engine} {ledger after : Ledger} {about : String → Prop}

/-- A scan of another audit. -/
lemma Scan.elsewhere_run (other : id ≠ auditId) : (run engine id).Elsewhere auditId ledger := by
  have keeps : (run engine id).Keeps (elsewhere auditId) (fun _ _ => ∃ _ : Unit, True) [] := by
    refine confined_run.weaken (fun _ ids c stays => ?_) fun _ _ _ _ => trivial
    cases c with
    | updateAudit | createFinding => exact stays ▸ other
    | listFindings | deleteFinding | submit => exact stays.elim
    | _ => trivial
  exact ⟨[], keeps.mono fun _ _ _ => trivial, List.forall_mem_nil _⟩

/-- A request for a scan of another audit. -/
lemma Scan.elsewhere_start (other : id ≠ auditId) : (start id).run.Elsewhere auditId ledger := by
  have keeps : (start id).run.Keeps (elsewhere auditId) (fun result ids => ∃ phase : Opening,
      (∀ finding ∈ phase.left, finding.id ∈ ids) ∧
      (result = .ok started ↔ ∃ found number, phase = .granted found number)) [] := by
    refine opens_start.along (fun _ _ _ listed => elsewhere_of_opening other listed) (fun _ _ _ _ _ => trivial) ?_
      (List.forall_mem_nil _)
    rintro phase ids ⟨c, reply⟩ listed allowed - finding member
    obtain before | ⟨findings, is, stored⟩ := mem_left_next allowed member
    · exact mem_next_elsewhere (listed finding before)
    · cases is
      exact List.mem_append_left _ (List.mem_map_of_mem stored)
  exact ⟨[], keeps.mono fun _ _ _ => trivial, List.forall_mem_nil _⟩

lemma Program.Elsewhere.touches {program : Program α} (elsewhere : program.Elsewhere auditId ledger)
    (orderly : ledger.Orderly) (touches : ledger.Touches about after) : program.Elsewhere auditId after := by
  obtain ⟨ids, keeps, foreign⟩ := elsewhere
  exact ⟨ids, keeps, fun id drawn => (foreign id drawn).touches orderly touches⟩

/-- A call of such a program is about other audits, and the program stays such a one. -/
lemma Program.Elsewhere.call {c : Call} {next : c.Reply → Program α} {world : World}
    (elsewhere : (Program.call c next).Elsewhere auditId world.ledger) (orderly : world.ledger.Orderly) :
    c.About (· ≠ auditId) world.ledger.store ∧
      (next (world.perform c).1).Elsewhere auditId (world.perform c).2.ledger ∧ c ≠ .submit auditId := by
  obtain ⟨ids, ⟨allowed, goes⟩, foreign⟩ := elsewhere
  have about : c.About (· ≠ auditId) world.ledger.store := by
    cases c with
    | updateAudit | createFinding => exact allowed
    | deleteFinding id =>
      rintro finding found auditId ofAudit rfl
      rw [(foreign id allowed).whose finding found] at ofAudit
      cases ofAudit
    | _ => trivial
  refine ⟨about, ⟨_, goes (world.perform c).1 trivial, fun id known => ?_⟩, ?_⟩
  · cases c with
    | listFindings other =>
      obtain listed | before := List.mem_append.mp known
      · obtain ⟨finding, stored, rfl⟩ := List.mem_map.mp listed
        exact orderly.allotted (beq_false_of_ne allowed) stored
      · exact foreign id before
    | _ => exact (foreign id known).touches orderly (World.touches about)
  · rintro rfl
    exact allowed rfl

end Elsewhere

/-- A request for a scan of the audit that has come so far, with a store in which the findings that it is still to drop
are of the audit. -/
structure Program.Requests (auditId : String) (ledger : Ledger) (phase : Opening)
    (program : Program (Except StoreError Scan.Acceptance)) : Prop where
  opens : program.Keeps (Scan.opening auditId)
    (fun result s => result = .ok Scan.started ↔ ∃ found number, s = .granted found number) phase
  own : ∀ finding ∈ phase.left, ledger.Allotted true auditId finding.id

section Requests

variable {auditId : String} {ledger after : Ledger} {phase : Opening} {about : String → Prop}

lemma Scan.requests_start (auditId : String) (ledger : Ledger) :
    (start auditId).run.Requests auditId ledger .fresh :=
  ⟨opens_start, List.forall_mem_nil _⟩

lemma Program.Requests.touches {program : Program (Except StoreError Scan.Acceptance)}
    (requests : program.Requests auditId ledger phase) (orderly : ledger.Orderly)
    (touches : ledger.Touches about after) : program.Requests auditId after phase :=
  ⟨requests.opens, fun finding left => (requests.own finding left).touches orderly touches⟩

/-- A call of a request for the audit is about the audit, and the request goes on as one for it. -/
lemma Program.Requests.call {c : Call} {next : c.Reply → Program (Except StoreError Scan.Acceptance)} {world : World}
    (requests : (Program.call c next).Requests auditId world.ledger phase) (orderly : world.ledger.Orderly) :
    c.About (· = auditId) world.ledger.store ∧
      (next (world.perform c).1).Requests auditId (world.perform c).2.ledger
        (phase.next ⟨c, (world.perform c).1⟩) := by
  obtain ⟨⟨allowed, goes⟩, own⟩ := requests
  have about : c.About (· = auditId) world.ledger.store := by
    cases phase with
    | fresh | seen | begun =>
      cases allowed
      trivial
    | clearing left =>
      cases left with
      | nil =>
        cases allowed
        rfl
      | cons finding rest =>
        cases allowed
        intro found present other ofOther
        exact FindingRecord.isOf_inj ofOther ((own finding List.mem_cons_self).whose found present)
    | refused =>
      obtain rfl | ⟨now, rfl⟩ := allowed
      · trivial
      · rfl
    | granted => obtain rfl | rfl := allowed <;> trivial
    | closed => exact allowed.elim
  have touches := World.touches about
  refine ⟨about, goes _ trivial, fun finding member => ?_⟩
  obtain before | ⟨findings, listed, stored⟩ := Scan.mem_left_next allowed member
  · exact (own finding before).touches orderly touches
  · obtain ⟨rfl, same⟩ := Exchange.mk.inj listed
    obtain rfl := eq_of_heq same
    exact (orderly.allotted (beq_self_eq_true auditId) stored).touches orderly touches

end Requests

/-! ## How far a request has come -/

/-- True of a request that has not yet been answered by the executor. -/
def Opening.isOpen : Opening → Bool
  | fresh | seen | clearing _ | begun _ => true
  | _ => false

/-- True of a request that the executor has granted. -/
def Opening.isGranted : Opening → Bool
  | granted _ _ => true
  | _ => false

/-- True of a request that was refused, and of one that failed. -/
def Opening.isShut : Opening → Bool
  | refused _ | closed => true
  | _ => false

/-- A request for a scan of the audit that has come so far. -/
def Program.Past {α : Type} (auditId : String) (far : Opening → Bool) (program : Program α) : Prop :=
  ∃ phase, far phase = true ∧ program.Keeps (Scan.opening auditId) (fun _ _ => True) phase

section Past

variable {α : Type} {auditId : String} {c : Call} {next : c.Reply → Program α}

/-- A request that was granted only tells the executor about the scan. -/
lemma Program.Past.granted (past : (Program.call c next).Past auditId Opening.isGranted) :
    c.writes = false ∧ (∀ id, c ≠ .submit id) ∧ ∀ reply, (next reply).Past auditId Opening.isGranted := by
  obtain ⟨phase, far, allowed, goes⟩ := past
  cases phase with
  | granted found number =>
    have goes reply := (⟨_, far, goes reply trivial⟩ : (next reply).Past auditId Opening.isGranted)
    obtain rfl | rfl := allowed <;> exact ⟨rfl, fun id => Call.noConfusion, goes⟩
  | _ => cases far

/-- A request that is shut stays so. -/
lemma Program.Past.shut (past : (Program.call c next).Past auditId Opening.isShut) :
    (∀ id, c ≠ .submit id) ∧ ∀ reply, (next reply).Past auditId Opening.isShut := by
  obtain ⟨phase, far, allowed, goes⟩ := past
  cases phase with
  | refused found =>
    refine ⟨?_, fun reply => ⟨_, ?_, goes reply trivial⟩⟩
    · obtain rfl | ⟨now, rfl⟩ := allowed <;> exact fun id => Call.noConfusion
    · obtain rfl | ⟨now, rfl⟩ := allowed <;> rfl
  | closed => exact allowed.elim
  | _ => cases far

end Past

section Far

variable {auditId : String} {ledger : Ledger} {phase : Opening} {c : Call}
variable {next : c.Reply → Program (Except StoreError Scan.Acceptance)}

lemma Program.Requests.past {program : Program (Except StoreError Scan.Acceptance)} {far : Opening → Bool}
    (requests : program.Requests auditId ledger phase) (reached : far phase = true) : program.Past auditId far :=
  ⟨phase, reached, requests.opens.mono fun _ _ _ => trivial⟩

/-- Up to its question to the executor a request stays open, unless it is shut. -/
lemma Program.Requests.goesOn (requests : (Program.call c next).Requests auditId ledger phase)
    (isOpen : phase.isOpen = true) (other : ∀ id, c ≠ .submit id) (reply : c.Reply) :
    (phase.next ⟨c, reply⟩).isOpen = true ∨ (phase.next ⟨c, reply⟩).isShut = true := by
  have allowed := requests.opens.1
  cases phase with
  | fresh =>
    cases allowed
    cases reply with
    | none => exact .inr rfl
    | some audit => cases running : audit.isRunning <;> simp [Opening.next, running, Opening.isOpen, Opening.isShut]
  | seen =>
    cases allowed
    exact .inl rfl
  | clearing left =>
    cases left <;> cases allowed <;> cases reply
    · exact .inr rfl
    · exact .inl rfl
    · exact .inr rfl
    · exact .inl rfl
  | begun =>
    cases allowed
    exact absurd rfl (other auditId)
  | refused | granted | closed => cases isOpen

/-- A request asks the executor once it has marked the audit. -/
lemma Program.Requests.submits {id : String}
    {next : (Call.submit id).Reply → Program (Except StoreError Scan.Acceptance)}
    (requests : (Program.call (.submit id) next).Requests auditId ledger phase) :
    ∃ found, phase = .begun found ∧ id = auditId := by
  have allowed := requests.opens.1
  cases phase with
  | begun found => exact ⟨found, rfl, Call.submit.inj allowed⟩
  | clearing left => cases left <;> cases allowed
  | refused => obtain same | ⟨now, same⟩ := allowed <;> cases same
  | granted => obtain same | same := allowed <;> cases same
  | fresh | seen => cases allowed
  | closed => exact allowed.elim

end Far

end RepoAudit
