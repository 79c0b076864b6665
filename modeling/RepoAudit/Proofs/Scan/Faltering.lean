import RepoAudit.Proofs.Scan.Calls
import RepoAudit.Proofs.Store.Effect
import RepoAudit.Proofs.Store.Records
import Mathlib.Data.List.Induction

/-!
# Scans whose writes fail

A scan runs while everything around it changes: the disk may fail any of its writes, and the host may refuse any of
its questions (`Program.runAmid`). A failed write still changes the audit in memory. So the scan always comes to an
end, but not always to a good one: what goes wrong while it handles a failure is not handled again, and if the
step that tells of the failure is not kept, nothing completes the audit.
-/

namespace RepoAudit

/-- Runs a program while everything around it changes. What the world has become before a call depends on all
that was called before. Gives the result, the calls with their replies, and the world after them. -/
def Program.runAmid {α : Type} (around : List Exchange → World → World) :
    Program α → List Exchange → World → α × List Exchange × World
  | .done value, es, world => (value, es, world)
  | .call c next, es, world =>
    let (reply, after) := (around es world).perform c
    (next reply).runAmid around (es ++ [⟨c, reply⟩]) after

/-- What a call leaves of an audit, whether it is kept in the file or not. -/
def Call.leaves (auditId : String) (found : Option AuditRecord) : Call → Option AuditRecord
  | .updateAudit id changes => if id = auditId then found.map (·.change changes) else found
  | _ => found

/-- Only a change of an audit changes it, and a failed write does not keep it from doing so. -/
lemma World.perform_leaves (world : World) (c : Call) (auditId : String) :
    (world.perform c).2.ledger.store.audit? auditId = c.leaves auditId (world.ledger.store.audit? auditId) := by
  cases c with
  | updateAudit id changes =>
    change (Ledger.Action.on (Ledger.updateAudit id changes) world.ledger).2.store.audit? auditId = _
    obtain ⟨missing, effect⟩ | ⟨audit, reply, disk, found, -, effect⟩ :=
      Ledger.updateAudit_on id changes world.ledger
    · rw [effect, Call.leaves]
      split
      · next same => rw [← same, missing, Option.map_none]
      · rfl
    · rw [effect, Call.leaves, Store.audit?_putAudit, AuditRecord.change_id, Store.id_of_audit? found]
      by_cases same : auditId = id
      · rw [if_pos same, if_pos same.symm, same, found, Option.map_some]
      · rw [if_neg same, if_neg (Ne.symm same)]
  | createFinding id draft =>
    change (Ledger.Action.on (Ledger.createFinding id draft) world.ledger).2.store.audit? auditId = _
    obtain ⟨-, effect⟩ | ⟨audit, reply, disk, -, -, effect⟩ := Ledger.createFinding_on id draft world.ledger
    · rw [effect]
      rfl
    · rw [effect, Store.audit?_putFinding]
      rfl
  | deleteFinding id =>
    change (Ledger.Action.on (Ledger.deleteFinding id) world.ledger).2.store.audit? auditId = _
    obtain ⟨-, effect⟩ | ⟨finding, reply, disk, -, -, effect⟩ := Ledger.deleteFinding_on id world.ledger
    · rw [effect]
      rfl
    · rw [effect]
      rfl
  | _ => rfl

/-- A change of an audit fails only where a write fails. -/
lemma World.perform_failure {world : World} {id : String} {changes : List (AuditField × Json)} {error : StoreError}
    (failed : (world.perform (.updateAudit id changes)).1 = .error error) : error.isWriteFailure = true := by
  change (Ledger.Action.on (Ledger.updateAudit id changes) world.ledger).1 = .error error at failed
  obtain ⟨-, effect⟩ | ⟨audit, reply, disk, -, tried, effect⟩ := Ledger.updateAudit_on id changes world.ledger
  · rw [effect] at failed
    cases failed
  · rw [effect] at failed
    obtain rfl : reply = .error error := failed
    obtain ok | ⟨other, failure, same⟩ := tried
    · cases ok
    · exact Except.error.inj same ▸ failure

/-- A change of an audit that fails in an exchange fails only where a write fails. -/
def Exchange.FailsToWrite : Exchange → Prop
  | ⟨.updateAudit _ _, .error error⟩ => error.isWriteFailure = true
  | _ => True

lemma World.failsToWrite (world : World) (c : Call) : Exchange.FailsToWrite ⟨c, (world.perform c).1⟩ := by
  cases c with
  | updateAudit id changes =>
    cases failed : (world.perform (.updateAudit id changes)).1 with
    | ok found => trivial
    | error error => exact World.perform_failure failed
  | _ => trivial

namespace Program

variable {α : Type} {around : List Exchange → World → World} {auditId : String}

/-- Where nothing changes around it, a program runs as it runs alone. -/
lemma runAmid_alone (program : Program α) (es : List Exchange) (world : World) :
    (program.runAmid (fun _ world => world) es world).1 = (program.run world).1 ∧
      (program.runAmid (fun _ world => world) es world).2.2 = (program.run world).2 := by
  induction program generalizing es world with
  | done value => exact ⟨rfl, rfl⟩
  | call c next ih => exact ih _ _ _

/-- What holds of the end of every program that keeps a contract holds of the end of a run, where the state of the
contract is what was called. -/
lemma Keeps.amid {contract : Contract (List Exchange)} {post : α → List Exchange → Prop} {program : Program α}
    {es : List Exchange} {world : World} (keeps : program.Keeps contract post es)
    (next : ∀ es e, contract.next es e = es ++ [e]) (replies : ∀ es e, contract.replies es e) :
    post (program.runAmid around es world).1 (program.runAmid around es world).2.1 := by
  -- The induction is on the program; the contract goes on with whatever is replied.
  induction program generalizing es world with
  | done value => exact keeps
  | call c rest ih =>
    obtain ⟨-, goes⟩ := keeps
    have later := goes ((around es world).perform c).1 (replies es _)
    rw [next] at later
    exact ih _ later

/-- What the contract of a program allows, and what a world replies, holds of each exchange of a run. -/
lemma Keeps.exchanges {contract : Contract (List Exchange)} {post : α → List Exchange → Prop} {program : Program α}
    {es : List Exchange} {world : World} {each : Exchange → Prop} (keeps : program.Keeps contract post es)
    (next : ∀ es e, contract.next es e = es ++ [e]) (replies : ∀ es e, contract.replies es e)
    (holds : ∀ es world c, contract.allows es c → each ⟨c, ((around es world).perform c).1⟩)
    (before : ∀ e ∈ es, each e) : ∀ e ∈ (program.runAmid around es world).2.1, each e := by
  induction program generalizing es world with
  | done value => exact before
  | call c rest ih =>
    obtain ⟨allowed, goes⟩ := keeps
    have later := goes ((around es world).perform c).1 (replies es _)
    rw [next] at later
    refine ih _ later fun e called => ?_
    obtain earlier | last := List.mem_append.mp called
    · exact before e earlier
    · rw [List.mem_singleton.mp last]
      exact holds es world c allowed

/-- An audit that nothing else touches stands as the calls of the run leave it. -/
lemma audit?_runAmid (apart : ∀ es world,
      (around es world).ledger.store.audit? auditId = world.ledger.store.audit? auditId)
    {start : Option AuditRecord} (program : Program α) {es : List Exchange} {world : World}
    (stands : world.ledger.store.audit? auditId = es.foldl (fun found e => e.call.leaves auditId found) start) :
    (program.runAmid around es world).2.2.ledger.store.audit? auditId =
      (program.runAmid around es world).2.1.foldl (fun found e => e.call.leaves auditId found) start := by
  induction program generalizing es world with
  | done value => exact stands
  | call c next ih =>
    have after := World.perform_leaves (around es world) c auditId
    rw [apart, stands] at after
    exact ih _ (by rw [List.foldl_append]; exact after)

end Program

namespace Scan

variable {auditId : String} {told : List (String × Int) → Prop}

/-- The audit is there and marked as running. -/
def Marked (found : Option AuditRecord) : Prop := ∃ audit, found = some audit ∧ audit.isRunning = true

/-- A change that completes an audit was asked for, whether it was kept in the file or not. -/
def Attempted (es : List Exchange) : Prop :=
  ∃ id changes reply, Completes changes ∧ (⟨.updateAudit id changes, reply⟩ : Exchange) ∈ es

/-- A change that leaves the status of an audit leaves its mark, and completes nothing. -/
lemma marked_leaves (auditId : String) {field : AuditField} (value : Json) (other : field ≠ .status)
    (found : Option AuditRecord) :
    (Marked ((Call.updateAudit auditId [(field, value)]).leaves auditId found) ↔ Marked found) ∧
      ¬ Completes [(field, value)] := by
  have same (audit : AuditRecord) : (audit.change [(field, value)]).isRunning = audit.isRunning := by
    cases field <;> first | rfl | exact absurd rfl other
  refine ⟨?_, by simp [Completes, Ne.symm other]⟩
  cases found with
  | none => simp [Marked, Call.leaves]
  | some audit => simp [Marked, Call.leaves, same]

/-- A change after which no audit is running takes the mark. -/
lemma unmarked_leaves {changes : List (AuditField × Json)} (ends : ∀ audit : AuditRecord,
    (audit.change changes).isRunning = false) (found : Option AuditRecord) :
    ¬ Marked ((Call.updateAudit auditId changes).leaves auditId found) := by
  rintro ⟨audit, is, running⟩
  rw [Call.leaves, if_pos rfl, Option.map_eq_some_iff] at is
  obtain ⟨old, -, rfl⟩ := is
  rw [ends] at running
  cases running

/-- A call of a scan takes the mark of its audit just when it completes it. -/
lemma Makes.marked {c : Call} (makes : Makes told auditId c) (found : Option AuditRecord) :
    Marked (c.leaves auditId found) ↔
      Marked found ∧ ∀ id changes, c = .updateAudit id changes → ¬ Completes changes := by
  cases makes with
  | logs log =>
    obtain ⟨same, incomplete⟩ := marked_leaves auditId (Json.ofList LogEntry.toJson log.entries)
      (show AuditField.scanLog ≠ .status by decide) found
    simp [same, incomplete]
  | @keepsSnapshot snapshot =>
    obtain ⟨same, incomplete⟩ := marked_leaves auditId snapshot.toJson
      (show AuditField.repoMeta ≠ .status by decide) found
    simp [same, incomplete]
  | keepsTree tree =>
    obtain ⟨same, incomplete⟩ := marked_leaves auditId (Json.ofList TreeEntry.toJson tree)
      (show AuditField.fileTree ≠ .status by decide) found
    simp [same, incomplete]
  | ends now summary =>
    exact iff_of_false (unmarked_leaves (fun _ => rfl) found) fun marked =>
      marked.2 _ _ rfl (completes_ending now summary)
  | concludes now scores summary plan =>
    exact iff_of_false (unmarked_leaves (fun _ => rfl) found) fun marked => marked.2 _ _ rfl List.mem_cons_self
  | _ => simp [Call.leaves]

lemma attempted_concat {es : List Exchange} {e : Exchange} : Attempted (es ++ [e]) ↔
    Attempted es ∨ ∃ id changes, e.call = .updateAudit id changes ∧ Completes changes := by
  constructor
  · rintro ⟨id, changes, reply, completes, called⟩
    obtain earlier | last := List.mem_append.mp called
    · exact .inl ⟨id, changes, reply, completes, earlier⟩
    · obtain rfl := List.mem_singleton.mp last
      exact .inr ⟨id, changes, rfl, completes⟩
  · rintro (⟨id, changes, reply, completes, called⟩ | ⟨id, changes, is, completes⟩)
    · exact ⟨id, changes, reply, completes, List.mem_append_left _ called⟩
    · obtain ⟨c, reply⟩ := e
      subst is
      exact ⟨id, changes, reply, completes, List.mem_append_right _ List.mem_cons_self⟩

/-- After the calls of a scan, its audit is marked just when it was before and nothing was to complete it. -/
lemma marked_foldl {es : List Exchange} (makes : ∀ e ∈ es, Makes told auditId e.call) (start : Option AuditRecord) :
    Marked (es.foldl (fun found e => e.call.leaves auditId found) start) ↔ Marked start ∧ ¬ Attempted es := by
  -- The last call decides, given what the earlier ones left.
  induction es using List.reverseRecOn with
  | nil => simp [Attempted]
  | append_singleton es e ih =>
    obtain ⟨before, last⟩ := List.forall_mem_append.mp makes
    rw [List.foldl_append, List.foldl_cons, List.foldl_nil, (last e List.mem_cons_self).marked, ih before,
      attempted_concat, and_assoc]
    push Not
    rfl

/-- The step that tells of an interruption, where it is not kept. -/
def Untold (auditId : String) (es : List Exchange) : Prop :=
  ∃ (before : List Exchange) (log : ScanLog) (message : String) (now : Instant) (error : StoreError),
    es = before ++ [⟨.updateAudit auditId
      [(.scanLog, Json.ofList LogEntry.toJson (log.push "error" .error message now).entries)], .error error⟩] ∧
    ¬ Attempted before

/-- A scan that fails with its last call fails with the failure of a write. -/
lemma escapes_last (es : List Exchange) (changes : List (AuditField × Json)) (error : StoreError)
    (fails : Exchange.FailsToWrite ⟨.updateAudit auditId changes, .error error⟩) :
    (∀ other, (.error error : Except StoreError (Option AuditRecord)) = .error other ↔ ∃ before changes',
      es ++ [⟨.updateAudit auditId changes, .error error⟩] =
        before ++ [(⟨.updateAudit auditId changes', .error other⟩ : Exchange)]) ∧
    ∀ other, (.error error : Except StoreError (Option AuditRecord)) = .error other →
      other.isWriteFailure = true := by
  refine ⟨fun other => ⟨?_, ?_⟩, ?_⟩
  · rintro ⟨⟩
    exact ⟨es, changes, rfl⟩
  · rintro ⟨before, changes', same⟩
    obtain ⟨-, last⟩ := List.append_inj' same rfl
    cases last
    rfl
  · rintro other ⟨⟩
    exact fails

section Ended

variable {result : Except StoreError (Option AuditRecord)} {es : List Exchange}

/-- A scan fails just when its last call is a change of its audit whose write fails. -/
lemma Ended.escapes (ended : Ended auditId result es) (fails : ∀ e ∈ es, e.FailsToWrite) :
    (∀ error, result = .error error ↔
      ∃ before changes, es = before ++ [⟨.updateAudit auditId changes, .error error⟩]) ∧
    ∀ error, result = .error error → error.isWriteFailure = true := by
  cases ended with
  | @returned es found =>
    refine ⟨fun error => iff_of_false (fun same => nomatch same) ?_, fun error same => nomatch same⟩
    rintro ⟨before, changes, same⟩
    cases (List.append_inj' same rfl).2
  | untold es log message now error =>
    exact escapes_last es _ error (fails _ (List.mem_append_right _ List.mem_cons_self))
  | unended es now summary error =>
    exact escapes_last es _ error (fails _ (List.mem_append_right _ List.mem_cons_self))

/-- A scan attempts to complete its audit, unless the step that tells of an interruption is not kept. -/
lemma Ended.unattempted_iff (ended : Ended auditId result es) : ¬ Attempted es ↔ Untold auditId es := by
  cases ended with
  | @returned es found completed =>
    obtain ⟨changes, kept, completes, called⟩ := completed
    refine iff_of_false (fun unattempted => unattempted ?_) ?_
    · exact ⟨_, changes, _, completes, List.mem_append_left _ called⟩
    · rintro ⟨before, log, message, now, error, same, -⟩
      cases (List.append_inj' same rfl).2
  | untold es log message now error =>
    rw [attempted_concat]
    constructor
    · exact fun unattempted => ⟨es, log, message, now, error, rfl, fun earlier => unattempted (.inl earlier)⟩
    · rintro ⟨before, log', message', now', error', same, unattempted⟩ (earlier | ⟨id, changes, is, completes⟩)
      · exact unattempted ((List.append_inj' same rfl).1 ▸ earlier)
      · -- The step itself completes nothing.
        obtain ⟨-, rfl⟩ := Call.updateAudit.inj is
        simp [Completes] at completes
  | unended es now summary error =>
    refine iff_of_false (fun unattempted => unattempted ?_) ?_
    · exact attempted_concat.mpr (.inr ⟨_, _, rfl, completes_ending now summary⟩)
    · rintro ⟨before, log, message, now', error', same, -⟩
      have calls := congrArg Exchange.call (List.cons.inj (List.append_inj' same rfl).2).1
      simp [ending] at calls

end Ended

/-- Scans come to an end, and to a good one unless writes fail while a failure is handled. However the disk, the
host and all the rest of the world change around a scan, as long as nothing else touches its audit: the scan fails
just when its last call is a change of the audit whose write fails. It leaves the audit marked as running just when
this is the step that tells of an interruption and nothing was to complete the audit before. -/
theorem scans_end_unless_untold {engine : Engine} {around : List Exchange → World → World} {world after : World}
    {result : Except StoreError (Option AuditRecord)} {es : List Exchange}
    (apart : ∀ es world, (around es world).ledger.store.audit? auditId = world.ledger.store.audit? auditId)
    (runs : (run engine auditId).runAmid around [] world = (result, es, after)) :
    (∀ error, result = .error error ↔
      ∃ before changes, es = before ++ [⟨.updateAudit auditId changes, .error error⟩]) ∧
    (∀ error, result = .error error → error.isWriteFailure = true) ∧
    (Marked (after.ledger.store.audit? auditId) ↔
      Marked (world.ledger.store.audit? auditId) ∧ Untold auditId es) := by
  have keeps : (run engine auditId).Keeps (manner (fun _ => True) auditId) (Ended auditId) [] := ended_run trivial
  have next (es e) : (manner (fun _ => True) auditId).next es e = es ++ [e] := rfl
  generalize run engine auditId = scan at keeps runs
  have ended : Ended auditId (scan.runAmid around [] world).1 (scan.runAmid around [] world).2.1 :=
    keeps.amid next (replies_manner auditId)
  have makes : ∀ e ∈ (scan.runAmid around [] world).2.1, Makes (fun _ => True) auditId e.call :=
    keeps.exchanges next (replies_manner auditId) (fun _ _ _ allowed => allowed) (by simp)
  have fails : ∀ e ∈ (scan.runAmid around [] world).2.1, e.FailsToWrite :=
    keeps.exchanges next (replies_manner auditId) (fun es world c _ => (around es world).failsToWrite c) (by simp)
  -- Nothing but the calls of the scan touches the audit, so they tell how it stands.
  have stands : (scan.runAmid around [] world).2.2.ledger.store.audit? auditId =
      (scan.runAmid around [] world).2.1.foldl (fun found e => e.call.leaves auditId found)
        (world.ledger.store.audit? auditId) := Program.audit?_runAmid apart scan rfl
  rw [runs] at ended makes fails stands
  dsimp only at ended makes fails stands
  obtain ⟨escapes, failure⟩ := ended.escapes fails
  refine ⟨escapes, failure, ?_⟩
  rw [stands, marked_foldl makes, ended.unattempted_iff]

/-- A world in which the place beside the store's file is a directory, so that no write of the store succeeds. -/
def unwritable : World where
  ledger := {
    store := {
      path := some ⟨false, ["store.json"]⟩
      audits := [{ id := "i", ownerName := .text "owner", repoName := .text "name"
                   status := .text Store.inProgress }] }
    disk := { entries := [(["store.json.tmp"], .directory)] }
    now := ⟨2024, 1, 1, 0, 0, 0, 0⟩
    ids := fun n => String.ofList (List.replicate n 'i')
    drawn := 1 }
  host := {
    name := "host"
    repository := fun _ _ => .error "unreachable"
    languages := fun _ _ => .error "unreachable"
    tree := fun _ _ _ => .error "unreachable"
    file := fun _ _ _ => .error "unreachable" }

/-- Where no write succeeds, a scan fails and leaves its audit marked as running. -/
theorem scans_end_unless_untold_unwritable :
    (∃ error, ((run ⟨{}, {}, []⟩ "i").run unwritable).1 = .error error ∧ error.isWriteFailure = true) ∧
      Untold "i" ((run ⟨{}, {}, []⟩ "i").runAmid (fun _ world => world) [] unwritable).2.1 := by
  obtain ⟨result, world⟩ := Program.runAmid_alone (run ⟨{}, {}, []⟩ "i") [] unwritable
  have parts {α β γ : Type} (p : α × β × γ) : p = (p.1, p.2.1, p.2.2) := rfl
  have alone (es : List Exchange) (world : World) : ((fun _ world => world : List Exchange → World → World) es
      world).ledger.store.audit? "i" = world.ledger.store.audit? "i" := rfl
  obtain ⟨escapes, failure, marked⟩ := scans_end_unless_untold alone
    (parts ((run ⟨{}, {}, []⟩ "i").runAmid (fun _ world => world) [] unwritable))
  have left : (((run ⟨{}, {}, []⟩ "i").run unwritable).2.ledger.store.audit? "i").any (·.isRunning) = true := by
    decide +kernel
  rw [← world, Option.any_eq_true] at left
  obtain ⟨-, untold⟩ := marked.mp left
  obtain ⟨before, log, message, now, error, is, -⟩ := id untold
  have escaped := (escapes error).mpr ⟨before, _, is⟩
  exact ⟨⟨error, result ▸ escaped, failure error escaped⟩, untold⟩

end Scan

end RepoAudit
