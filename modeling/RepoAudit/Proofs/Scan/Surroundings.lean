import RepoAudit.Proofs.Scan.Effect
import RepoAudit.Proofs.Scan.Faltering
import RepoAudit.Proofs.Scan.Twin

/-!
# Runs amid the same surroundings

When nothing else is called while a program runs, what it is told depends on the time, on the host and on the store.
Here the time and the host are given (`Surroundings`), and the store shows what the program has done to its audit
(`Scan.Shows`). So programs that go the same way do the same in different worlds (`Scan.twins_amid`).
-/

namespace RepoAudit

/-- The findings of an audit that scans have made. -/
def Store.detectedOf (store : Store) (auditId : String) : List FindingRecord :=
  (store.findingsOf auditId).filter (·.autoDetected.isTruthy)

/-- The ids to be drawn differ from each other and from those of all findings. -/
structure Ledger.DrawsNew (ledger : Ledger) : Prop where
  injective : Function.Injective ledger.ids
  unused : ∀ n, ledger.drawn < n → ledger.store.finding? (ledger.ids n) = none

namespace Store

variable {store : Store}

lemma mem_detectedOf {finding : FindingRecord} {auditId : String} : finding ∈ store.detectedOf auditId ↔
    finding ∈ store.findings ∧ finding.isOf auditId = true ∧ finding.autoDetected.isTruthy = true := by
  simp [detectedOf, findingsOf, and_comm]

lemma findings_putFinding_of_missing {finding : FindingRecord} (missing : store.finding? finding.id = none) :
    (store.putFinding finding).findings = store.findings ++ [finding] := by
  simp [putFinding, missing]

lemma detectedOf_putFinding {draft : FindingRecord} {id auditId : String} (missing : store.finding? id = none) :
    ((store.putFinding (Ledger.filed draft id auditId)).detectedOf auditId).map FindingRecord.get =
      (store.detectedOf auditId).map FindingRecord.get ++
        ([draft].filter (·.autoDetected.isTruthy)).map FindingRecord.get := by
  have put : (store.putFinding (Ledger.filed draft id auditId)).findings =
      store.findings ++ [Ledger.filed draft id auditId] := findings_putFinding_of_missing missing
  have ofAudit : (Ledger.filed draft id auditId).isOf auditId = true := by
    simp [Ledger.filed, FindingRecord.isOf, Json.isText]
  have same : (Ledger.filed draft id auditId).get = draft.get := funext fun field => draft.get_filed id auditId field
  rw [detectedOf, findingsOf, put, List.filter_append, List.filter_append, List.map_append]
  by_cases detected : draft.autoDetected.isTruthy = true
  · have detected' : (Ledger.filed draft id auditId).autoDetected.isTruthy = true := detected
    simp [ofAudit, detected, detected', same, detectedOf, findingsOf]
  · have detected' : ¬ (Ledger.filed draft id auditId).autoDetected.isTruthy = true := detected
    simp [ofAudit, detected, detected', detectedOf, findingsOf]

end Store

namespace World

/-- No call shuts an executor down. -/
lemma perform_accepting (world : World) (c : Call) :
    (world.perform c).2.executor.accepting = world.executor.accepting := by
  cases c with
  | submit auditId =>
    by_cases accepting : world.executor.accepting = true
    · simp [perform, Executor.submit, accepting]
    · simp [perform, Executor.submit, accepting]
  | watch number =>
    simp only [perform, onExecutor, Executor.watch, Executor.report]
    split
    · split <;> rfl
    · rfl
  | _ => rfl

lemma perform_submit_of_accepting {world : World} (accepting : world.executor.accepting = true) (auditId : String) :
    (world.perform (.submit auditId)).1 = some world.executor.jobs.length := by
  simp [perform, Executor.submit, accepting]

lemma perform_submit_of_not_accepting {world : World} (refusing : ¬ world.executor.accepting = true)
    (auditId : String) : (world.perform (.submit auditId)).1 = none := by
  simp [perform, Executor.submit, refusing]

lemma perform_outside {c : Call} (outside : c.isOutside = true) (world : World) : (world.perform c).2 = world := by
  cases c <;> first | rfl | cases outside

lemma perform_outside_eq {c : Call} (outside : c.isOutside = true) {left right : World}
    (now : left.ledger.now = right.ledger.now) (host : left.host = right.host) :
    (left.perform c).1 = (right.perform c).1 := by
  cases c with
  | now => exact now
  | hostName => exact congrArg SourceHost.name host
  | repository owner name => exact congrArg (·.repository owner name) host
  | languages owner name => exact congrArg (·.languages owner name) host
  | tree owner name ref => exact congrArg (·.tree owner name ref) host
  | file owner name path => exact congrArg (·.file owner name path) host
  | _ => cases outside

end World

/-- After the next id was drawn and used, those to be drawn are still new. -/
lemma Ledger.DrawsNew.file {ledger : Ledger} (drawsNew : ledger.DrawsNew) (draft : FindingRecord) (auditId : String)
    (disk : Disk) : Ledger.DrawsNew { ledger with
      store := ledger.store.putFinding (filed draft (ledger.ids (ledger.drawn + 1)) auditId)
      disk
      drawn := ledger.drawn + 1 } := by
  refine ⟨drawsNew.injective, fun n later => ?_⟩
  have later : ledger.drawn + 1 < n := later
  have other : ledger.ids n ≠ (filed draft (ledger.ids (ledger.drawn + 1)) auditId).id := fun same =>
    absurd (drawsNew.injective same) (by omega)
  rw [Store.finding?_putFinding, if_neg other]
  exact drawsNew.unused n (by omega)

/-- The time and the host as they are when something is asked, after all that was asked before. -/
abbrev Surroundings := List Exchange → Instant × SourceHost

/-- The world where the time and the host are these. -/
def Surroundings.around (surroundings : Surroundings) (es : List Exchange) (world : World) : World :=
  { world with
    ledger := { world.ledger with now := (surroundings (es.filter (·.call.isOutside))).1 }
    host := (surroundings (es.filter (·.call.isOutside))).2 }

namespace Program

variable {α β : Type} {around : List Exchange → World → World}

lemma runAmid_call (c : Call) (next : c.Reply → Program α) (es : List Exchange) (world : World) :
    (Program.call c next).runAmid around es world =
      (next ((around es world).perform c).1).runAmid around (es ++ [⟨c, ((around es world).perform c).1⟩])
        ((around es world).perform c).2 :=
  rfl

lemma runAmid_bind (program : Program α) (next : α → Program β) (es : List Exchange) (world : World) :
    (program.bind next).runAmid around es world =
      (next (program.runAmid around es world).1).runAmid around (program.runAmid around es world).2.1
        (program.runAmid around es world).2.2 := by
  induction program generalizing es world with
  | done value => rfl
  | call c rest ih => exact ih _ _ _

/-- What was called before a run is among what was called after it. -/
lemma mem_runAmid (program : Program α) {es : List Exchange} {world : World} {e : Exchange} (before : e ∈ es) :
    e ∈ (program.runAmid around es world).2.1 := by
  induction program generalizing es world with
  | done value => exact before
  | call c next ih => exact ih _ (List.mem_append_left _ before)

lemma saved_call {c : Call} {next : c.Reply → Program α} {es : List Exchange} {world : World}
    (saved : ∀ e ∈ ((Program.call c next).runAmid around es world).2.1, e.Saved) :
    Exchange.Saved ⟨c, ((around es world).perform c).1⟩ :=
  saved _ ((next _).mem_runAmid (List.mem_append_right es List.mem_cons_self))

/-- The contract of a run in which no write fails: each call is replied as the world does it. -/
def courseAmid (around : List Exchange → World → World) : Contract (List Exchange × World) where
  allows _ _ := True
  replies s e := e.reply = ((around s.1 s.2).perform e.call).1 ∧ e.Saved
  next s e := (s.1 ++ [e], ((around s.1 s.2).perform e.call).2)

/-- What holds of the end of every program that keeps this contract holds of its run. -/
lemma Keeps.courseAmid {post : α → List Exchange × World → Prop} {program : Program α} {es : List Exchange}
    {world : World} (keeps : program.Keeps (courseAmid around) post (es, world))
    (saved : ∀ e ∈ (program.runAmid around es world).2.1, e.Saved) :
    post (program.runAmid around es world).1
      ((program.runAmid around es world).2.1, (program.runAmid around es world).2.2) := by
  induction program generalizing es world with
  | done value => exact keeps
  | call c next ih => exact ih _ (keeps.2 _ ⟨rfl, saved_call saved⟩) saved

end Program

namespace Scan

/-- A scan of the audit can be accepted: it is there, it is not being scanned, the executor takes scans, and ids are
left for findings. -/
structure Ready (auditId : String) (audit : AuditRecord) (world : World) : Prop where
  found : world.ledger.store.audit? auditId = some audit
  idle : audit.isRunning = false
  accepting : world.executor.accepting = true
  drawsNew : world.ledger.DrawsNew

/-- The store shows what a scan was told and what it did. -/
structure Shows (base : AuditRecord) (deeds : Deeds) (es : List Exchange) (world : World) : Prop where
  found : world.ledger.store.audit? base.id = some (base.change deeds.changes)
  detected : (world.ledger.store.detectedOf base.id).map FindingRecord.get =
    (deeds.added.filter (·.autoDetected.isTruthy)).map FindingRecord.get
  told : es.filter (·.call.isOutside) = deeds.told
  accepting : world.executor.accepting = true
  drawsNew : world.ledger.DrawsNew

section Shows

variable {base : AuditRecord} {deeds : Deeds} {es : List Exchange} {world : World}

lemma Shows.around (surroundings : Surroundings) (shows : Shows base deeds es world) :
    Shows base deeds es (surroundings.around es world) :=
  ⟨shows.found, shows.detected, shows.told, shows.accepting, ⟨shows.drawsNew.injective, shows.drawsNew.unused⟩⟩

/-- An audit that is no longer running may be scanned again. -/
lemma Shows.ready (shows : Shows base deeds es world) (idle : (base.change deeds.changes).isRunning = false) :
    Ready base.id (base.change deeds.changes) world :=
  ⟨shows.found, idle, shows.accepting, shows.drawsNew⟩

lemma filter_inside (c : Call) (inside : c.isOutside = false) (es : List Exchange) (reply : c.Reply) :
    (es ++ [(⟨c, reply⟩ : Exchange)]).filter (·.call.isOutside) = es.filter (·.call.isOutside) := by
  simp [inside]

lemma Shows.outside {c : Call} (shows : Shows base deeds es world) (outside : c.isOutside = true) (reply : c.Reply) :
    Shows base (deeds.hear ⟨c, reply⟩) (es ++ [⟨c, reply⟩]) (world.perform c).2 := by
  rw [World.perform_outside outside]
  refine { shows with told := ?_ }
  rw [List.filter_append, shows.told]
  simp [Deeds.hear, outside]

/-- A call that neither asks outside nor writes. -/
lemma Shows.inside {c : Call} (shows : Shows base deeds es world) (reads : c.writes = false)
    (inside : c.isOutside = false) (reply : c.Reply) :
    Shows base deeds (es ++ [⟨c, reply⟩]) (world.perform c).2 := by
  have ledger : (world.perform c).2.ledger = world.ledger := World.perform_ledger reads
  refine ⟨?_, ?_, (filter_inside c inside es reply).trans shows.told, ?_, ?_⟩
  · rw [ledger]; exact shows.found
  · rw [ledger]; exact shows.detected
  · rw [World.perform_accepting]; exact shows.accepting
  · rw [ledger]; exact shows.drawsNew

lemma Shows.change {changes : List (AuditField × Json)} (shows : Shows base deeds es world)
    (saved : Saved (world.perform (.updateAudit base.id changes)).1) :
    ∃ found, (world.perform (.updateAudit base.id changes)).1 = .ok found ∧
      Shows base (deeds.change changes)
        (es ++ [⟨.updateAudit base.id changes, (world.perform (.updateAudit base.id changes)).1⟩])
        (world.perform (.updateAudit base.id changes)).2 := by
  obtain ⟨missing, -⟩ | ⟨audit, disk, found, does⟩ := World.perform_updateAudit saved
  · rw [shows.found] at missing
    cases missing
  obtain rfl := Option.some.inj (shows.found.symm.trans found)
  rw [does]
  refine ⟨_, rfl, ?_, ?_, (filter_inside (.updateAudit base.id changes) rfl es _).trans shows.told, shows.accepting,
    ⟨shows.drawsNew.injective, ?_⟩⟩
  · simp [Deeds.change, AuditRecord.change_append]
  · simpa [Store.detectedOf, Store.findingsOf, Deeds.change] using shows.detected
  · simpa using shows.drawsNew.unused

lemma Shows.add {draft : FindingRecord} (shows : Shows base deeds es world)
    (saved : Saved (world.perform (.createFinding base.id draft)).1) :
    ∃ finding, (world.perform (.createFinding base.id draft)).1 = .ok finding ∧
      Shows base (deeds.add draft)
        (es ++ [⟨.createFinding base.id draft, (world.perform (.createFinding base.id draft)).1⟩])
        (world.perform (.createFinding base.id draft)).2 := by
  obtain ⟨missing, -⟩ | ⟨audit, disk, found, does⟩ := World.perform_createFinding saved
  · rw [shows.found] at missing
    cases missing
  rw [does]
  refine ⟨_, rfl, ?_, ?_, (filter_inside (.createFinding base.id draft) rfl es _).trans shows.told, shows.accepting,
    shows.drawsNew.file _ _ _⟩
  · simpa [Deeds.add] using shows.found
  · rw [Store.detectedOf_putFinding (shows.drawsNew.unused _ (Nat.lt_succ_self _)), shows.detected]
    simp [Deeds.add]

end Shows

/-- Programs that go the same way leave what they did, each in its world, if they are told the same and if no write
fails. -/
lemma twins_amid {α β : Type} {surroundings : Surroundings} {left right : AuditRecord}
    {post : α → β → Deeds → Prop} {p : Program α} {q : Program β} {deeds : Deeds}
    (twins : p.Twins left right post q deeds)
    {es fs : List Exchange} {world other : World} (one : Shows left deeds es world) (two : Shows right deeds fs other)
    (saved : ∀ e ∈ (p.runAmid surroundings.around es world).2.1, e.Saved)
    (saved' : ∀ e ∈ (q.runAmid surroundings.around fs other).2.1, e.Saved) :
    ∃ deeds, post (p.runAmid surroundings.around es world).1 (q.runAmid surroundings.around fs other).1 deeds ∧
      Shows left deeds (p.runAmid surroundings.around es world).2.1 (p.runAmid surroundings.around es world).2.2 ∧
      Shows right deeds (q.runAmid surroundings.around fs other).2.1
        (q.runAmid surroundings.around fs other).2.2 := by
  -- Along the calls that both make: after each of them, both stores still show the same deeds.
  induction twins generalizing es fs world other with
  | done holds => exact ⟨_, holds, one, two⟩
  | @outside c p q deeds outside goes ih =>
    -- Both were told the same so far, so the time and the host are the same for both.
    have heard : ((surroundings.around fs other).perform c).1 = ((surroundings.around es world).perform c).1 := by
      refine World.perform_outside_eq outside ?_ ?_
      · simp only [Surroundings.around, one.told, two.told]
      · simp only [Surroundings.around, one.told, two.told]
    rw [Program.runAmid_call] at saved saved' ⊢
    rw [Program.runAmid_call]
    rw [heard] at saved' ⊢
    exact ih _ ((one.around surroundings).outside outside _) ((two.around surroundings).outside outside _) saved saved'
  | @look p q deeds goes ih =>
    have one' := (one.around surroundings).inside (c := .getAudit left.id) rfl rfl
    have two' := (two.around surroundings).inside (c := .getAudit right.id) rfl rfl
    have found : ((surroundings.around es world).perform (.getAudit left.id)).1 = some (left.change deeds.changes) :=
      one.found
    have found' : ((surroundings.around fs other).perform (.getAudit right.id)).1 = some (right.change deeds.changes) :=
      two.found
    rw [Program.runAmid_call] at saved saved' ⊢
    rw [Program.runAmid_call]
    rw [found] at saved ⊢
    rw [found'] at saved' ⊢
    exact ih (one' _) (two' _) saved saved'
  | @change changes p q deeds goes ih =>
    obtain ⟨found, ok, one'⟩ := (one.around surroundings).change (Program.saved_call saved)
    obtain ⟨found', ok', two'⟩ := (two.around surroundings).change (Program.saved_call saved')
    rw [Program.runAmid_call] at saved saved' ⊢
    rw [Program.runAmid_call]
    rw [ok] at saved one' ⊢
    rw [ok'] at saved' two' ⊢
    exact ih _ _ one' two' saved saved'
  | @add draft p q deeds goes ih =>
    obtain ⟨finding, ok, one'⟩ := (one.around surroundings).add (Program.saved_call saved)
    obtain ⟨finding', ok', two'⟩ := (two.around surroundings).add (Program.saved_call saved')
    rw [Program.runAmid_call] at saved saved' ⊢
    rw [Program.runAmid_call]
    rw [ok] at saved one' ⊢
    rw [ok'] at saved' two' ⊢
    exact ih _ _ one' two' saved saved'

end Scan

end RepoAudit
