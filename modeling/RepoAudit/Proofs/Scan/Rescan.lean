import RepoAudit.Proofs.Scan.Surroundings

/-!
# Scanning again

A request for a scan drops what earlier scans found and resets the results of the audit, so what came before does not
show in what the scan comes to.
-/

namespace RepoAudit.Scan

/-- What holds of the end of a request for a scan in which no write fails. -/
def Starts {α : Type} (around : List Exchange → World → World)
    (post : Except StoreError α → List Exchange → World → Prop) (part : Starting α) (es : List Exchange)
    (world : World) : Prop :=
  part.run.Keeps (Program.courseAmid around) (fun result s => post result s.1 s.2) (es, world)

section Starts

variable {α β : Type} {around : List Exchange → World → World} {es : List Exchange} {world : World}

lemma starts_bind {part : Starting α} {next : α → Starting β}
    {post : Except StoreError β → List Exchange → World → Prop}
    (starts : Starts around (fun result es world => match result with
      | .ok value => Starts around post (next value) es world
      | .error error => post (.error error) es world) part es world) :
    Starts around post (part >>= next) es world := by
  refine Program.keeps_bind.mpr (Program.Keeps.mono ?_ starts)
  rintro (error | value) s holds
  · exact holds
  · exact holds

lemma starts_call {c : Call} {post : Except StoreError c.Reply → List Exchange → World → Prop}
    (next : Exchange.Saved ⟨c, ((around es world).perform c).1⟩ → post (.ok ((around es world).perform c).1)
      (es ++ [⟨c, ((around es world).perform c).1⟩]) ((around es world).perform c).2) :
    Starts around post (call c) es world := by
  refine ⟨trivial, ?_⟩
  rintro reply ⟨replied, saved⟩
  obtain rfl : reply = ((around es world).perform c).1 := replied
  exact next saved

lemma starts_accomplish {value : α} {post : Except StoreError Unit → List Exchange → World → Prop}
    (holds : post (.ok ()) es world) : Starts around post (accomplish (.ok value)) es world :=
  holds

end Starts

/-- A request has looked at its audit, and drops the findings of earlier scans: those that are left are to come. -/
structure Clearing (audit : AuditRecord) (rest : List FindingRecord) (es : List Exchange) (world : World) : Prop where
  ready : Ready audit.id audit world
  left : ∀ finding ∈ world.ledger.store.detectedOf audit.id, finding ∈ rest
  untold : es.filter (·.call.isOutside) = []

section Clearing

variable {surroundings : Surroundings} {audit : AuditRecord} {finding : FindingRecord} {rest : List FindingRecord}
variable {es : List Exchange} {world : World}

lemma Ready.around {auditId : String} (ready : Ready auditId audit world) (surroundings : Surroundings)
    (es : List Exchange) : Ready auditId audit (surroundings.around es world) :=
  ⟨ready.found, ready.idle, ready.accepting, ⟨ready.drawsNew.injective, ready.drawsNew.unused⟩⟩

lemma Clearing.around (clearing : Clearing audit rest es world) (surroundings : Surroundings) (fs : List Exchange) :
    Clearing audit rest es (surroundings.around fs world) :=
  ⟨clearing.ready.around surroundings fs, clearing.left, clearing.untold⟩

lemma Clearing.skip (clearing : Clearing audit (finding :: rest) es world)
    (undetected : ¬ finding.autoDetected.isTruthy = true) : Clearing audit rest es world := by
  refine { clearing with left := fun other member => ?_ }
  obtain rfl | later := List.mem_cons.mp (clearing.left other member)
  · exact absurd (List.mem_filter.mp member).2 undetected
  · exact later

lemma Clearing.delete (clearing : Clearing audit (finding :: rest) es world)
    (saved : Saved (world.perform (.deleteFinding finding.id)).1) :
    ∃ dropped, (world.perform (.deleteFinding finding.id)).1 = .ok dropped ∧
      Clearing audit rest (es ++ [⟨.deleteFinding finding.id, (world.perform (.deleteFinding finding.id)).1⟩])
        (world.perform (.deleteFinding finding.id)).2 := by
  -- Whether the finding is there or not, no finding has its id afterwards.
  have left {store : Store} (fewer : ∀ other ∈ store.findings,
      other ∈ world.ledger.store.findings ∧ other.id ≠ finding.id) (other : FindingRecord)
      (member : other ∈ store.detectedOf audit.id) : other ∈ rest := by
    obtain ⟨stored, detected⟩ := Store.mem_detectedOf.mp member
    obtain ⟨before, apart⟩ := fewer other stored
    obtain rfl | later := List.mem_cons.mp (clearing.left other (Store.mem_detectedOf.mpr ⟨before, detected⟩))
    · exact absurd rfl apart
    · exact later
  have untold := (filter_inside (.deleteFinding finding.id) rfl es
    (world.perform (.deleteFinding finding.id)).1).trans clearing.untold
  obtain ⟨missing, does⟩ | ⟨found, disk, present, does⟩ := World.perform_deleteFinding saved
  · rw [does] at untold ⊢
    have none := List.find?_eq_none.mp missing
    refine ⟨_, rfl, { clearing with untold, left := left fun other stored => ⟨stored, ?_⟩ }⟩
    simpa using none other stored
  · rw [does] at untold ⊢
    refine ⟨_, rfl, ⟨clearing.ready.found, clearing.ready.idle, clearing.ready.accepting,
      clearing.ready.drawsNew.injective, fun n later => ?_⟩, left fun other stored => ?_, untold⟩
    · rw [Store.finding?_dropFinding, clearing.ready.drawsNew.unused n later, ite_self]
    · simpa [Store.dropFinding] using stored

/-- Once nothing is left to drop, the audit stands as it was, without detected findings. -/
lemma Clearing.shows (clearing : Clearing audit [] es world) : Shows audit {} es world := by
  have none : world.ledger.store.detectedOf audit.id = [] :=
    List.eq_nil_iff_forall_not_mem.mpr fun finding member => List.not_mem_nil (clearing.left finding member)
  exact ⟨clearing.ready.found, by rw [none]; rfl, clearing.untold, clearing.ready.accepting, clearing.ready.drawsNew⟩

/-- The findings of earlier scans are dropped one after the other. -/
lemma starts_drops {post : Except StoreError PUnit → List Exchange → World → Prop}
    {findings : List FindingRecord} (clearing : Clearing audit findings es world)
    (next : ∀ es world, Shows audit {} es world → post (.ok ⟨⟩) es world) :
    Starts surroundings.around post (forIn findings PUnit.unit fun finding _ =>
      if finding.autoDetected.isTruthy = true then do
        let reply ← call (.deleteFinding finding.id)
        accomplish reply
        pure (ForInStep.yield PUnit.unit)
      else pure (ForInStep.yield PUnit.unit)) es world := by
  induction findings generalizing es world with
  | nil => exact next _ _ clearing.shows
  | cons finding rest ih =>
    rw [List.forIn_cons]
    refine starts_bind ?_
    by_cases detected : finding.autoDetected.isTruthy = true
    · rw [if_pos detected]
      refine starts_bind (starts_call fun saved => starts_bind ?_)
      obtain ⟨dropped, ok, clearing'⟩ := (clearing.around surroundings es).delete saved
      rw [ok] at clearing' ⊢
      exact ih clearing'
    · rw [if_neg detected]
      exact ih (clearing.skip detected)

lemma starts_clear {post : Except StoreError Unit → List Exchange → World → Prop} (ready : Ready audit.id audit world)
    (untold : es.filter (·.call.isOutside) = [])
    (next : ∀ es world, Shows audit {} es world → post (.ok ()) es world) :
    Starts surroundings.around post (clear audit.id) es world := by
  refine starts_bind (starts_call fun _ => starts_bind (starts_drops (?_ : Clearing audit _ _ _) next))
  exact ⟨ready.around surroundings es, fun finding member => (List.mem_filter.mp member).1,
    (filter_inside (.listFindings audit.id) rfl es _).trans untold⟩

/-- A request for a scan is accepted, and leaves the audit marked and without detected findings. -/
lemma starts_start (ready : Ready audit.id audit world) :
    Starts surroundings.around (fun result es world => result = .ok started ∧
      Shows audit { changes := beginning } es world) (start audit.id) [] world := by
  refine starts_bind (starts_call fun _ => ?_)
  have found : ((surroundings.around [] world).perform (.getAudit audit.id)).1 = some audit := ready.found
  rw [found]
  dsimp only
  rw [if_neg (by simp [ready.idle])]
  refine starts_bind (starts_clear (ready.around surroundings []) rfl fun es world clear => ?_)
  refine starts_bind (starts_call fun saved => starts_bind ?_)
  obtain ⟨found, ok, marked⟩ := (clear.around surroundings).change saved
  rw [ok] at marked ⊢
  refine starts_accomplish (starts_bind (starts_call fun _ => ?_))
  generalize es ++ [_] = es, ((surroundings.around _ _).perform (.updateAudit _ _)).2 = world at marked ⊢
  obtain ⟨number, accepted⟩ : ∃ number, ((surroundings.around es world).perform (.submit audit.id)).1 = some number :=
    ⟨_, World.perform_submit_of_accepting marked.accepting audit.id⟩
  rw [accepted]
  refine starts_bind (starts_call (c := .register audit.id number) fun _ => ?_)
  refine starts_bind (starts_call (c := .watch number) fun _ => ?_)
  have submitted := (marked.around surroundings).inside (c := .submit audit.id) rfl rfl (some number)
  have registered := (submitted.around surroundings).inside (c := .register audit.id number) rfl rfl ()
  exact ⟨rfl, (registered.around surroundings).inside (c := .watch number) rfl rfl ()⟩

end Clearing

/-- What follows the answer to a request for a scan: the scan, if it is accepted. -/
def follow (engine : Engine) (auditId : String) : Except StoreError Acceptance →
    Program (Except StoreError Acceptance × Option (Except StoreError (Option AuditRecord)))
  | .ok acceptance =>
    if acceptance.accepted then (run engine auditId).bind fun result => .done (.ok acceptance, some result)
    else .done (.ok acceptance, none)
  | .error error => .done (.error error, none)

/-- A request for a scan, and the scan. -/
def rescan (engine : Engine) (auditId : String) :
    Program (Except StoreError Acceptance × Option (Except StoreError (Option AuditRecord))) :=
  (start auditId).run.bind (follow engine auditId)

/-- What came of a request for a scan: its answer, the result of the scan, the calls that were made with their replies,
and the world after them. -/
structure Outcome where
  answer : Except StoreError Acceptance
  result : Option (Except StoreError (Option AuditRecord))
  exchanges : List Exchange
  world : World

/-- A request for a scan and the scan, when nothing else is called meanwhile. -/
def rescanned (engine : Engine) (surroundings : Surroundings) (auditId : String) (world : World) : Outcome :=
  let course := (rescan engine auditId).runAmid surroundings.around [] world
  { answer := course.1.1, result := course.1.2, exchanges := course.2.1, world := course.2.2 }

/-- No write failed. -/
def Outcome.Saved (outcome : Outcome) : Prop := ∀ e ∈ outcome.exchanges, e.Saved

instance (outcome : Outcome) : Decidable outcome.Saved :=
  inferInstanceAs (Decidable (∀ e ∈ outcome.exchanges, e.Saved))

/-- The scan was accepted and came to its end. The audit stands so after it, and may be scanned again. -/
structure Outcome.Gives (outcome : Outcome) (auditId : String) (audit : AuditRecord) : Prop where
  accepted : outcome.answer = .ok started
  ended : outcome.result = some (.ok (some audit))
  ready : Ready auditId audit outcome.world

/-- Two scans come to the same: the results in their audits `x` and `y`, the fields of the findings that they detected,
in their order, and what is kept of the repository if it was given. -/
structure Agree (leftId rightId : String) (one other : Outcome) (x y : AuditRecord) : Prop where
  left : one.Gives leftId x
  right : other.Gives rightId y
  results : ∀ field ∈ results, x.get field = y.get field
  detected : (one.world.ledger.store.detectedOf leftId).map FindingRecord.get =
    (other.world.ledger.store.detectedOf rightId).map FindingRecord.get
  given : ∀ owner name snapshot, ⟨.repository owner name, .ok snapshot⟩ ∈ one.exchanges →
    x.repoMeta = y.repoMeta ∧ x.fileTree = y.fileTree

section Rescan

variable {engine : Engine} {surroundings : Surroundings} {left right audit : AuditRecord} {world other : World}

/-- A scan that may be accepted is accepted, and runs from where its audit is marked. -/
lemma rescan_runAmid (ready : Ready audit.id audit world)
    (saved : ∀ e ∈ ((rescan engine audit.id).runAmid surroundings.around [] world).2.1, e.Saved) :
    ∃ es marked, Shows audit { changes := beginning } es marked ∧
      (rescan engine audit.id).runAmid surroundings.around [] world =
        (follow engine audit.id (.ok started)).runAmid surroundings.around es marked := by
  rw [rescan, Program.runAmid_bind] at saved ⊢
  obtain ⟨accepted, marked⟩ := Program.Keeps.courseAmid (starts_start ready)
    fun e before => saved e (Program.mem_runAmid _ before)
  exact ⟨_, _, marked, by rw [accepted]⟩

/-- Two scans of the same repository come to the same, and leave it the repository that it was. -/
lemma agree_rescanned {leftId rightId : String} (ready : Ready leftId left world) (ready' : Ready rightId right other)
    (owner : left.ownerName = right.ownerName) (name : left.repoName = right.repoName)
    (saved : (rescanned engine surroundings leftId world).Saved)
    (saved' : (rescanned engine surroundings rightId other).Saved) :
    ∃ x y, Agree leftId rightId (rescanned engine surroundings leftId world)
      (rescanned engine surroundings rightId other) x y ∧
      x.ownerName = left.ownerName ∧ x.repoName = left.repoName := by
  obtain rfl := Store.id_of_audit? ready.found
  obtain rfl := Store.id_of_audit? ready'.found
  -- Once both audits are marked, what was before shows in neither world.
  obtain ⟨es, marked, shown, is⟩ := rescan_runAmid ready saved
  obtain ⟨fs, marked', shown', is'⟩ := rescan_runAmid ready' saved'
  simp only [Outcome.Saved, rescanned, is, is'] at saved saved' ⊢
  have twins : (follow engine left.id (.ok started)).Twins left right (fun x y deeds =>
      ∃ x' y', Finished left right x' y' deeds ∧ x = (.ok started, some x') ∧ y = (.ok started, some y'))
      (follow engine right.id (.ok started)) { changes := beginning } :=
    Program.Twins.bind (twins_run owner name) fun x y deeds finished => .done ⟨x, y, finished, rfl, rfl⟩
  obtain ⟨deeds, ⟨x, y, finished, value, value'⟩, one, two⟩ := twins_amid twins shown shown' saved saved'
  obtain ⟨rfl, rfl, settled, ends⟩ := finished
  rw [value, value']
  refine ⟨_, _, ⟨⟨rfl, rfl, one.ready (ends left)⟩, ⟨rfl, rfl, two.ready (ends right)⟩, ?_, ?_, ?_⟩, settled.names.change left⟩
  · exact fun field member => (settled.results field member).get_eq left right
  · exact one.detected.trans two.detected.symm
  · intro owner name snapshot reached
    obtain ⟨repoMeta, fileTree⟩ := settled.given owner name snapshot
      (one.told ▸ List.mem_filter.mpr ⟨reached, rfl⟩)
    exact ⟨repoMeta.get_eq left right, fileTree.get_eq left right⟩

/-- What a scan comes to does not depend on what was before. Take two worlds, each with an audit of the same repository
that may be scanned, whatever else there is and whatever is in the audits. If the clock and the host say the same to
both scans, and if no write fails, then both scans are accepted and come to the same. So a scan of the audit that one
of them has left comes to the same again. -/
theorem rescans_agree {leftId rightId : String} (ready : Ready leftId left world) (ready' : Ready rightId right other)
    (owner : left.ownerName = right.ownerName) (name : left.repoName = right.repoName)
    (saved : (rescanned engine surroundings leftId world).Saved)
    (saved' : (rescanned engine surroundings rightId other).Saved) :
    ∃ x y, Agree leftId rightId (rescanned engine surroundings leftId world)
      (rescanned engine surroundings rightId other) x y ∧
    let again := rescanned engine surroundings leftId (rescanned engine surroundings leftId world).world
    again.Saved → ∃ z, Agree leftId leftId (rescanned engine surroundings leftId world) again x z := by
  obtain ⟨x, y, agree, owner', name'⟩ := agree_rescanned ready ready' owner name saved saved'
  refine ⟨x, y, agree, fun savedAgain => ?_⟩
  obtain ⟨x', z, agree', -⟩ := agree_rescanned ready agree.left.ready owner'.symm name'.symm saved savedAgain
  -- The first scan is the same one in both comparisons, and so is what it came to.
  have same := agree.left.ended.symm.trans agree'.left.ended
  simp only [Option.some.injEq, Except.ok.injEq] at same
  exact ⟨z, same ▸ agree'⟩

end Rescan

section Sample

/-- A host that gives a repository with one file. -/
def givingHost : SourceHost where
  name := "host"
  repository := fun _ _ => .ok {}
  languages := fun _ _ => .error "unreachable"
  tree := fun _ _ _ => .ok [{ path := "a.js" }]
  file := fun _ _ _ => .ok "let a = 1"

/-- This host, and a clock that goes on with each question. -/
def givingSurroundings : Surroundings := fun es => (⟨2024, 1, 1, 0, 0, es.length, 0⟩, givingHost)

/-- An engine with one family. -/
def oneFamily : Engine := ⟨{}, {}, [BuiltinFamily.largeFile.toFamily {} 2]⟩

/-- An audit that was never scanned. -/
def unscanned : AuditRecord := { id := "i", ownerName := .text "owner", repoName := .text "name" }

/-- An audit of the same repository that was scanned before. -/
def scannedBefore : AuditRecord :=
  { id := "ii", ownerName := .text "owner", repoName := .text "name", status := .text Store.complete
    executiveSummary := .text "before", fileTree := .null, scanLog := .null }

/-- The world of the first audit. -/
def emptyWorld : World where
  ledger := {
    store := { audits := [unscanned] }
    now := ⟨2023, 1, 1, 0, 0, 0, 0⟩
    ids := fun n => String.ofList (List.replicate n 'i')
    drawn := 4 }
  host := unwritable.host

/-- The world of the other audit, of which one finding was detected and one was entered. -/
def usedWorld : World :=
  { emptyWorld with ledger := { emptyWorld.ledger with store := {
      audits := [scannedBefore]
      findings := [
        { id := "iii", auditId := .text "ii", category := .text "security", severity := .text "low"
          title := .text "detected", description := .text "", businessImpact := .text "", fixSteps := .text "" },
        { id := "iiii", auditId := .text "ii", category := .text "security", severity := .text "low"
          title := .text "entered", description := .text "", businessImpact := .text "", fixSteps := .text ""
          autoDetected := .bool false }] } } }

lemma emptyWorld_injective : Function.Injective emptyWorld.ledger.ids := by
  intro m n same
  have := congrArg String.length same
  simpa [emptyWorld] using this

lemma emptyWorld_ready : Ready "i" unscanned emptyWorld :=
  ⟨rfl, rfl, rfl, emptyWorld_injective, fun _ _ => rfl⟩

lemma usedWorld_ready : Ready "ii" scannedBefore usedWorld := by
  refine ⟨rfl, rfl, rfl, emptyWorld_injective, fun n later => ?_⟩
  have long : 4 < n := later
  have other (id : String) (short : id.length ≤ 4) : id ≠ String.ofList (List.replicate n 'i') := by
    rintro rfl
    rw [String.length_ofList, List.length_replicate] at short
    omega
  simp [usedWorld, emptyWorld, Store.finding?, other "iii" (by decide), other "iiii" (by decide)]

/-- What was before does not show: neither the results and the finding of an earlier scan, nor a scan of the same
audit. -/
theorem rescans_agree_over_leftovers : (usedWorld.ledger.store.detectedOf "ii").length = 1 ∧ ∃ x y z,
    Agree "i" "ii" (rescanned oneFamily givingSurroundings "i" emptyWorld)
      (rescanned oneFamily givingSurroundings "ii" usedWorld) x y ∧
    Agree "i" "i" (rescanned oneFamily givingSurroundings "i" emptyWorld)
      (rescanned oneFamily givingSurroundings "i" (rescanned oneFamily givingSurroundings "i" emptyWorld).world) x z ∧
    x.repoMeta = y.repoMeta ∧ x.fileTree = y.fileTree := by
  obtain ⟨x, y, agree, again⟩ := rescans_agree emptyWorld_ready usedWorld_ready rfl rfl
    (by decide +kernel : (rescanned oneFamily givingSurroundings "i" emptyWorld).Saved)
    (by decide +kernel : (rescanned oneFamily givingSurroundings "ii" usedWorld).Saved)
  obtain ⟨z, agree'⟩ := again (by decide +kernel)
  have given : (rescanned oneFamily givingSurroundings "i" emptyWorld).exchanges.any
      (Exchange.givesRepository "owner" "name") = true := by decide +kernel
  obtain ⟨e, reached, gives⟩ := List.any_eq_true.mp given
  obtain ⟨snapshot, rfl⟩ := Exchange.exists_of_givesRepository gives
  exact ⟨rfl, x, y, z, agree, agree', agree.given "owner" "name" snapshot reached⟩

end Sample

end RepoAudit.Scan
