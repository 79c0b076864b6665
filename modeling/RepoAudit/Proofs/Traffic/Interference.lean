import RepoAudit.Proofs.Traffic.Alike
import RepoAudit.Proofs.Traffic.Beside

/-!
# Audits do not interfere

A run of an audit amid others goes in step with the same run alone (`Traffic.Follows`): while the request is open, both
are told the same and leave the audit the same; once the scan has begun, both leave it alike. So the run comes to the
same as alone, and its own calls leave all other audits.
-/

/-! ## Runs that go on alone

A run of an audit is a request and the scan, or a scan that nobody asked for. When nothing else is called beside it, and
only the clock goes on, what comes of it is told by its programs and by the world before it (`Scan.alone`).
-/

namespace RepoAudit

/-- The world at another time. -/
def World.atTime (world : World) (now : Instant) : World := { world with ledger := { world.ledger with now } }

section AtTime

variable {auditId : String} {one world : World}

lemma World.touches_atTime (about : String → Prop) (world : World) (now : Instant) :
    world.ledger.Touches about (world.atTime now).ledger :=
  ⟨rfl, .keeps (Nat.le_refl _)⟩

lemma World.Same.atTime (same : one.Same auditId world) (now : Instant) : one.Same auditId (world.atTime now) :=
  ⟨same.host, same.audit, same.findings⟩

lemma World.Alike.atTime (alike : one.Alike auditId world) (now : Instant) : one.Alike auditId (world.atTime now) :=
  ⟨alike.host, alike.audit, alike.findings⟩

lemma Ledger.Orderly.atTime (orderly : world.ledger.Orderly) (now : Instant) : (world.atTime now).ledger.Orderly :=
  orderly.touches (world.touches_atTime (fun _ => True) now)

lemma Program.Requests.atTime {program : Program (Except StoreError Scan.Acceptance)} {phase : Opening}
    (requests : program.Requests auditId world.ledger phase) (orderly : world.ledger.Orderly) (now : Instant) :
    program.Requests auditId (world.atTime now).ledger phase :=
  requests.touches orderly (world.touches_atTime (· = auditId) now)

end AtTime

/-- What is left of a run. It ends with the answer to the request, and with the result of the scan if there is one. -/
abbrev Run := Program (Except StoreError Scan.Acceptance × Option (Except StoreError (Option AuditRecord)))

namespace Scan

/-- A run that has come so far goes on, and only the clock does so beside it. -/
abbrev goOn (clock : List Exchange → Instant) (run : Run) (es : List Exchange) (world : World) :=
  run.runAmid (fun es world => world.atTime (clock es)) es world

/-- What comes of a run alone. -/
def alone (clock : List Exchange → Instant) (run : Run) (world : World) : Outcome where
  answer := (goOn clock run [] world).1.1
  result := (goOn clock run [] world).1.2
  exchanges := (goOn clock run [] world).2.1
  world := (goOn clock run [] world).2.2

section Alone

variable {engine : Engine} {auditId : String} {clock : List Exchange → Instant} {es : List Exchange}
variable {one world : World} {program : Program (Except StoreError Acceptance)}

/-- A request that the executor has granted is accepted, and the scan follows. -/
lemma granted_goOn {found : Option AuditRecord} {number : Nat} {ledger : Ledger}
    (requests : program.Requests auditId ledger (.granted found number)) (same : one.Same auditId world)
    (orderly : world.ledger.Orderly) : ∃ es' world', one.Same auditId world' ∧ world'.ledger.Orderly ∧
      goOn clock (program.bind (follow engine auditId)) es world =
        goOn clock (follow engine auditId (.ok started)) es' world' := by
  have opens := requests.opens
  clear requests
  induction program generalizing es world with
  | done answer =>
    obtain rfl := opens.mpr ⟨found, number, rfl⟩
    exact ⟨es, world, same, orderly, rfl⟩
  | call c next ih =>
    obtain ⟨allowed, goes⟩ := opens
    have reads : c.writes = false := by obtain rfl | rfl := allowed <;> rfl
    have timed := orderly.atTime (clock es)
    have touches := (world.atTime (clock es)).touches_reads (· ≠ auditId) reads
    exact ih _ ((same.atTime (clock es)).reads timed c reads) (timed.touches touches) (goes _ trivial)

end Alone

end Scan

end RepoAudit

/-! ## A run amid others -/

namespace RepoAudit.Traffic

/-- A request amid others and the same request alone, neither of which the executor has answered. -/
structure Asks (auditId : String) (phase : Opening) (t : Traffic)
    (program : Program (Except StoreError Scan.Acceptance)) (world : World) : Prop where
  idle : t.scansOf auditId = []
  isOpen : phase.isOpen = true
  requests : program.Requests auditId t.world.ledger phase
  requestsAlone : program.Requests auditId world.ledger phase
  same : t.world.Same auditId world
  orderly : world.ledger.Orderly
  accepting : t.world.executor.accepting = true → world.executor.accepting = true

/-- A run amid others, and what is left of the run alone, in a world where it has come as far. -/
inductive Follows (auditId : String) (t : Traffic) : Run → World → Prop
  | asks {k : Nat} {program : Program (Except StoreError Scan.Acceptance)} {phase : Opening} {world : World} :
    t.requestFor auditId = some ⟨k, auditId, program⟩ → Asks auditId phase t program world →
    Follows auditId t (program.bind (Scan.follow t.engine auditId)) world
  | scans {n : Nat} {program rest : Program (Except StoreError (Option AuditRecord))} {world : World} :
    t.scansOf auditId = [⟨n, auditId, program⟩] →
    (∀ s, t.requestFor auditId = some s → s.program.Past auditId Opening.isGranted) →
    program.InStep auditId (fun x y => Scan.timeless x = Scan.timeless y) rest →
    t.world.Alike auditId world → world.ledger.Orderly →
    Follows auditId t (rest.bind fun result => .done (.ok Scan.started, some result)) world
  /-- The run has come to nothing. -/
  | nothing {run : Run} {world : World} : t.scansOf auditId = [] →
    (∀ s, t.requestFor auditId = some s → s.program.Past auditId Opening.isShut) → Follows auditId t run world

/-- The run alone has come as far as the run amid others, perhaps by going on. -/
def Catches (clock : List Exchange → Instant) (auditId : String) (t : Traffic) (run : Run) (es : List Exchange)
    (world : World) : Prop :=
  ∃ run' es' world', Follows auditId t run' world' ∧ Scan.goOn clock run es world = Scan.goOn clock run' es' world'

section Follows

lemma past_of_request {auditId : String} {t : Traffic} {s : Serving} {far : Opening → Bool}
    (request : t.requestFor auditId = some s) (past : s.program.Past auditId far) :
    ∀ s, t.requestFor auditId = some s → s.program.Past auditId far := by
  intro served is
  obtain rfl := Option.some.inj (request.symm.trans is)
  exact past

variable {auditId : String} {t t' : Traffic} {run : Run} {clock : List Exchange → Instant} {es : List Exchange}
variable {world : World} {phase : Opening}

/-- The executor is asked. If it takes the scan amid others, then it takes the scan alone, and both scans begin. -/
lemma Asks.submits {k : Nat} {id : String}
    {next : (Call.submit id).Reply → Program (Except StoreError Scan.Acceptance)} (hosts : Hosts auditId t)
    (asks : Asks auditId phase t (.call (.submit id) next) world) (serves : Serves auditId k (.submit id) next t t') :
    Catches clock auditId t' ((Program.call (.submit id) next).bind (Scan.follow t.engine auditId)) es world := by
  obtain ⟨idle, -, requests, requests', same, orderly, accepting⟩ := asks
  obtain ⟨-, -, after, scans, request⟩ := serves
  obtain ⟨found, rfl, rfl⟩ := requests.submits
  obtain ⟨-, goes⟩ := requests.call hosts.orderly
  by_cases taken : t.world.executor.accepting = true
  · have timed := orderly.atTime (clock es)
    have touches := (world.atTime (clock es)).touches_reads (· ≠ id) (c := .submit id) rfl
    have asked := ((same.atTime (clock es)).reads timed (.submit id) rfl).symm.reads hosts.orderly (.submit id) rfl
    obtain ⟨-, goes'⟩ := (requests'.atTime orderly (clock es)).call timed
    have reply : ((world.atTime (clock es)).perform (.submit id)).1 = some world.executor.jobs.length :=
      World.perform_submit_of_accepting (accepting taken) id
    rw [reply] at goes'
    rw [World.perform_submit_of_accepting taken id] at goes scans request
    have begins : t'.scansOf id = [⟨t.world.executor.jobs.length, id, Scan.run t.engine id⟩] := by
      rw [scans, show t.liveAfter _ = t.live ++ [_] from rfl, List.filter_append,
        show t.live.filter (·.auditId == id) = [] from idle]
      simp
    obtain ⟨es', world', final, ordered, is⟩ := Scan.granted_goOn goes' asked.symm (timed.touches touches)
    refine ⟨_, es', world', .scans begins (past_of_request request (goes.past rfl)) Scan.inStep_run
      (after ▸ final.alike) ordered, ?_⟩
    rw [Program.bind, Scan.goOn, Program.runAmid_call, reply]
    exact is
  · rw [World.perform_submit_of_not_accepting taken] at goes scans request
    exact ⟨_, es, world, .nothing (scans.trans idle) (past_of_request request (goes.past rfl)), rfl⟩

/-- The request asks something else, and the request alone is told the same. -/
lemma Asks.goes {k : Nat} {c : Call} {next : c.Reply → Program (Except StoreError Scan.Acceptance)}
    (hosts : Hosts auditId t) (asks : Asks auditId phase t (.call c next) world)
    (serves : Serves auditId k c next t t') (other : ∀ id, c ≠ .submit id) (engine : t'.engine = t.engine)
    (saved : ∀ e ∈ (Scan.goOn clock ((Program.call c next).bind (Scan.follow t.engine auditId)) es world).2.1,
      e.Saved) :
    Catches clock auditId t' ((Program.call c next).bind (Scan.follow t.engine auditId)) es world := by
  obtain ⟨idle, isOpen, requests, requests', same, orderly, accepting⟩ := asks
  obtain ⟨-, own, after, scans, request⟩ := serves
  have idle' : t'.scansOf auditId = [] := by
    rw [scans, liveAfter_eq other]
    exact idle
  have timed := requests'.atTime orderly (clock es)
  obtain ⟨replied, same'⟩ := requests.same timed isOpen other (same.atTime (clock es)) hosts.orderly
    (orderly.atTime (clock es)) own (Program.saved_call saved)
  obtain ⟨-, goes⟩ := requests.call hosts.orderly
  obtain ⟨about, goes'⟩ := timed.call (orderly.atTime (clock es))
  rw [← replied] at goes'
  refine ⟨_, _, _, ?_, Program.runAmid_call c _ es world⟩
  rw [← replied]
  obtain isOpen' | isShut := requests.goesOn isOpen other (t.world.perform c).1
  · rw [← engine]
    refine .asks request ⟨idle', isOpen', after ▸ goes, goes', after ▸ same',
      (orderly.atTime (clock es)).touches (World.touches about), ?_⟩
    rw [after, World.perform_accepting, World.perform_accepting]
    exact accepting
  · exact .nothing idle' (past_of_request request (goes.past isShut))

/-- The scan has begun: the scan alone makes its call when the scan amid others does. -/
lemma Follows.goes {n : Nat} {program rest : Program (Except StoreError (Option AuditRecord))} (hosts : Hosts auditId t)
    (scans : t.scansOf auditId = [⟨n, auditId, program⟩])
    (granted : ∀ s, t.requestFor auditId = some s → s.program.Past auditId Opening.isGranted)
    (inStep : program.InStep auditId (fun x y => Scan.timeless x = Scan.timeless y) rest)
    (alike : t.world.Alike auditId world) (orderly : world.ledger.Orderly) (moves : Moves auditId t t')
    (saved : ∀ e ∈ (Scan.goOn clock (rest.bind fun result => .done (.ok Scan.started, some result)) es world).2.1,
      e.Saved) :
    Catches clock auditId t' (rest.bind fun result => .done (.ok Scan.started, some result)) es world := by
  cases moves with
  | others touches continues scans' request =>
    exact ⟨_, es, world, .scans (scans'.trans scans) (request ▸ granted) inStep
      (alike.beside hosts.orderly touches continues.host) orderly, rfl⟩
  | @asks _ c next serves =>
    obtain ⟨reads, other, goes⟩ := (granted _ serves.request).granted
    have scans' : t'.scansOf auditId = t.scansOf auditId := by
      rw [serves.scans, liveAfter_eq other, scansOf]
    have alike' : t'.world.Alike auditId world := by
      rw [serves.world]
      exact alike.beside hosts.orderly (t.world.touches_reads _ reads) (World.perform_host c)
    exact ⟨_, es, world, .scans (scans'.trans scans) (past_of_request serves.goes (goes _)) inStep alike' orderly, rfl⟩
  | answered _ same scans' none =>
    exact ⟨_, es, world, .scans (scans'.trans scans) (by simp [none]) inStep (same ▸ alike) orderly, rfl⟩
  | scans live own after scans' request =>
    obtain ⟨rfl, is⟩ | ⟨-, none⟩ := List.singleton_eq_append_iff.mp (scans.symm.trans live)
    · obtain ⟨same, rfl⟩ := List.cons.inj is
      obtain ⟨rfl, -, rfl⟩ := LiveScan.mk.inj same
      obtain ⟨c', next', rfl, stays, call⟩ := inStep.call
      have timed := orderly.atTime (clock es)
      obtain ⟨inStep', alike'⟩ := call _ _ (alike.atTime (clock es)) hosts.orderly timed own (Program.saved_call saved)
      exact ⟨_, _, _, .scans scans' (request ▸ granted) inStep' (after ▸ alike')
        (timed.touches (World.touches (stays.about _))), Program.runAmid_call c' _ es world⟩
    · cases none

/-- The run alone waits while others go on, and it makes its call when the run amid them does. -/
lemma Follows.step (follows : Follows auditId t run world) (hosts : Hosts auditId t) (moves : Moves auditId t t')
    (engine : t'.engine = t.engine) (saved : ∀ e ∈ (Scan.goOn clock run es world).2.1, e.Saved) :
    Catches clock auditId t' run es world := by
  cases follows with
  | asks request asks =>
    cases moves with
    | others touches continues scans same =>
      rw [← engine]
      exact ⟨_, es, world, .asks (same.trans request) ⟨scans.trans asks.idle, asks.isOpen,
        asks.requests.touches hosts.orderly touches, asks.requestsAlone,
        asks.same.beside hosts.orderly touches continues.host, asks.orderly,
        fun accepting => asks.accepting (continues.accepting accepting)⟩, rfl⟩
    | @asks _ c next serves =>
      obtain rfl := (Serving.mk.inj (Option.some.inj (request.symm.trans serves.request))).2.2
      by_cases submits : ∃ id, c = .submit id
      · obtain ⟨id, rfl⟩ := submits
        exact asks.submits hosts serves
      · exact asks.goes hosts serves (fun id same => submits ⟨id, same⟩) engine saved
    | answered _ _ scans none => exact ⟨_, es, world, .nothing (scans.trans asks.idle) (by simp [none]), rfl⟩
    | scans live =>
      -- No scan goes on while the executor has not answered.
      rw [asks.idle] at live
      simp at live
  | scans live granted inStep alike orderly => exact goes hosts live granted inStep alike orderly moves saved
  | nothing idle shut =>
    refine ⟨run, es, world, ?_, rfl⟩
    cases moves with
    | others _ _ scans same => exact .nothing (scans.trans idle) (same ▸ shut)
    | asks serves =>
      obtain ⟨other, goes⟩ := (shut _ serves.request).shut
      refine .nothing ?_ (past_of_request serves.goes (goes _))
      rw [serves.scans, liveAfter_eq other]
      exact idle
    | answered _ _ scans none => exact .nothing (scans.trans idle) (by simp [none])
    | scans live =>
      rw [idle] at live
      simp at live

lemma Follows.trace (follows : Follows auditId t run world) (hosts : Hosts auditId t)
    (spent : t.world.ledger.Spent auditId) (goes : Goes auditId t t')
    (saved : ∀ e ∈ (Scan.goOn clock run es world).2.1, e.Saved) : Catches clock auditId t' run es world := by
  induction goes with
  | refl => exact ⟨run, es, world, follows, rfl⟩
  | tail before meanwhile ih =>
    obtain ⟨run', es', world', follows', same⟩ := ih
    obtain ⟨hosts', spent'⟩ := Goes.hosts before hosts spent
    have engine := meanwhile.engine_eq
    obtain ⟨event, occurs, own, about, continues⟩ := meanwhile
    have moves := (hosts'.occurs occurs).2 spent' own about continues
    rw [same] at saved
    obtain ⟨run'', es'', world'', follows'', same'⟩ := follows'.step hosts' moves engine saved
    exact ⟨run'', es'', world'', follows'', same.trans same'⟩

/-- A run of the audit begins: with the request for it, or with a scan that nobody asked the executor for. -/
inductive Begins (auditId : String) (t : Traffic) : Run → Prop
  | asked {k : Nat} : t.requestFor auditId = some ⟨k, auditId, (Scan.start auditId).run⟩ → t.scansOf auditId = [] →
    Begins auditId t (Scan.rescan t.engine auditId)
  | taken {n : Nat} : t.requestFor auditId = none → t.scansOf auditId = [⟨n, auditId, Scan.run t.engine auditId⟩] →
    Begins auditId t (Scan.follow t.engine auditId (.ok Scan.started))

lemma Begins.follows (begins : Begins auditId t run) (orderly : t.world.ledger.Orderly) :
    Follows auditId t run t.world := by
  cases begins with
  | asked request idle =>
    exact .asks request ⟨idle, rfl, Scan.requests_start auditId _, Scan.requests_start auditId _,
      .refl auditId t.world, orderly, id⟩
  | taken none live =>
    exact .scans live (by simp [none]) Scan.inStep_run (World.Same.refl auditId t.world).alike orderly

/-- Audits do not interfere. Whatever has happened since the service was quiet, let a run of an audit begin. However
the calls of the run and what is done about other audits come one after the other, no call of the run changes another
audit or a finding of one. And once the scan is done, its result, its audit and the findings of its audit are what they
are when the run goes on alone, but for times and for the ids of findings. -/
theorem audits_do_not_interfere {t₀ : Traffic} (quiet : Quiet t₀) (arises : Arises t₀ t)
    (spent : t.world.ledger.Spent auditId) (begins : Begins auditId t run) :
    (∀ t₁ c, Goes auditId t t₁ → t₁.Makes auditId c → ∀ other, other ≠ auditId →
      (t₁.world.perform c).2.ledger.store.audit? other = t₁.audit? other ∧
      (t₁.world.perform c).2.ledger.store.findingsOf other = t₁.findingsOf other) ∧
    ∀ t' n result, Goes auditId t t' → ⟨n, auditId, .done result⟩ ∈ t'.live →
      ∀ clock alone, alone = Scan.alone clock run t.world → alone.Saved →
        alone.result.map Scan.timeless = some (Scan.timeless result) ∧ t'.world.Alike auditId alone.world := by
  have hosts : Hosts auditId t := quiet.hosts.arises arises
  refine ⟨fun t₁ c goes makes other apart => ?_, ?_⟩
  · obtain ⟨hosts', -⟩ := Goes.hosts goes hosts spent
    have about : c.About (· = auditId) t₁.world.ledger.store := by
      obtain ⟨k, next, serving⟩ | ⟨n, next, live⟩ := makes
      · obtain ⟨phase, requests⟩ := hosts'.request _ serving rfl
        exact (requests.call hosts'.orderly).1
      · exact (hosts'.scans _ live rfl).1.about _
    exact ⟨(World.touches about).audit?_eq apart, (World.touches about).findingsOf_eq hosts'.orderly apart⟩
  · rintro t' n result goes live clock alone rfl saved
    obtain ⟨run', es, world, follows, same⟩ := (begins.follows hosts.orderly).trace hosts spent goes saved
    have done : ⟨n, auditId, .done result⟩ ∈ t'.scansOf auditId := List.mem_filter.mpr ⟨live, beq_self_eq_true auditId⟩
    cases follows with
    | asks _ asks =>
      rw [asks.idle] at done
      cases done
    | scans scans _ inStep alike =>
      rw [scans, List.mem_singleton] at done
      obtain ⟨-, -, rfl⟩ := LiveScan.mk.inj done
      -- The scan amid others is done, so nothing is left of the scan alone.
      cases inStep with
      | done agree =>
        rw [Scan.alone, same]
        exact ⟨congrArg some agree.symm, alike⟩
    | nothing idle =>
      rw [idle] at done
      cases done

end Follows

section Sample

/-- A call of the request that is served or its answer, or a call of the live scan at a place. -/
def stepAt : Nat → Traffic → Option (Happening × Traffic)
  | 0, t => if t.serving.isSome then t.turn else none
  | place + 1, t =>
    match t.live.drop place with
    | ⟨n, auditId, .call c next⟩ :: after =>
      some (.scanned n ⟨c, (t.world.perform c).1⟩, { t with
        world := (t.world.perform c).2
        live := t.live.take place ++ ⟨n, auditId, next (t.world.perform c).1⟩ :: after })
    | _ => none

/-- Steps at these places, one after the other. -/
def stepsAt : List Nat → Traffic → List Happening × Traffic
  | [], t => ([], t)
  | place :: places, t =>
    match t.stepAt place with
    | some (h, t') => (h :: (stepsAt places t').1, (stepsAt places t').2)
    | none => stepsAt places t

/-- Such a step is about no audit by itself, and the host stays. -/
lemma meanwhile_stepAt {auditId : String} {place : Nat} {t t' : Traffic} {h : Happening}
    (due : t.stepAt place = some (h, t')) (saved : h.Saved) : Meanwhile auditId t t' := by
  cases place with
  | zero =>
    rw [stepAt] at due
    split at due
    · next serving =>
      refine ⟨.step h, .step (turn_step due), saved, ?_⟩
      unfold turn at due
      split at due
      · cases due
        exact ⟨trivial, t.world.continues_perform _⟩
      · cases due
        exact ⟨trivial, rfl, id⟩
      · next none _ => simp [none] at serving
      · next none _ => simp [none] at serving
      · cases due
    · cases due
  | succ place =>
    rw [stepAt] at due
    split at due
    · next live =>
      cases due
      exact ⟨.step _, .step (.scanned (live ▸ (List.take_append_drop place t.live).symm)), saved, trivial,
        t.world.continues_perform _⟩
    · cases due

/-- Requests and scans go on, whichever come first. -/
lemma goes_stepsAt {auditId : String} (places : List Nat) (t : Traffic) (saved : ∀ h ∈ (t.stepsAt places).1, h.Saved) :
    Goes auditId t (t.stepsAt places).2 := by
  induction places generalizing t with
  | nil => exact .refl
  | cons place places ih =>
    unfold stepsAt at saved ⊢
    split
    · next due =>
      rw [due] at saved
      obtain ⟨own, rest⟩ := List.forall_mem_cons.mp saved
      exact .head (meanwhile_stepAt due own) (ih _ rest)
    · next none =>
      rw [none] at saved
      exact ih t saved

/-- True of a scan that files a finding next. -/
def filesNext (scan : LiveScan) : Bool :=
  match scan.program with
  | .call (.createFinding _ _) _ => true
  | _ => false

lemma exists_of_filesNext {scan : LiveScan} (files : filesNext scan = true) :
    ∃ id draft next, scan.program = .call (.createFinding id draft) next := by
  obtain ⟨n, owner, program⟩ := scan
  cases program with
  | done => cases files
  | call c next =>
    cases c with
    | createFinding id draft => exact ⟨id, draft, next, rfl⟩
    | _ => cases files

/-- True of a scan that has no call left. -/
def isDone (scan : LiveScan) : Bool :=
  match scan.program with
  | .done _ => true
  | .call _ _ => false

/-- A service for two audits, of which the first one was scanned before. -/
def twoAudits : Traffic where
  world := { Scan.usedWorld with
    ledger := { Scan.usedWorld.ledger with store := { Scan.usedWorld.ledger.store with
      audits := [Scan.scannedBefore, Scan.unscanned] } }
    host := Scan.givingHost }
  engine := Scan.oneFamily

/-- A scan of one audit goes on, and a scan of the other one is asked for. -/
def besides : Traffic :=
  { twoAudits with
    live := [⟨7, "i", Scan.run twoAudits.engine "i"⟩]
    serving := some ⟨0, "ii", (Scan.start "ii").run⟩
    asked := 1 }

/-- The request and the scans after they have gone on by turns. -/
def besidesAfter (rounds : Nat) : List Happening × Traffic := besides.stepsAt (List.replicate rounds [0, 1, 2]).flatten

/-- The request and its scan alone, at another time. -/
def besidesAlone : Scan.Outcome :=
  Scan.alone (fun es => ⟨2024, 1, 1, 0, 0, es.length, 0⟩) (Scan.rescan besides.engine "ii") besides.world

lemma twoAudits_quiet : Quiet twoAudits where
  orderly := ⟨by simp [Store.Keyed, twoAudits, Scan.usedWorld], Scan.usedWorld_ready.drawsNew.injective,
    Scan.usedWorld_ready.drawsNew.unused⟩
  live := rfl
  serving := rfl

lemma arises_besides : Arises twoAudits besides :=
  .head ⟨_, .scans 7 twoAudits.engine "i"⟩ (.single ⟨_, .step (.asked "ii" rfl)⟩)

lemma besides_spent : besides.world.ledger.Spent "ii" := by
  intro n later same
  have long : 4 < n := later
  have length : n = "ii".length := by
    simpa [besides, twoAudits, Scan.usedWorld, Scan.emptyWorld] using congrArg String.length same
  rw [length] at long
  exact absurd long (by decide)

/-- A request drops the finding of an earlier scan, and its scan files others, by turns with a scan of another audit:
what the other scan has filed stays, and what comes of the request is the same as alone. -/
theorem audits_do_not_interfere_by_turns :
    (∃ c, (besidesAfter 26).2.Makes "ii" c ∧ c.writes = true ∧ ((besidesAfter 26).2.findingsOf "i").length = 2 ∧
      ((besidesAfter 26).2.world.perform c).2.ledger.store.findingsOf "i" = (besidesAfter 26).2.findingsOf "i") ∧
    ∃ n result, ⟨n, "ii", .done result⟩ ∈ (besidesAfter 33).2.live ∧
      besidesAlone.result.map Scan.timeless = some (Scan.timeless result) ∧
      (besidesAfter 33).2.world.Alike "ii" besidesAlone.world ∧
      ((besides.findingsOf "ii").map (·.id), ((besidesAfter 33).2.findingsOf "ii").map (·.id)) =
        (["iii", "iiii"], ["iiii", "iiiiiii", "iiiiiiii"]) := by
  have savedAlone : besidesAlone.Saved := by decide +kernel
  have saved : ∀ h ∈ (besidesAfter 33).1, h.Saved := by decide +kernel
  have saved' : ∀ h ∈ (besidesAfter 26).1, h.Saved := by decide +kernel
  have files : (besidesAfter 26).2.live.any (fun scan => scan.auditId == "ii" && filesNext scan) = true := by
    decide +kernel
  have done : (besidesAfter 33).2.live.any (fun scan => scan.auditId == "ii" && isDone scan) = true := by decide +kernel
  have goes : Goes "ii" besides (besidesAfter 33).2 := goes_stepsAt _ besides saved
  have goes' : Goes "ii" besides (besidesAfter 26).2 := goes_stepsAt _ besides saved'
  have begins : Begins "ii" besides (Scan.rescan besides.engine "ii") := .asked rfl rfl
  obtain ⟨keeps, comes⟩ := audits_do_not_interfere twoAudits_quiet arises_besides besides_spent begins
  constructor
  · obtain ⟨scan, live, files⟩ := List.any_eq_true.mp files
    obtain ⟨own, files⟩ := Bool.and_eq_true_iff.mp files
    obtain ⟨id, draft, next, is⟩ := exists_of_filesNext files
    obtain ⟨n, owner, program⟩ := scan
    obtain rfl : owner = "ii" := eq_of_beq own
    obtain rfl : program = .call (.createFinding id draft) next := is
    have makes : (besidesAfter 26).2.Makes "ii" (.createFinding id draft) := .inr ⟨n, next, live⟩
    exact ⟨_, makes, rfl, by decide +kernel, (keeps _ _ goes' makes "i" (by decide)).2⟩
  · obtain ⟨scan, live, done⟩ := List.any_eq_true.mp done
    obtain ⟨own, done⟩ := Bool.and_eq_true_iff.mp done
    obtain ⟨n, owner, program⟩ := scan
    obtain rfl : owner = "ii" := eq_of_beq own
    cases program with
    | call => cases done
    | done result =>
      obtain ⟨agree, alike⟩ := comes _ n result goes live _ besidesAlone rfl savedAlone
      exact ⟨n, result, live, agree, alike, by decide +kernel⟩

end Sample

end RepoAudit.Traffic
