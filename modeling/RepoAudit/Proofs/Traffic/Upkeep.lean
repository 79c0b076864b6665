import RepoAudit.Proofs.Service.Answer
import RepoAudit.Proofs.Traffic.Alter

/-!
# The upkeep of findings

A service that has begun with an empty store answers requests of any contents, serves requests for scans, and scans. In
whatever order this goes, its findings stay well-formed (`Traffic.findings_stay_listed`). Nothing in the records sees to
this: it is kept by all that enters or changes a finding, so the invariant speaks of the engine and of the programs that
are under way as well (`Traffic.Lawful`).
-/

namespace RepoAudit

/-- What happens at a service that runs: a request is answered as a whole, what is under way goes on by a step, or an
audit is scanned at once. -/
inductive Occurrence where
  | requested (request : Request)
  | stepped (h : Happening)
  | scanned (auditId : String)

/-- What findings that are entered say about their detection: those of requests were not detected, those of scans were.
Nothing else enters findings. -/
def Occurrence.enters : Occurrence → Option Bool
  | requested _ => some false
  | stepped (.did _ _) => some false
  | stepped (.scanned _ _) => some true
  | stepped _ => none
  | scanned _ => some true

namespace Traffic

/-- After a request was answered. The service goes on running. -/
def answer (t : Traffic) (request : Request) : Traffic :=
  match (Service.running t.toScanner).handle request with
  | (_, .running scanner) => { t with toScanner := scanner }
  | (_, .waiting _ _) => t

/-- After an audit was scanned at once. -/
def scan (t : Traffic) (auditId : String) : Traffic := { t with toScanner := (t.runNow auditId).2 }

/-- What happens, and what comes of it. Of what is done by a step, the bodies fit their forms. -/
inductive Move : Traffic → Occurrence → Traffic → Prop
  | requested {t : Traffic} (request : Request) : Move t (.requested request) (t.answer request)
  | stepped {t t' : Traffic} {h : Happening} : Step t h t' → h.Proper → Move t (.stepped h) t'
  | scanned {t : Traffic} (auditId : String) : Move t (.scanned auditId) (t.scan auditId)

/-- One thing after the other. -/
inductive History : Traffic → List Occurrence → Traffic → Prop
  | none {t : Traffic} : History t [] t
  | more {t₀ t t' : Traffic} {os : List Occurrence} {o : Occurrence} :
    History t₀ os t → Move t o t' → History t₀ (os ++ [o]) t'

/-- A service that begins: there are no findings, and nothing is under way. -/
structure Fresh (t : Traffic) : Prop where
  builtin : t.engine.IsBuiltin
  injective : Function.Injective t.world.ledger.ids
  findings : t.world.ledger.store.findings = []
  live : t.live = []
  serving : t.serving = none

/-- The findings are in order, and what is under way enters none but proper ones. -/
structure Lawful (t : Traffic) : Prop where
  builtin : t.engine.IsBuiltin
  orderly : t.world.ledger.Orderly
  listed : ∀ finding ∈ t.world.ledger.store.findings, finding.Listed
  live : ∀ scan ∈ t.live, scan.program.Keeps (entering (· = true)) (fun _ _ => True) ()
  serving : ∀ s ∈ t.serving, s.program.Keeps (entering fun _ => False) (fun _ _ => True) ()

lemma Fresh.lawful {t : Traffic} (fresh : t.Fresh) : t.Lawful := by
  obtain ⟨builtin, injective, findings, live, serving⟩ := fresh
  refine ⟨builtin, ⟨?_, injective, fun n _ => ?_⟩, ?_, ?_, ?_⟩
  · rw [Store.Keyed, findings]
    exact .nil
  · rw [Store.finding?, findings]
    rfl
  · rw [findings]
    exact List.forall_mem_nil _
  · rw [live]
    exact List.forall_mem_nil _
  · rw [serving]
    rintro _ ⟨⟩

/-- Scanners that are put together over no file begin so. -/
lemma fresh_of_assemble {settings : Settings} {host : SourceHost} {ledger : Ledger} {scanner : Scanner}
    (memory : settings.store = none) (injective : Function.Injective ledger.ids)
    (assembles : Scanner.assemble settings none host ledger = .ok scanner) : Fresh { toScanner := scanner } := by
  simp only [Scanner.assemble, memory] at assembles
  obtain ⟨-, -, assembles⟩ := exists_of_bind_ok assembles
  obtain ⟨engine, builds, assembles⟩ := exists_of_bind_ok assembles
  split at assembles
  · cases assembles
  · obtain rfl := Except.ok.inj assembles
    exact ⟨Engine.isBuiltin_build builds, injective, rfl, rfl, rfl⟩

section History

variable {t t' : Traffic} {o : Occurrence} {origin : Bool → Prop}

/-- What is done for a body that fits its form is proper. -/
lemma enters_of_proper {errand : Errand} (proper : errand.Proper) : errand.Enters (· = false) := by
  cases errand with
  | createFinding auditId draft =>
    obtain ⟨raw, body, fits, rfl⟩ := proper
    exact Service.enters_enteredFinding fits
  | updateFinding id changes =>
    obtain ⟨raw, body, fits, rfl⟩ := proper
    exact Service.takes_updateFinding fits
  | _ => trivial

/-- Where the ledger is carried on, it remains to see what is under way. -/
lemma Lawful.carriesOn (lawful : t.Lawful) (carries : t.world.ledger.CarriesOn origin t'.world.ledger)
    (engine : t'.engine = t.engine)
    (live : ∀ scan ∈ t'.live, scan.program.Keeps (entering (· = true)) (fun _ _ => True) ())
    (serving : ∀ s ∈ t'.serving, s.program.Keeps (entering fun _ => False) (fun _ _ => True) ()) :
    t.world.ledger.CarriesOn origin t'.world.ledger ∧ t'.Lawful :=
  ⟨carries, engine ▸ lawful.builtin, carries.orderly, carries.listed lawful.listed, live, serving⟩

/-- A step enters findings as it is to, and what is under way stays proper. -/
lemma Lawful.step {h : Happening} (lawful : t.Lawful) (step : Step t h t') (proper : h.Proper) :
    t.world.ledger.CarriesOn ((Occurrence.stepped h).enters = some ·) t'.world.ledger ∧ t'.Lawful := by
  have same {origin : Bool → Prop} : t.world.ledger.CarriesOn origin t.world.ledger := .refl lawful.orderly
  cases step with
  | asked auditId =>
    refine lawful.carriesOn same rfl lawful.live ?_
    rintro _ ⟨⟩
    exact Scan.entering_start
  | @served k auditId c next serving =>
    obtain ⟨enters, goes⟩ := lawful.serving _ serving
    have carries := World.carriesOn enters lawful.orderly
    refine lawful.carriesOn (carries.mono fun _ => False.elim) rfl (fun scan live => ?_) ?_
    · obtain before | begun := mem_liveAfter live
      · exact lawful.live scan before
      · exact begun ▸ Scan.entering_run lawful.builtin
    · rintro _ ⟨⟩
      exact goes _ trivial
  | answered serving => exact lawful.carriesOn same rfl lawful.live fun _ none => nomatch none
  | @scanned before after n auditId c next live =>
    obtain ⟨enters, goes⟩ := lawful.live ⟨n, auditId, .call c next⟩ (live ▸ List.mem_append_right _ List.mem_cons_self)
    have carries := (World.carriesOn enters lawful.orderly).mono fun auto (is : auto = true) => congrArg some is.symm
    refine lawful.carriesOn carries rfl (fun scan member => ?_) lawful.serving
    obtain earlier | later := List.mem_append.mp member
    · exact lawful.live scan (live ▸ List.mem_append_left _ earlier)
    · obtain rfl | later := List.mem_cons.mp later
      · exact goes _ trivial
      · exact lawful.live scan (live ▸ List.mem_append_right _ (.tail _ later))
  | @ended before after n auditId result live =>
    refine lawful.carriesOn same rfl (fun scan member => lawful.live scan ?_) lawful.serving
    rw [live]
    exact (List.mem_append.mp member).elim (List.mem_append_left _) fun later => List.mem_append_right _ (.tail _ later)
  | reported => exact lawful.carriesOn same rfl lawful.live lawful.serving
  | did errand =>
    have carries := (Errand.carriesOn (enters_of_proper proper) lawful.orderly).mono fun _ is => congrArg some is.symm
    exact lawful.carriesOn carries rfl lawful.live lawful.serving
  | shifted now host accepting =>
    have touches : t.world.ledger.Touches (fun _ => True) { t.world.ledger with now } := ⟨rfl, .keeps (Nat.le_refl _)⟩
    exact lawful.carriesOn (.of_sublist rfl (Nat.le_refl _) (.refl _) (lawful.orderly.touches touches)) rfl lawful.live
      lawful.serving

/-- Whatever happens enters findings as it is to, and what is under way stays proper. -/
lemma Lawful.move (lawful : t.Lawful) (move : Move t o t') :
    t.world.ledger.CarriesOn (o.enters = some ·) t'.world.ledger ∧ t'.Lawful := by
  cases move with
  | requested request =>
    obtain ⟨response, after, is, carries⟩ := Service.runsOn_handle lawful.orderly request
    have becomes : t.answer request = { t with toScanner := after } := by rw [answer, is]
    rw [becomes]
    have ledger := carries.ledger.mono fun _ is => congrArg some is.symm
    refine lawful.carriesOn ledger carries.engine (fun scan live => ?_) lawful.serving
    obtain before | begun := carries.live scan live
    · exact lawful.live scan before
    · exact begun ▸ Scan.entering_run lawful.builtin
  | stepped step proper => exact lawful.step step proper
  | scanned auditId =>
    have carries := (@Scan.entering_run t.engine auditId lawful.builtin).carriesOn lawful.orderly
    exact lawful.carriesOn (carries.mono fun _ is => congrArg some is.symm) rfl lawful.live lawful.serving

/-- So it is however long it goes on. -/
lemma Lawful.history {os : List Occurrence} (lawful : t.Lawful) (history : History t os t') :
    t.world.ledger.CarriesOn (fun _ => True) t'.world.ledger ∧ t'.Lawful := by
  induction history with
  | none => exact ⟨.refl lawful.orderly, lawful⟩
  | more _ move ih =>
    obtain ⟨first, between⟩ := ih
    obtain ⟨second, after⟩ := between.move move
    exact ⟨first.trans (second.mono fun _ _ => trivial), after⟩

end History

/-- Whatever is requested and scanned, all findings have a listed category, severity, effort and state. Of the findings
before something happens some are left, in their order and with their ids, their audits and what they say about their
detection, and behind them stand new ones that say it as they were entered: not detected by a request, and detected by a
scan. So each finding keeps all of this as long as it is there. -/
theorem findings_stay_listed {t₀ t : Traffic} {os : List Occurrence} (fresh : t₀.Fresh) (history : History t₀ os t) :
    (∀ finding ∈ t.world.ledger.store.findings, finding.Listed) ∧
    (∀ o t', Move t o t' → t.world.ledger.store.Follows
      (fun finding => ∃ auto, o.enters = some auto ∧ finding.autoDetected = .bool auto) t'.world.ledger.store) ∧
    ∀ more t', History t more t' → t.world.ledger.store.Follows (fun _ => True) t'.world.ledger.store ∧
      ∀ old ∈ t.world.ledger.store.findings, ∀ finding ∈ t'.world.ledger.store.findings, finding.id = old.id →
        finding.auditId = old.auditId ∧ finding.autoDetected = old.autoDetected := by
  obtain ⟨-, lawful⟩ := fresh.lawful.history history
  refine ⟨lawful.listed, fun o t' move => ?_, fun more t' history => ?_⟩
  · exact ((lawful.move move).1.follows lawful.orderly).mono fun _ => And.right
  · have follows := (lawful.history history).1.follows lawful.orderly
    refine ⟨follows.mono fun _ _ => trivial, fun old before finding after same => ?_⟩
    obtain continues := follows.continues lawful.orderly.keyed before after same
    exact ⟨continues.auditId, continues.autoDetected⟩

/-- A service that has just begun, with a host whose repositories are empty. -/
def sampleNew : Traffic where
  world := {
    ledger := { now := sample.world.ledger.now, ids := sample.world.ledger.ids }
    host := {
      name := "host"
      repository := fun _ _ => .ok {}
      languages := fun _ _ => .ok []
      tree := fun _ _ _ => .ok []
      file := fun _ _ _ => .error "missing" } }
  engine := ⟨{}, {}, BuiltinFamily.all.map (·.toFamily {} 3)⟩

lemma sampleNew_fresh : Fresh sampleNew :=
  ⟨⟨{}, 3, BuiltinFamily.all, rfl⟩, sample_idle.injective, rfl, rfl, rfl⟩

/-- After an audit was made, and a finding of it. -/
def sampleEntered : Traffic :=
  (sampleNew.answer ⟨"POST", "/audits", "\x7b\"repo_url\": \"owner/name\"\x7d"⟩).answer
    ⟨"POST", "/audits/i/findings", "\x7b\"category\": \"cicd\", \"severity\": \"low\", \"title\": \"t\"\x7d"⟩

/-- After the finding was resolved, and the audit was scanned. -/
def sampleScanned : Traffic :=
  (sampleEntered.answer ⟨"PATCH", "/findings/ii", "\x7b\"status\": \"resolved\", \"severity\": null\x7d"⟩).scan "i"

/-- The finding that was entered is left, and two that were detected stand behind it. -/
theorem findings_stay_listed_scanned :
    (sampleScanned.world.ledger.store.findings.map fun finding =>
      (finding.autoDetected.isTruthy, finding.status.isText "resolved")) =
        [(false, true), (true, false), (true, false)] ∧
    (∀ finding ∈ sampleScanned.world.ledger.store.findings, finding.Listed) ∧
    sampleEntered.world.ledger.store.Follows (fun _ => True) sampleScanned.world.ledger.store := by
  have entered : History sampleNew _ sampleEntered := (History.none.more (.requested _)).more (.requested _)
  have changed : History sampleNew _ sampleScanned := (entered.more (.requested _)).more (.scanned _)
  have between : History sampleEntered _ sampleScanned := (History.none.more (.requested _)).more (.scanned _)
  refine ⟨by decide +kernel, (findings_stay_listed sampleNew_fresh changed).1, ?_⟩
  exact ((findings_stay_listed sampleNew_fresh entered).2.2 _ _ between).1

end Traffic

end RepoAudit
