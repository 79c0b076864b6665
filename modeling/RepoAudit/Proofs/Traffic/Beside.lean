import Mathlib.Logic.Relation
import RepoAudit.Proofs.Traffic.Concern

/-!
# What happens beside a run

A run of an audit is a request and the scan, or a scan that nobody asked for. While it goes on, anything may be done
about other audits: requests, scans, errands, one call at a time (`Traffic.Meanwhile`). Whatever happens, what goes on
for an audit stays about this audit (`Traffic.Hosts`). So each step is one of the run, or it leaves the run and its
audit (`Traffic.Moves`).
-/

namespace RepoAudit

/-- What is certain of the world after a step: the host is the same one, and an executor that took no more scans does
not take any again. -/
structure World.Continues (world after : World) : Prop where
  host : after.host = world.host
  accepting : after.executor.accepting = true → world.executor.accepting = true

lemma World.continues_perform (world : World) (c : Call) : world.Continues (world.perform c).2 :=
  ⟨perform_host c, fun accepting => perform_accepting world c ▸ accepting⟩

namespace Traffic

/-- The findings of an audit. -/
def findingsOf (t : Traffic) (auditId : String) : List FindingRecord := t.world.ledger.store.findingsOf auditId

/-- The scans of an audit that go on. -/
def scansOf (t : Traffic) (auditId : String) : List LiveScan := t.live.filter (·.auditId == auditId)

/-- The request for a scan of an audit that is served. -/
def requestFor (t : Traffic) (auditId : String) : Option Serving := t.serving.filter (·.auditId == auditId)

/-- A call that a run of the audit makes next: of the request for it, or of its scan. -/
def Makes (t : Traffic) (auditId : String) (c : Call) : Prop :=
  (∃ k next, t.serving = some ⟨k, auditId, .call c next⟩) ∨ ∃ n next, ⟨n, auditId, .call c next⟩ ∈ t.live

/-- What can happen to a service: a step, a change of an audit or of a finding by the names of its fields, and a scan
that goes on though nobody asked the executor for it. -/
inductive Event where
  | step (h : Happening)
  | changesAudit (id : String) (changes : List (String × Json))
  | changesFinding (id : String) (changes : List (String × Json))
  | scans (number : Nat) (engine : Engine) (id : String)

/-- What an event does. -/
inductive Occurs : Traffic → Event → Traffic → Prop
  | step {t t' : Traffic} {h : Happening} : Step t h t' → Occurs t (.step h) t'
  | changesAudit {t : Traffic} (id : String) (changes : List (String × Json)) :
    Occurs t (.changesAudit id changes)
      { t with world := (t.world.onLedger (Ledger.updateAuditByName id changes)).2 }
  | changesFinding {t : Traffic} (id : String) (changes : List (String × Json)) :
    Occurs t (.changesFinding id changes)
      { t with world := (t.world.onLedger (Ledger.updateFindingByName id changes)).2 }
  | scans {t : Traffic} (number : Nat) (engine : Engine) (id : String) :
    Occurs t (.scans number engine id) { t with live := t.live ++ [⟨number, id, Scan.run engine id⟩] }

/-- An event in which no write fails. -/
def Event.Saved (t : Traffic) : Event → Prop
  | step h => h.Saved
  | changesAudit id changes => RepoAudit.Saved (t.world.onLedger (Ledger.updateAuditByName id changes)).1
  | changesFinding id changes => RepoAudit.Saved (t.world.onLedger (Ledger.updateFindingByName id changes)).1
  | scans _ _ _ => True

/-- True of an event that is about these audits, and of a call of what goes on for any audit. -/
def Event.About (about : String → Prop) (t : Traffic) : Event → Prop
  | step (.asked _ id) => about id
  | step (.did errand _) => errand.About about t.world.ledger.store
  | step (.ended n result) => ∀ id, ⟨n, id, .done result⟩ ∈ t.live → about id
  | step _ => True
  | changesAudit id _ => about id
  | changesFinding id _ => t.world.ledger.store.IsAbout about id
  | scans _ _ id => about id

/-- What can happen to a service for a while. -/
abbrev Arises : Traffic → Traffic → Prop := Relation.ReflTransGen fun t t' => ∃ event, Occurs t event t'

/-- What can happen while a run of the audit goes on, when no write fails: a call of the run, or whatever is about other
audits. The host stays the same one, and the scan of the audit stays once it is done. -/
def Meanwhile (auditId : String) (t t' : Traffic) : Prop :=
  ∃ event, Occurs t event t' ∧ event.Saved t ∧ event.About (· ≠ auditId) t ∧ t.world.Continues t'.world

/-- What can happen one after the other while a run of the audit goes on. -/
abbrev Goes (auditId : String) : Traffic → Traffic → Prop := Relation.ReflTransGen (Meanwhile auditId)

/-- A service that does nothing. Its findings have ids of their own, and the ids to be drawn are new. -/
structure Quiet (t : Traffic) : Prop where
  orderly : t.world.ledger.Orderly
  live : t.live = []
  serving : t.serving = none

/-- All that goes on for the audit is about the audit, and all that goes on for other audits is about other audits. -/
structure Hosts (auditId : String) (t : Traffic) : Prop where
  orderly : t.world.ledger.Orderly
  live : ∀ scan ∈ t.live, scan.auditId ≠ auditId → scan.program.Elsewhere auditId t.world.ledger
  serving : ∀ s, t.serving = some s → s.auditId ≠ auditId → s.program.Elsewhere auditId t.world.ledger
  scans : ∀ scan ∈ t.live, scan.auditId = auditId → scan.program.Keeps (confinement auditId) (fun _ _ => True) ()
  request : ∀ s, t.serving = some s → s.auditId = auditId →
    ∃ phase, s.program.Requests auditId t.world.ledger phase

/-- The request for the audit makes a call. -/
structure Serves (auditId : String) (k : Nat) (c : Call) (next : c.Reply → Program (Except StoreError Scan.Acceptance))
    (t t' : Traffic) : Prop where
  request : t.requestFor auditId = some ⟨k, auditId, .call c next⟩
  saved : Exchange.Saved ⟨c, (t.world.perform c).1⟩
  world : t'.world = (t.world.perform c).2
  scans : t'.scansOf auditId = (t.liveAfter ⟨c, (t.world.perform c).1⟩).filter (·.auditId == auditId)
  goes : t'.requestFor auditId = some ⟨k, auditId, next (t.world.perform c).1⟩

/-- What a step is to the audit: others do something, or it is a step of the request for the audit or of its scan. -/
inductive Moves (auditId : String) (t t' : Traffic) : Prop
  | others : t.world.ledger.Touches (· ≠ auditId) t'.world.ledger → t.world.Continues t'.world →
    t'.scansOf auditId = t.scansOf auditId → t'.requestFor auditId = t.requestFor auditId → Moves auditId t t'
  | asks {k : Nat} {c : Call} {next : c.Reply → Program (Except StoreError Scan.Acceptance)} :
    Serves auditId k c next t t' → Moves auditId t t'
  | answered {k : Nat} {answer : Except StoreError Scan.Acceptance} :
    t.requestFor auditId = some ⟨k, auditId, .done answer⟩ → t'.world = t.world →
    t'.scansOf auditId = t.scansOf auditId → t'.requestFor auditId = none → Moves auditId t t'
  | scans {before after : List LiveScan} {n : Nat} {c : Call}
    {next : c.Reply → Program (Except StoreError (Option AuditRecord))} :
    t.scansOf auditId = before ++ ⟨n, auditId, .call c next⟩ :: after →
    Exchange.Saved ⟨c, (t.world.perform c).1⟩ → t'.world = (t.world.perform c).2 →
    t'.scansOf auditId = before ++ ⟨n, auditId, next (t.world.perform c).1⟩ :: after →
    t'.requestFor auditId = t.requestFor auditId → Moves auditId t t'

section Hosts

variable {auditId : String} {t t' : Traffic} {about : String → Prop}

/-- What goes on stays about its audits, whatever the store becomes. -/
lemma Hosts.world {world : World} (hosts : Hosts auditId t)
    (touches : t.world.ledger.Touches about world.ledger) : Hosts auditId { t with world } where
  orderly := hosts.orderly.touches touches
  live scan member apart := (hosts.live scan member apart).touches hosts.orderly touches
  serving s served apart := (hosts.serving s served apart).touches hosts.orderly touches
  scans := hosts.scans
  request s served own := by
    obtain ⟨phase, requests⟩ := hosts.request s served own
    exact ⟨phase, requests.touches hosts.orderly touches⟩

/-- Scans go on beside, each of which has just begun. -/
lemma Hosts.joined {live : List LiveScan} (hosts : Hosts auditId t)
    (joined : ∀ scan ∈ live, scan ∈ t.live ∨ ∃ engine, scan.program = Scan.run engine scan.auditId) :
    Hosts auditId { t with live } := by
  refine { hosts with live := fun scan member apart => ?_, scans := fun scan member own => ?_ }
  · obtain old | ⟨engine, begun⟩ := joined scan member
    · exact hosts.live scan old apart
    · rw [begun]
      exact Scan.elsewhere_run apart
  · obtain old | ⟨engine, begun⟩ := joined scan member
    · exact hosts.scans scan old own
    · rw [begun, own]
      exact Scan.confined_run

/-- A call of the request that is served. -/
lemma Hosts.serves {k : Nat} {id : String} {c : Call} {next : c.Reply → Program (Except StoreError Scan.Acceptance)}
    (hosts : Hosts auditId t) (serving : t.serving = some ⟨k, id, .call c next⟩) : let t' := { t with
      world := (t.world.perform c).2
      live := t.liveAfter ⟨c, (t.world.perform c).1⟩
      serving := some ⟨k, id, next (t.world.perform c).1⟩ }
    Hosts auditId t' ∧ (Exchange.Saved ⟨c, (t.world.perform c).1⟩ → Moves auditId t t') := by
  have joined : ∀ scan ∈ t.liveAfter ⟨c, (t.world.perform c).1⟩,
      scan ∈ t.live ∨ ∃ engine, scan.program = Scan.run engine scan.auditId :=
    fun scan live => (mem_liveAfter live).imp_right fun begun => ⟨t.engine, begun⟩
  by_cases own : id = auditId
  · subst own
    obtain ⟨phase, requests⟩ := hosts.request _ serving rfl
    obtain ⟨about, goes⟩ := requests.call hosts.orderly
    have hosts' := (hosts.world (World.touches about)).joined joined
    have request : t.requestFor id = some ⟨k, id, .call c next⟩ := by simp [requestFor, serving]
    refine ⟨{ hosts' with serving := fun s served apart => ?_, request := fun s served _ => ?_ },
      fun saved => .asks ⟨request, saved, rfl, rfl, by simp [requestFor]⟩⟩
    · obtain rfl := Option.some.inj served
      exact absurd rfl apart
    · obtain rfl := Option.some.inj served
      exact ⟨_, goes⟩
  · obtain ⟨about, goes, other⟩ := (hosts.serving _ serving own).call hosts.orderly
    have hosts' := (hosts.world (World.touches about)).joined joined
    refine ⟨{ hosts' with serving := fun s served _ => ?_, request := fun s served same => ?_ },
      fun _ => .others (World.touches about) (t.world.continues_perform c) ?_ ?_⟩
    · obtain rfl := Option.some.inj served
      exact goes
    · obtain rfl := Option.some.inj served
      exact absurd same own
    · -- A scan that begins by the call is not one of the audit.
      simp only [scansOf]
      generalize is : (⟨c, (t.world.perform c).1⟩ : Exchange) = e
      unfold liveAfter
      split
      · next taken number =>
        obtain ⟨rfl, -⟩ := Exchange.mk.inj is
        have apart : taken ≠ auditId := by
          rintro rfl
          exact other rfl
        simp [apart]
      · rfl
    · simp [requestFor, serving, Option.filter, own]

/-- A call of a scan. -/
lemma Hosts.goesOn {before after : List LiveScan} {n : Nat} {id : String} {c : Call}
    {next : c.Reply → Program (Except StoreError (Option AuditRecord))} (hosts : Hosts auditId t)
    (live : t.live = before ++ ⟨n, id, .call c next⟩ :: after) : let t' := { t with
      world := (t.world.perform c).2
      live := before ++ ⟨n, id, next (t.world.perform c).1⟩ :: after }
    Hosts auditId t' ∧ (Exchange.Saved ⟨c, (t.world.perform c).1⟩ → Moves auditId t t') := by
  have here : ⟨n, id, .call c next⟩ ∈ t.live := live ▸ List.mem_append_right before List.mem_cons_self
  have old {scan : LiveScan} (member : scan ∈ before ++ ⟨n, id, next (t.world.perform c).1⟩ :: after) :
      scan = ⟨n, id, next (t.world.perform c).1⟩ ∨ scan ∈ t.live := by
    rw [live]
    simp only [List.mem_append, List.mem_cons] at member ⊢
    tauto
  by_cases own : id = auditId
  · subst own
    obtain ⟨stays, goes⟩ := hosts.scans _ here rfl
    have hosts' := hosts.world (World.touches (stays.about _))
    have scans : t.scansOf id =
        before.filter (·.auditId == id) ++ ⟨n, id, .call c next⟩ :: after.filter (·.auditId == id) := by
      simp [scansOf, live]
    refine ⟨{ hosts' with live := fun scan member apart => ?_, scans := fun scan member same => ?_ },
      fun saved => .scans scans saved rfl (by simp [scansOf]) rfl⟩
    · obtain rfl | member := old member
      · exact absurd rfl apart
      · exact hosts'.live scan member apart
    · obtain rfl | member := old member
      · exact goes _ trivial
      · exact hosts'.scans scan member same
  · obtain ⟨about, goes, -⟩ := (hosts.live _ here own).call hosts.orderly
    have hosts' := hosts.world (World.touches about)
    refine ⟨{ hosts' with live := fun scan member apart => ?_, scans := fun scan member same => ?_ },
      fun _ => .others (World.touches about) (t.world.continues_perform c) ?_ rfl⟩
    · obtain rfl | member := old member
      · exact goes
      · exact hosts'.live scan member apart
    · obtain rfl | member := old member
      · exact absurd same own
      · exact hosts'.scans scan member same
    · simp [scansOf, live, own]

/-- Whatever happens, what goes on stays about its audits. When it is about other audits, it leaves the audit, or it is
a step of the request for it or of its scan. -/
lemma Hosts.occurs {event : Event} (hosts : Hosts auditId t) (occurs : Occurs t event t') :
    Hosts auditId t' ∧ (t.world.ledger.Spent auditId → event.Saved t → event.About (· ≠ auditId) t →
      t.world.Continues t'.world → Moves auditId t t') := by
  have stays (world : World) : world.ledger.Touches (· ≠ auditId) world.ledger := .refl _ world.ledger
  cases occurs with
  | @step _ h step =>
    cases step with
    | asked id free =>
      refine ⟨{ hosts with serving := fun s current apart => ?_, request := fun s current own => ?_ },
        fun _ _ apart continues => .others (stays _) continues rfl ?_⟩
      · obtain rfl := Option.some.inj current
        exact Scan.elsewhere_start apart
      · obtain rfl := Option.some.inj current
        obtain rfl : id = auditId := own
        exact ⟨_, Scan.requests_start id _⟩
      · have apart : id ≠ auditId := apart
        simp [requestFor, free, Option.filter, apart]
    | served serving =>
      obtain ⟨hosts', moves⟩ := hosts.serves serving
      exact ⟨hosts', fun _ saved _ _ => moves saved⟩
    | @answered k id result serving =>
      refine ⟨{ hosts with serving := by simp, request := by simp }, fun _ _ _ continues => ?_⟩
      by_cases own : id = auditId
      · subst own
        have request : t.requestFor id = some ⟨k, id, .done result⟩ := by simp [requestFor, serving]
        exact .answered request rfl rfl rfl
      · exact .others (stays _) continues rfl (by simp [requestFor, serving, Option.filter, own])
    | scanned live =>
      obtain ⟨hosts', moves⟩ := hosts.goesOn live
      exact ⟨hosts', fun _ saved _ _ => moves saved⟩
    | @ended before after n id result live =>
      have fewer : before ++ after ⊆ t.live := by
        rw [live]
        exact ((List.sublist_cons_self _ after).append_left before).subset
      have hosts' : Hosts auditId { t with world := { t.world with executor := t.world.executor.finish n } } :=
        hosts.world (stays t.world)
      refine ⟨hosts'.joined fun scan member => .inl (fewer member),
        fun _ _ about continues => .others (stays t.world) continues ?_ rfl⟩
      have apart : id ≠ auditId := about id (live ▸ List.mem_append_right before List.mem_cons_self)
      simp [scansOf, live, apart]
    | reported k =>
      exact ⟨hosts.world (stays t.world), fun _ _ _ continues => .others (stays t.world) continues rfl rfl⟩
    | did errand =>
      have touches : t.world.ledger.Touches (fun _ => True) (Ledger.Action.on errand.action t.world.ledger).2 :=
        Errand.touches (errand.about_true _) fun _ _ _ _ => trivial
      refine ⟨hosts.world touches, fun spent _ about continues => .others ?_ continues rfl rfl⟩
      -- An audit that the errand makes is another one, since the id of the audit is not drawn again.
      exact Errand.touches about fun _ _ _ _ => spent _ (Nat.lt_succ_self _)
    | shifted now host accepting =>
      have touches : t.world.ledger.Touches (· ≠ auditId) { t.world.ledger with now } := ⟨rfl, .keeps (Nat.le_refl _)⟩
      exact ⟨hosts.world touches, fun _ _ _ continues => .others touches continues rfl rfl⟩
  | changesAudit id changes =>
    have touches : t.world.ledger.Touches (fun _ => True) _ :=
      Ledger.touches_updateAuditByName id changes t.world.ledger trivial
    exact ⟨hosts.world touches, fun _ _ apart continues =>
      .others (Ledger.touches_updateAuditByName id changes t.world.ledger apart) continues rfl rfl⟩
  | changesFinding id changes =>
    have touches : t.world.ledger.Touches (fun _ => True) _ :=
      Ledger.touches_updateFindingByName id changes t.world.ledger fun _ _ _ _ => trivial
    exact ⟨hosts.world touches, fun _ _ apart continues =>
      .others (Ledger.touches_updateFindingByName id changes t.world.ledger apart) continues rfl rfl⟩
  | scans number engine id =>
    refine ⟨hosts.joined fun scan member => ?_,
      fun _ _ apart continues => .others (stays t.world) continues ?_ rfl⟩
    · obtain old | new := List.mem_append.mp member
      · exact .inl old
      · obtain rfl := List.mem_singleton.mp new
        exact .inr ⟨engine, rfl⟩
    · have apart : id ≠ auditId := apart
      simp [scansOf, apart]

lemma Quiet.hosts (quiet : Quiet t) : Hosts auditId t := by
  refine ⟨quiet.orderly, ?_, ?_, ?_, ?_⟩
  · simp [quiet.live]
  · simp [quiet.serving]
  · simp [quiet.live]
  · simp [quiet.serving]

lemma Hosts.arises (hosts : Hosts auditId t) (arises : Arises t t') : Hosts auditId t' := by
  induction arises with
  | refl => exact hosts
  | tail _ happens ih =>
    obtain ⟨event, occurs⟩ := happens
    exact (ih.occurs occurs).1

lemma Meanwhile.engine_eq (meanwhile : Meanwhile auditId t t') : t'.engine = t.engine := by
  obtain ⟨event, occurs, -⟩ := meanwhile
  cases occurs with
  | step step => cases step <;> rfl
  | _ => rfl

lemma Moves.spent (moves : Moves auditId t t') (spent : t.world.ledger.Spent auditId) :
    t'.world.ledger.Spent auditId := by
  have calls (c : Call) : (t.world.perform c).2.ledger.Spent auditId :=
    spent.touches (World.touches (c.about_true _))
  cases moves with
  | others touches => exact spent.touches touches
  | asks serves => exact serves.world ▸ calls _
  | answered _ same => exact same ▸ spent
  | scans _ _ same => exact same ▸ calls _

lemma Goes.hosts (goes : Goes auditId t t') (hosts : Hosts auditId t) (spent : t.world.ledger.Spent auditId) :
    Hosts auditId t' ∧ t'.world.ledger.Spent auditId := by
  induction goes with
  | refl => exact ⟨hosts, spent⟩
  | tail _ meanwhile ih =>
    obtain ⟨hosts, spent⟩ := ih
    obtain ⟨event, occurs, saved, about, continues⟩ := meanwhile
    obtain ⟨hosts', moves⟩ := hosts.occurs occurs
    exact ⟨hosts', (moves spent saved about continues).spent spent⟩

end Hosts

end Traffic

end RepoAudit
