import RepoAudit.Proofs.Scan.Effect
import RepoAudit.Proofs.Scan.Opening
import RepoAudit.Scan.Scanner

/-!
# Traffic

A service under way: one request for a scan is served at a time, accepted scans go on beside it, and other
requests come in between. Each step is one call of one of them, so `Runs` goes through every order in which
their calls can come. What happened is kept as a history; what a theorem calls an interval or the log of a scan
is read off it.
-/

namespace RepoAudit

/-- What a request other than for a scan asks of the store. -/
inductive Errand where
  | createAudit (owner name address : String)
  | deleteAudit (id : String)
  | createFinding (auditId : String) (draft : FindingRecord)
  | updateFinding (id : String) (changes : List (FindingField × Json))
  | deleteFinding (id : String)
  | getAudit (id : String)
  | listAudits
  | getFinding (id : String)
  | listFindings (auditId : String)

namespace Errand

/-- What an errand brings back. -/
abbrev Reply : Errand → Type
  | createAudit _ _ _ => AuditRecord
  | deleteAudit _ => Bool
  | createFinding _ _ => FindingRecord
  | updateFinding _ _ => Option FindingRecord
  | deleteFinding _ => Bool
  | getAudit _ => Option AuditRecord
  | listAudits => List AuditRecord
  | getFinding _ => Option FindingRecord
  | listFindings _ => List FindingRecord

/-- The operation of an errand. -/
def action : (errand : Errand) → Ledger.Action errand.Reply
  | createAudit owner name address => Ledger.createAudit owner name address
  | deleteAudit id => Ledger.deleteAudit id
  | createFinding auditId draft => Ledger.createFinding auditId draft
  | updateFinding id changes => Ledger.updateFinding id changes
  | deleteFinding id => Ledger.deleteFinding id
  | getAudit id => Ledger.getAudit id
  | listAudits => Ledger.listAudits
  | getFinding id => Ledger.getFinding id
  | listFindings auditId => Ledger.listFindings auditId

end Errand

/-- A request for a scan that is being served. -/
structure Serving where
  serial : Nat
  auditId : String
  program : Program (Except StoreError Scan.Acceptance)

/-- A scanner with the request for a scan that it serves, and the number of those it was asked. -/
structure Traffic extends Scanner where
  serving : Option Serving := none
  asked : Nat := 0

/-- What can happen in one step. -/
inductive Happening where
  /-- A request for a scan is taken up. -/
  | asked (serial : Nat) (auditId : String)
  /-- A call of the request that is served. -/
  | served (serial : Nat) (exchange : Exchange)
  /-- The request is answered. -/
  | answered (serial : Nat) (result : Except StoreError Scan.Acceptance)
  /-- A call of a scan. -/
  | scanned (number : Nat) (exchange : Exchange)
  /-- A scan ends. -/
  | ended (number : Nat) (result : Except StoreError (Option AuditRecord))
  /-- The end of a scan is reported. -/
  | reported (number : Nat)
  | did (errand : Errand) (reply : Except StoreError errand.Reply)
  /-- The clock goes on, the host changes, or the executor shuts down. -/
  | shifted

/-- True of the end of the scan of a number. -/
def Happening.isEndOf (number : Nat) : Happening → Bool
  | ended n _ => n == number
  | _ => false

lemma Happening.exists_of_isEndOf {number : Nat} {h : Happening} (ends : h.isEndOf number = true) :
    ∃ result, h = .ended number result := by
  cases h with
  | ended n result =>
    obtain rfl := eq_of_beq (show (n == number) = true from ends)
    exact ⟨result, rfl⟩
  | _ => cases ends

/-- A step in which no write failed. -/
def Happening.Saved : Happening → Prop
  | served _ exchange => exchange.Saved
  | scanned _ exchange => exchange.Saved
  | did _ reply => RepoAudit.Saved reply
  | _ => True

instance : (h : Happening) → Decidable h.Saved
  | .served _ exchange => inferInstanceAs (Decidable exchange.Saved)
  | .scanned _ exchange => inferInstanceAs (Decidable exchange.Saved)
  | .did _ reply => inferInstanceAs (Decidable (RepoAudit.Saved reply))
  | .asked _ _ | .answered _ _ | .ended _ _ | .reported _ | .shifted => .isTrue trivial

namespace Traffic

/-- The audit of an id. -/
def audit? (t : Traffic) (id : String) : Option AuditRecord := t.world.ledger.store.audit? id

/-- The scans that are live after a call: one more when the executor has taken one. -/
def liveAfter (t : Traffic) : Exchange → List LiveScan
  | ⟨.submit auditId, some number⟩ => t.live ++ [⟨number, auditId, Scan.run t.engine auditId⟩]
  | _ => t.live

/-- A scan that is live after a call was live before, or it is the one that the executor has taken. -/
lemma mem_liveAfter {t : Traffic} {e : Exchange} {scan : LiveScan} (live : scan ∈ t.liveAfter e) :
    scan ∈ t.live ∨ scan.program = Scan.run t.engine scan.auditId := by
  unfold liveAfter at live
  split at live
  · obtain old | new := List.mem_append.mp live
    · exact .inl old
    · obtain rfl := List.mem_singleton.mp new
      exact .inr rfl
  · exact .inl live

lemma liveAfter_eq {t : Traffic} {c : Call} {reply : c.Reply} (other : ∀ auditId, c ≠ .submit auditId) :
    t.liveAfter ⟨c, reply⟩ = t.live := by
  cases c with
  | submit auditId => exact absurd rfl (other auditId)
  | _ => rfl

/-- One step. -/
inductive Step : Traffic → Happening → Traffic → Prop
  | asked {t : Traffic} (auditId : String) : t.serving = none →
    Step t (.asked t.asked auditId)
      { t with serving := some ⟨t.asked, auditId, (Scan.start auditId).run⟩, asked := t.asked + 1 }
  | served {t : Traffic} {k auditId c next} : t.serving = some ⟨k, auditId, .call c next⟩ →
    Step t (.served k ⟨c, (t.world.perform c).1⟩)
      { t with
        world := (t.world.perform c).2
        live := t.liveAfter ⟨c, (t.world.perform c).1⟩
        serving := some ⟨k, auditId, next (t.world.perform c).1⟩ }
  | answered {t : Traffic} {k auditId result} : t.serving = some ⟨k, auditId, .done result⟩ →
    Step t (.answered k result) { t with serving := none }
  | scanned {t : Traffic} {before after n auditId c next} :
    t.live = before ++ ⟨n, auditId, .call c next⟩ :: after →
    Step t (.scanned n ⟨c, (t.world.perform c).1⟩)
      { t with
        world := (t.world.perform c).2
        live := before ++ ⟨n, auditId, next (t.world.perform c).1⟩ :: after }
  | ended {t : Traffic} {before after n auditId result} :
    t.live = before ++ ⟨n, auditId, .done result⟩ :: after →
    Step t (.ended n result)
      { t with
        world := { t.world with executor := t.world.executor.finish n }
        live := before ++ after }
  | reported {t : Traffic} (n : Nat) : t.serving = none →
    Step t (.reported n)
      { t with world := { t.world with executor := t.world.executor.report n } }
  | did {t : Traffic} (errand : Errand) :
    Step t (.did errand (t.world.onLedger errand.action).1)
      { t with world := (t.world.onLedger errand.action).2 }
  | shifted {t : Traffic} (now : Instant) (host : SourceHost) (accepting : Bool) :
    Step t .shifted
      { t with
        world := { t.world with
          ledger := { t.world.ledger with now }
          host
          executor := { t.world.executor with accepting } } }

/-- A call of the request that is served has the reply that the world gives. -/
lemma Step.served_inv {t t' : Traffic} {k : Nat} {e : Exchange} (step : Step t (.served k e) t') :
    ∃ auditId next, t.serving = some ⟨k, auditId, .call e.call next⟩ ∧
      (t.world.perform e.call).1 = e.reply ∧ t'.world = (t.world.perform e.call).2 := by
  cases step with
  | served serving => exact ⟨_, _, serving, rfl, rfl⟩

/-- A call of a scan has the reply that the world gives. -/
lemma Step.scanned_inv {t t' : Traffic} {n : Nat} {e : Exchange} (step : Step t (.scanned n e) t') :
    ∃ auditId next, ⟨n, auditId, .call e.call next⟩ ∈ t.live ∧
      (t.world.perform e.call).1 = e.reply ∧ t'.world = (t.world.perform e.call).2 := by
  cases step with
  | @scanned before after _ auditId c next live =>
    exact ⟨auditId, next, live ▸ List.mem_append_right before List.mem_cons_self, rfl, rfl⟩

/-- An errand has the reply that the store gives. -/
lemma Step.did_inv {t t' : Traffic} {errand : Errand} {reply : Except StoreError errand.Reply}
    (step : Step t (.did errand reply) t') : reply = (Ledger.Action.on errand.action t.world.ledger).1 ∧
      t'.world = { t.world with ledger := (Ledger.Action.on errand.action t.world.ledger).2 } := by
  generalize is : Happening.did errand reply = h at step
  cases step with
  | did errand' =>
    obtain ⟨rfl, same⟩ := Happening.did.inj is
    exact ⟨eq_of_heq same, rfl⟩
  | _ => cases is

/-- Steps one after the other, with what happened. -/
inductive Runs : Traffic → List Happening → Traffic → Prop
  | none {t : Traffic} : Runs t [] t
  | more {t₀ t t' : Traffic} {hs : List Happening} {h : Happening} :
    Runs t₀ hs t → Step t h t' → Runs t₀ (hs ++ [h]) t'

lemma Runs.trans {t₀ t t' : Traffic} {hs more : List Happening} (first : Runs t₀ hs t)
    (second : Runs t more t') : Runs t₀ (hs ++ more) t' := by
  induction second with
  | none => simpa using first
  | more _ step ih =>
    rw [← List.append_assoc]
    exact .more ih step

lemma Runs.cons {t t₁ t' : Traffic} {h : Happening} {hs : List Happening} (step : Step t h t₁)
    (rest : Runs t₁ hs t') : Runs t (h :: hs) t' := by
  have first : Runs t ([] ++ [h]) t₁ := Runs.none.more step
  exact first.trans rest

/-- A run goes through a state after each part of what happened. -/
lemma Runs.cut {t₀ t : Traffic} {before after : List Happening} (runs : Runs t₀ (before ++ after) t) :
    ∃ t₁, Runs t₀ before t₁ ∧ Runs t₁ after t := by
  generalize whole : before ++ after = hs at runs
  induction runs generalizing after with
  | none =>
    obtain ⟨rfl, rfl⟩ := List.append_eq_nil_iff.mp whole
    exact ⟨_, .none, .none⟩
  | @more t t' hs last runs step ih =>
    obtain rfl | ⟨rest, final, rfl⟩ := List.eq_nil_or_concat after
    · rw [List.append_nil] at whole
      exact ⟨t', whole ▸ runs.more step, .none⟩
    · rw [List.concat_eq_append, ← List.append_assoc] at whole
      obtain ⟨rfl, same⟩ := List.append_inj' whole rfl
      obtain rfl : final = last := by simpa using same
      obtain ⟨t₁, first, others⟩ := ih rfl
      refine ⟨t₁, first, ?_⟩
      rw [List.concat_eq_append]
      exact others.more step

/-- A run goes through the state before each thing that happened. -/
lemma Runs.split {t₀ t : Traffic} {before after : List Happening} {h : Happening}
    (runs : Runs t₀ (before ++ h :: after) t) :
    ∃ t₁ t₂, Runs t₀ before t₁ ∧ Step t₁ h t₂ ∧ Runs t₂ after t := by
  rw [← List.singleton_append, ← List.append_assoc] at runs
  obtain ⟨t₂, through, rest⟩ := runs.cut
  generalize whole : before ++ [h] = hs at through
  cases through with
  | none => simp at whole
  | @more t₁ _ _ _ first step =>
    obtain ⟨rfl, same⟩ := List.append_inj' whole rfl
    obtain rfl : h = _ := by simpa using same
    exact ⟨t₁, t₂, first, step, rest⟩

/-- A run in which something happened has a first step. -/
lemma Runs.head {t t' : Traffic} {h : Happening} {hs : List Happening} (runs : Runs t (h :: hs) t') :
    ∃ t₁, Step t h t₁ ∧ Runs t₁ hs t' := by
  obtain ⟨t₁, t₂, first, step, rest⟩ := (show Runs t ([] ++ h :: hs) t' from runs).split
  generalize nothing : [] = before at first
  cases first with
  | none => exact ⟨t₂, step, rest⟩
  | more => simp at nothing

/-- The step that is due: the request that is served goes on, or else the first live scan does. -/
def turn (t : Traffic) : Option (Happening × Traffic) :=
  match t.serving, t.live with
  | some ⟨k, auditId, .call c next⟩, _ =>
    some (.served k ⟨c, (t.world.perform c).1⟩, { t with
      world := (t.world.perform c).2
      live := t.liveAfter ⟨c, (t.world.perform c).1⟩
      serving := some ⟨k, auditId, next (t.world.perform c).1⟩ })
  | some ⟨k, _, .done result⟩, _ => some (.answered k result, { t with serving := none })
  | none, ⟨n, auditId, .call c next⟩ :: rest =>
    some (.scanned n ⟨c, (t.world.perform c).1⟩, { t with
      world := (t.world.perform c).2
      live := ⟨n, auditId, next (t.world.perform c).1⟩ :: rest })
  | none, ⟨n, _, .done result⟩ :: rest =>
    some (.ended n result, { t with
      world := { t.world with executor := t.world.executor.finish n }
      live := rest })
  | none, [] => none

lemma turn_step {t t' : Traffic} {h : Happening} (due : t.turn = some (h, t')) : Step t h t' := by
  unfold turn at due
  split at due
  · next serving =>
    cases due
    exact .served serving
  · next serving =>
    cases due
    exact .answered serving
  · next rest _ live =>
    cases due
    exact .scanned (show t.live = [] ++ _ :: rest from live)
  · next rest _ live =>
    cases due
    exact .ended (show t.live = [] ++ _ :: rest from live)
  · cases due

/-- The steps that are due, one after the other, up to some number of them. -/
def turns : Nat → Traffic → List Happening × Traffic
  | 0, t => ([], t)
  | n + 1, t =>
    match t.turn with
    | some (h, t') => (h :: (turns n t').1, (turns n t').2)
    | none => ([], t)

lemma runs_turns (n : Nat) (t : Traffic) : Runs t (t.turns n).1 (t.turns n).2 := by
  induction n generalizing t with
  | zero => exact .none
  | succ n ih =>
    unfold turns
    split
    · next h t' due => exact (ih t').cons (turn_step due)
    · exact .none

end Traffic

end RepoAudit
