import RepoAudit.Proofs.Traffic.Acceptance
import RepoAudit.Proofs.Traffic.Bookkeeping
import RepoAudit.Proofs.Traffic.Outcome

/-!
# Waiting for scans

Who waits for the scan of an audit asks the executor for the scan that it knows, waits for its end, and then
looks at the audit. In an endless course of steps in which every live scan goes on in time, the end comes; and
when no other scan is accepted meanwhile, the audit is complete then.
-/

namespace RepoAudit

/-- True of what the scan of a number does: its calls and its end. -/
def Happening.IsOf (number : Nat) : Happening → Prop
  | scanned n _ => n = number
  | ended n _ => n = number
  | _ => False

namespace Traffic

/-! ## Scans come to an end -/

/-- An endless course of steps in which every live scan goes on in time. -/
structure Fair (states : Nat → Traffic) (happens : Nat → Happening) : Prop where
  steps : ∀ i, Step (states i) (happens i) (states (i + 1))
  goes : ∀ i, ∀ scan ∈ (states i).live, ∃ j, i ≤ j ∧ (happens j).IsOf scan.number

/-- What has happened before a moment of a course. -/
def upTo (happens : Nat → Happening) : Nat → List Happening
  | 0 => []
  | i + 1 => upTo happens i ++ [happens i]

section Fair

variable {states : Nat → Traffic} {happens : Nat → Happening} {hs : List Happening} {h : Happening}
variable {t t' : Traffic} {scan : LiveScan} {n : Nat}

lemma Fair.runs (fair : Fair states happens) (i : Nat) : Runs (states 0) (upTo happens i) (states i) := by
  induction i with
  | zero => exact .none
  | succ i ih => exact ih.more (fair.steps i)

/-- A scan stays as it is as long as it does nothing. -/
lemma Step.rests_live (step : Step t h t') (live : scan ∈ t.live) (rests : ¬ h.IsOf scan.number) : scan ∈ t'.live := by
  cases step with
  | served =>
    unfold liveAfter
    split
    · exact List.mem_append_left _ live
    · exact live
  | scanned was =>
    rw [was, List.mem_append, List.mem_cons] at live
    obtain before | rfl | after := live
    · exact List.mem_append_left _ before
    · exact absurd rfl rests
    · exact List.mem_append_right _ (List.mem_cons_of_mem _ after)
  | ended was =>
    rw [was, List.mem_append, List.mem_cons] at live
    obtain before | rfl | after := live
    · exact List.mem_append_left _ before
    · exact absurd rfl rests
    · exact List.mem_append_right _ after
  | asked | answered | reported | did | shifted => exact live

/-- A live scan stays as it is up to a moment at which it goes on. -/
lemma Fair.goes_on (fair : Fair states happens) {i : Nat} (live : scan ∈ (states i).live) :
    ∃ j, i ≤ j ∧ (happens j).IsOf scan.number ∧ scan ∈ (states j).live := by
  obtain ⟨j, later, goes⟩ := fair.goes i scan live
  obtain ⟨d, rfl⟩ := Nat.exists_eq_add_of_le later
  clear later
  induction d generalizing i with
  | zero => exact ⟨i, Nat.le_refl i, goes, live⟩
  | succ d ih =>
    by_cases now : (happens i).IsOf scan.number
    · exact ⟨i, Nat.le_refl i, now, live⟩
    · rw [Nat.add_comm d, ← Nat.add_assoc] at goes
      obtain ⟨j, later, rest⟩ := ih ((fair.steps i).rests_live live now) goes
      exact ⟨j, Nat.le_of_succ_le later, rest⟩

/-- A scan that does something makes its next call, or it ends. -/
lemma Booked.goes (booked : Booked hs t) (step : Step t h t') {auditId : String}
    {program : Program (Except StoreError (Option AuditRecord))} (live : ⟨n, auditId, program⟩ ∈ t.live)
    (goes : h.IsOf n) : (∃ c next, program = .call c next ∧ ∃ reply, ⟨n, auditId, next reply⟩ ∈ t'.live) ∨
      ∃ result, h = .ended n result := by
  cases step with
  | @scanned before after m owner c next was =>
    obtain rfl : m = n := goes
    have same : (⟨m, owner, .call c next⟩ : LiveScan) = ⟨m, auditId, program⟩ :=
      List.inj_on_of_nodup_map booked.manned.distinct (by simp [was]) live rfl
    obtain ⟨-, rfl, rfl⟩ := LiveScan.mk.inj same
    exact .inl ⟨c, next, rfl, _, List.mem_append_right _ List.mem_cons_self⟩
  | @ended before after m owner result was =>
    obtain rfl : m = n := goes
    exact .inr ⟨result, rfl⟩
  | asked | served | answered | reported | did | shifted => exact goes.elim

/-- Every live scan ends: by induction on its program, of which each call leads to a part. -/
lemma Fair.ends (fair : Fair states happens) (booked : Booked hs (states 0))
    {program : Program (Except StoreError (Option AuditRecord))} {auditId : String} {i : Nat}
    (live : ⟨n, auditId, program⟩ ∈ (states i).live) : ∃ j result, i ≤ j ∧ happens j = .ended n result := by
  induction program generalizing i with
  | done value =>
    obtain ⟨j, later, goes, still⟩ := fair.goes_on live
    obtain ⟨c, next, same, -⟩ | ⟨result, is⟩ := (booked.runs (fair.runs j)).goes (fair.steps j) still goes
    · cases same
    · exact ⟨j, result, later, is⟩
  | call c next ih =>
    obtain ⟨j, later, goes, still⟩ := fair.goes_on live
    obtain ⟨_, _, ⟨⟩, reply, live'⟩ | ⟨result, is⟩ := (booked.runs (fair.runs j)).goes (fair.steps j) still goes
    · obtain ⟨j', result, later', is⟩ := ih reply live'
      exact ⟨j', result, Nat.le_of_succ_le (Nat.le_trans (Nat.succ_le_succ later) later'), is⟩
    · exact ⟨j, result, later, is⟩

lemma ended_mem_upTo {i : Nat} {result : Except StoreError (Option AuditRecord)} (is : happens i = .ended n result) :
    .ended n result ∈ upTo happens (i + 1) := by
  rw [upTo, is]
  exact List.mem_append_right _ List.mem_cons_self

end Fair

/-! ## Marks are accounted for -/

/-- The request has marked the audit, and has not taken the mark back: a scan is being accepted, or was. -/
def Accepting (hs : List Happening) (auditId : String) (k : Nat) : Prop :=
  (∃ base, Begun hs auditId k base) ∧ ¬ Withdrawn hs k

/-- Every mark is accounted for: the executor took a scan for it, or the request took it back, or the request is
still being served. An audit whose last mark was taken back is complete. -/
structure Attended (hs : List Happening) (t : Traffic) : Prop where
  keeps : ∀ s, t.serving = some s → s.program.Keeps (Scan.opening s.auditId) (fun result o => o.EndsWith result)
    (reached s.serial hs)
  own : ∀ s auditId base, t.serving = some s → Begun hs auditId s.serial base →
    auditId = s.auditId ∧ (reached s.serial hs = .closed → Withdrawn hs s.serial)
  left : ∀ auditId k base, Begun hs auditId k base →
    (∃ n, Admitted hs auditId k n) ∨ Withdrawn hs k ∨ ∃ s, t.serving = some s ∧ s.serial = k
  restored : ∀ auditId k, Newest hs auditId k → Withdrawn hs k →
    ∀ audit, t.audit? auditId = some audit → audit.status = .text Store.complete

section Attended

variable {hs : List Happening} {h : Happening} {t t' : Traffic} {auditId : String} {k n : Nat}

/-- A step that is no call of a request. -/
lemma Attended.rests (attended : Attended hs t) (reads : ∀ k e, h ≠ .served k e)
    (keeps : ∀ s, t'.serving = some s → s.program.Keeps (Scan.opening s.auditId)
      (fun result o => o.EndsWith result) (reached s.serial hs))
    (own : ∀ s auditId base, t'.serving = some s → Begun hs auditId s.serial base →
      auditId = s.auditId ∧ (reached s.serial hs = .closed → Withdrawn hs s.serial))
    (left : ∀ auditId k base, Begun hs auditId k base → (∃ s, t.serving = some s ∧ s.serial = k) →
      (∃ n, Admitted hs auditId k n) ∨ Withdrawn hs k ∨ ∃ s, t'.serving = some s ∧ s.serial = k)
    (restored : ∀ auditId k, Newest hs auditId k → Withdrawn hs k → ∀ audit, t'.audit? auditId = some audit →
      t.audit? auditId = some audit) : Attended (hs ++ [h]) t' := by
  have begun {b k base} : Begun (hs ++ [h]) b k base ↔ Begun hs b k base := by simp [begun_concat, reads]
  have admitted {b k n} : Admitted (hs ++ [h]) b k n ↔ Admitted hs b k n := by simp [admitted_concat, reads]
  have withdrawn {k} : Withdrawn (hs ++ [h]) k ↔ Withdrawn hs k := by simp [withdrawn_concat, reads]
  have newest {b k} : Newest (hs ++ [h]) b k ↔ Newest hs b k := by simp [Newest, begun]
  have same (k : Nat) : reached k (hs ++ [h]) = reached k hs := reached_concat_other (reads k)
  refine ⟨fun s current => ?_, fun s b base current marked => ?_, fun b k base marked => ?_,
    fun b k last back audit found => ?_⟩
  · rw [same]
    exact keeps s current
  · rw [same, withdrawn]
    exact own s b base current (begun.mp marked)
  · simp only [admitted, withdrawn]
    obtain taken | back | served := attended.left b k base (begun.mp marked)
    · exact .inl taken
    · exact .inr (.inl back)
    · exact left b k base (begun.mp marked) served
  · have last := newest.mp last
    have back := withdrawn.mp back
    exact attended.restored b k last back audit (restored b k last back audit found)

lemma Attended.asks (attended : Attended hs t) (sound : Sound hs t) (waits : t.serving = none) (auditId : String) :
    Attended (hs ++ [.asked t.asked auditId])
      { t with serving := some ⟨t.asked, auditId, (Scan.start auditId).run⟩, asked := t.asked + 1 } := by
  have unserved (e : Exchange) : .served t.asked e ∉ hs := fun happened =>
    Nat.lt_irrefl _ (sound.tidy.serials _ e happened)
  refine attended.rests (by simp) ?_ ?_ ?_ fun _ _ _ _ _ found => found
  · rintro s ⟨⟩
    rw [reached_of_unserved unserved]
    exact Scan.opens_start_ends
  · rintro s b base ⟨⟩ begun
    exact absurd begun (unserved _)
  · rintro b k base - ⟨s, current, -⟩
    rw [waits] at current
    cases current

/-- When a request is answered, its mark is accounted for. -/
lemma Attended.answers (attended : Attended hs t) (sound : Sound hs t)
    {result : Except StoreError Scan.Acceptance} (serving : t.serving = some ⟨k, auditId, .done result⟩) :
    Attended (hs ++ [.answered k result]) { t with serving := none } := by
  refine attended.rests (by simp) (fun _ => nofun) (fun _ _ _ => nofun) ?_ fun _ _ _ _ _ found => found
  rintro b j base begun ⟨s, current, rfl⟩
  obtain rfl := Option.some.inj (serving.symm.trans current)
  obtain ⟨rfl, closes⟩ := attended.own _ b base serving begun
  obtain ⟨phase, served⟩ := sound.served _ serving
  have ends : (reached k hs).EndsWith result := attended.keeps _ serving
  have is : reached k hs = phase := served.reached
  have fits := served.fits
  rw [is] at ends closes
  cases phase with
  | granted found number => exact .inl ⟨number, fits⟩
  | closed => exact .inr (.inl (closes rfl))
  | fresh | seen | clearing | begun | refused => exact ends.elim

/-- No interval is open of an audit whose last mark was taken back. -/
lemma Regular.not_open (regular : Regular hs t auditId) (last : Newest hs auditId k) (back : Withdrawn hs k) (j : Nat) :
    ¬ Open hs auditId j := by
  intro isOpen
  obtain ⟨base, begun⟩ := isOpen.1
  obtain ⟨base', begun'⟩ := last.1
  obtain rfl : j = k := Nat.le_antisymm (last.2 j base begun) (regular.newest j isOpen k base' begun')
  exact isOpen.2.1 back

lemma Attended.does (attended : Attended hs t) (sound : Sound hs t) (errand : Errand)
    (reply : Except StoreError errand.Reply) {ledger : Ledger} (does : errand.Does t.world.ledger ledger) :
    Attended (hs ++ [.did errand reply]) { t with world := { t.world with ledger } } := by
  refine attended.rests (by simp) attended.keeps attended.own (fun _ _ _ _ served => .inr (.inr served)) ?_
  intro b k last _ audit found
  obtain there | rfl := does.present found
  · exact there
  · -- The id is drawn now, so no audit that was marked can have it.
    obtain ⟨base, begun⟩ := last.1
    have missing := sound.tidy.unused _ (Nat.lt_succ_self t.world.ledger.drawn)
    exact absurd rfl (((sound.regular _).gone k base begun missing).2 _ (Nat.lt_succ_self _))

lemma Attended.scans (attended : Attended hs t) (sound : Sound hs t) {before after : List LiveScan} {c : Call}
    {next : c.Reply → Program (Except StoreError (Option AuditRecord))}
    (live : t.live = before ++ ⟨n, auditId, .call c next⟩ :: after)
    (saved : Exchange.Saved ⟨c, (t.world.perform c).1⟩) :
    Attended (hs ++ [.scanned n ⟨c, (t.world.perform c).1⟩])
      { t with
        world := (t.world.perform c).2
        live := before ++ ⟨n, auditId, next (t.world.perform c).1⟩ :: after } := by
  refine attended.rests (by simp) attended.keeps attended.own (fun _ _ _ _ served => .inr (.inr served)) ?_
  intro b k last back audit found
  have member : ⟨n, auditId, .call c next⟩ ∈ t.live := by simp [live]
  obtain same | ⟨rfl, -, j, -, isOpen⟩ := sound.scan_audit member saved b
  · exact same.symm.trans found
  · exact absurd isOpen ((sound.regular b).not_open last back j)

section Serves

variable {owner : String} {c : Call} {next : c.Reply → Program (Except StoreError Scan.Acceptance)} {phase : Opening}
variable {base : AuditRecord}

/-- A request that has marked its audit is not over before it has taken the mark back. -/
lemma withdrawn_of_closed {reply : c.Reply} (allowed : Scan.openingAllows owner phase c)
    (fits : Fits hs t owner k phase) (begun : Begun hs auditId k base) (closes : phase.next ⟨c, reply⟩ = .closed) :
    Withdrawn (hs ++ [.served k ⟨c, reply⟩]) k := by
  cases phase with
  | fresh => exact absurd begun (fits _ _)
  | seen | clearing => exact absurd begun (fits.1 _ _)
  | begun found =>
    obtain rfl := allowed
    cases reply <;> cases closes
  | refused found =>
    obtain rfl | ⟨now, rfl⟩ := allowed
    · cases closes
    · exact withdrawn_concat.mpr (.inr ⟨owner, now, reply, rfl⟩)
  | granted => cases closes
  | closed => exact allowed.elim

/-- What a request has marked is its own audit, and it is not over before it has taken the mark back. -/
lemma Attended.owns (attended : Attended hs t) {reply : c.Reply}
    (serving : t.serving = some ⟨k, owner, .call c next⟩) (current : Served hs t ⟨k, owner, .call c next⟩ phase)
    (begun : Begun (hs ++ [.served k ⟨c, reply⟩]) auditId k base) : auditId = owner ∧
      (phase.next ⟨c, reply⟩ = .closed → Withdrawn (hs ++ [.served k ⟨c, reply⟩]) k) := by
  have allowed : Scan.openingAllows owner phase c := current.keeps.1
  obtain old | new := begun_concat.mp begun
  · exact ⟨(attended.own _ _ _ serving old).1, withdrawn_of_closed allowed current.fits old⟩
  · obtain ⟨-, exchange⟩ := Happening.served.inj new
    obtain ⟨rfl, reply⟩ := Exchange.mk.inj exchange
    obtain rfl := eq_of_heq reply
    obtain ⟨rfl, ⟨rfl, -⟩ | ⟨found, now, -, same⟩⟩ := Scan.changes_of_opening allowed
    · exact ⟨rfl, nofun⟩
    · exact absurd same (beginning_ne_refusal now)

/-- A call that neither marks an audit nor takes a mark back leaves it complete. -/
lemma Attended.still_restored (attended : Attended hs t) {e : Exchange} {j : Nat} {audit : AuditRecord}
    (unmarking : ∀ base, e ≠ ⟨.updateAudit auditId Scan.beginning, .ok (some base)⟩)
    (keeping : ∀ id now reply, e ≠ ⟨.updateAudit id (Scan.refusal now), reply⟩)
    (last : Newest (hs ++ [.served k e]) auditId j) (back : Withdrawn (hs ++ [.served k e]) j)
    (found : t.audit? auditId = some audit) : audit.status = .text Store.complete := by
  have newest : Newest (hs ++ [.served k e]) auditId j ↔ Newest hs auditId j := by
    simp [Newest, begun_concat, unmarking]
  have withdrawn : Withdrawn (hs ++ [.served k e]) j ↔ Withdrawn hs j := by simp [withdrawn_concat, keeping]
  exact attended.restored auditId j (newest.mp last) (withdrawn.mp back) audit found

/-- A request that marks its audit leaves the other audits, and its own mark was not taken back. -/
lemma Attended.marks (attended : Attended hs t)
    {next : Except StoreError (Option AuditRecord) → Program (Except StoreError Scan.Acceptance)}
    (current : Served hs t ⟨k, owner, .call (.updateAudit owner Scan.beginning) next⟩ (.clearing [])) {j : Nat}
    {old audit : AuditRecord}
    (last : Newest (hs ++ [.served k ⟨.updateAudit owner Scan.beginning, .ok (some old)⟩]) auditId j)
    (back : Withdrawn (hs ++ [.served k ⟨.updateAudit owner Scan.beginning, .ok (some old)⟩]) j)
    (found : auditId ≠ owner → t.audit? auditId = some audit) : audit.status = .text Store.complete := by
  have keeping (id now reply) : (⟨.updateAudit owner Scan.beginning, .ok (some old)⟩ : Exchange) ≠
      ⟨.updateAudit id (Scan.refusal now), reply⟩ := by
    rintro same
    exact beginning_ne_refusal now (Call.updateAudit.inj (congrArg Exchange.call same)).2
  by_cases own : auditId = owner
  · -- The request is the last one that marked the audit now.
    subst own
    obtain ⟨base, begun⟩ := last.1
    have latest : k ≤ j := last.2 k old (begun_concat.mpr (.inr rfl))
    have earlier : j ≤ k := by
      obtain before | same := begun_concat.mp begun
      · exact current.last j _ before
      · exact Nat.le_of_eq (Happening.served.inj same).1.symm
    obtain rfl := Nat.le_antisymm latest earlier
    obtain before | ⟨id, now, reply, same⟩ := withdrawn_concat.mp back
    · exact absurd before (current.kept rfl)
    · exact absurd (Happening.served.inj same).2 (keeping id now reply)
  · refine attended.still_restored (fun base same => own ?_) keeping last back (found own)
    exact (Call.updateAudit.inj (congrArg Exchange.call same)).1.symm

/-- A request that takes its mark back leaves the other audits, and its own is complete. -/
lemma Attended.takes_back (attended : Attended hs t) {now : Instant} {reply : Except StoreError (Option AuditRecord)}
    {next : Except StoreError (Option AuditRecord) → Program (Except StoreError Scan.Acceptance)}
    (serving : t.serving = some ⟨k, owner, .call (.updateAudit owner (Scan.refusal now)) next⟩) {j : Nat}
    {audit : AuditRecord}
    (last : Newest (hs ++ [.served k ⟨.updateAudit owner (Scan.refusal now), reply⟩]) auditId j)
    (back : Withdrawn (hs ++ [.served k ⟨.updateAudit owner (Scan.refusal now), reply⟩]) j)
    (own : auditId = owner → audit.status = .text Store.complete)
    (found : auditId ≠ owner → t.audit? auditId = some audit) : audit.status = .text Store.complete := by
  have begun {b i base} : Begun (hs ++ [.served k ⟨.updateAudit owner (Scan.refusal now), reply⟩]) b i base ↔
      Begun hs b i base := by
    simp [begun_concat, (beginning_ne_refusal now).symm]
  have last : Newest hs auditId j := by simpa [Newest, begun] using last
  by_cases here : auditId = owner
  · exact own here
  · obtain before | ⟨_, _, _, same⟩ := withdrawn_concat.mp back
    · exact attended.restored auditId j last before audit (found here)
    · -- What the request has marked is its own audit.
      obtain ⟨rfl, -⟩ := Happening.served.inj same
      obtain ⟨base, marked⟩ := last.1
      exact absurd (attended.own _ auditId base serving marked).1 here

/-- After a call of a request, an audit whose last mark was taken back is complete. -/
lemma Attended.restores (attended : Attended hs t) (serving : t.serving = some ⟨k, owner, .call c next⟩)
    (current : Served hs t ⟨k, owner, .call c next⟩ phase) (saved : Exchange.Saved ⟨c, (t.world.perform c).1⟩)
    {j : Nat} {audit : AuditRecord} (last : Newest (hs ++ [.served k ⟨c, (t.world.perform c).1⟩]) auditId j)
    (back : Withdrawn (hs ++ [.served k ⟨c, (t.world.perform c).1⟩]) j)
    (found : (t.world.perform c).2.ledger.store.audit? auditId = some audit) :
    audit.status = .text Store.complete := by
  by_cases update : ∃ id changes, c = .updateAudit id changes
  · obtain ⟨id, changes, rfl⟩ := update
    obtain ⟨rfl, ⟨rfl, rfl⟩ | ⟨mark, now, rfl, rfl⟩⟩ := Scan.changes_of_opening current.keeps.1
    · obtain ⟨missing, does⟩ | ⟨old, disk, there, does⟩ := World.perform_updateAudit saved
      · rw [does] at last back found
        refine attended.still_restored (fun _ => by simp) (fun _ now _ => ?_) last back found
        simp [beginning_ne_refusal now]
      · rw [does] at last back found
        refine attended.marks current last back fun other => ?_
        rwa [Store.audit?_putAudit, AuditRecord.change_id, Store.id_of_audit? there, if_neg other] at found
    · obtain ⟨missing, does⟩ | ⟨old, disk, there, does⟩ := World.perform_updateAudit saved
      · rw [does] at last back found
        refine attended.takes_back serving last back (fun here => ?_) fun _ => found
        rw [here, missing] at found
        cases found
      · rw [does, Store.audit?_putAudit, AuditRecord.change_id, Store.id_of_audit? there] at found
        refine attended.takes_back serving last back (fun here => ?_) fun other => ?_
        · rw [if_pos here] at found
          obtain rfl := Option.some.inj found
          rfl
        · rwa [if_neg other] at found
  · have other (id changes) : c ≠ .updateAudit id changes := fun same => update ⟨id, changes, same⟩
    obtain ⟨-, same⟩ | ⟨id, changes, _, -, exchange, -⟩ := World.perform_audits saved
    · refine attended.still_restored (fun base same => ?_) (fun id now reply same => ?_) last back
        ((same auditId).symm.trans found)
      · exact other _ _ (congrArg Exchange.call same)
      · exact other _ _ (congrArg Exchange.call same)
    · exact absurd (congrArg Exchange.call exchange) (other id changes)

lemma Attended.serves (attended : Attended hs t) (sound : Sound hs t)
    (serving : t.serving = some ⟨k, owner, .call c next⟩) (saved : Exchange.Saved ⟨c, (t.world.perform c).1⟩) :
    Attended (hs ++ [.served k ⟨c, (t.world.perform c).1⟩])
      { t with
        world := (t.world.perform c).2
        live := t.liveAfter ⟨c, (t.world.perform c).1⟩
        serving := some ⟨k, owner, next (t.world.perform c).1⟩ } := by
  obtain ⟨phase, current⟩ := sound.served _ serving
  have here : reached k hs = phase := current.reached
  refine ⟨?_, ?_, fun b j base marked => ?_, fun b j last back audit found => ?_⟩
  · rintro s ⟨⟩
    rw [reached_concat_served]
    exact (attended.keeps _ serving).2 _ trivial
  · rintro s b base ⟨⟩ marked
    rw [reached_concat_served, here]
    exact attended.owns serving current marked
  · obtain before | now := begun_concat.mp marked
    · obtain ⟨n, taken⟩ | back | ⟨s, same, is⟩ := attended.left b j base before
      · exact .inl ⟨n, taken.later⟩
      · exact .inr (.inl back.later)
      · obtain rfl := Option.some.inj (serving.symm.trans same)
        exact .inr (.inr ⟨_, rfl, is⟩)
    · exact .inr (.inr ⟨_, rfl, (Happening.served.inj now).1⟩)
  · exact attended.restores serving current saved last back found

end Serves

lemma Attended.step (attended : Attended hs t) (sound : Sound hs t) (step : Step t h t') (saved : h.Saved) :
    Attended (hs ++ [h]) t' := by
  cases step with
  | asked auditId waits => exact attended.asks sound waits auditId
  | served serving => exact attended.serves sound serving saved
  | answered serving => exact attended.answers sound serving
  | scanned live => exact attended.scans sound live saved
  | did errand => exact attended.does sound errand _ (errand.does _)
  | ended | reported | shifted =>
    exact attended.rests (by simp) attended.keeps attended.own (fun _ _ _ _ served => .inr (.inr served))
      fun _ _ _ _ _ found => found

lemma Idle.attended {t₀ : Traffic} (idle : Idle t₀) (runs : Runs t₀ hs t) (saved : ∀ h ∈ hs, h.Saved) :
    Attended hs t := by
  induction runs with
  | none =>
    have unbegun {b k base} : ¬ Begun [] b k base := by simp [Begun]
    refine ⟨?_, ?_, fun b k base begun => absurd begun unbegun, ?_⟩
    · simp [idle.serving]
    · simp [idle.serving]
    · rintro b k ⟨⟨base, begun⟩, -⟩
      exact absurd begun unbegun
  | more first step ih =>
    obtain ⟨before, last⟩ := List.forall_mem_append.mp saved
    exact (ih before).step (idle.sound_runs first before) step (last _ List.mem_cons_self)

end Attended

/-! ## The audit of a scan that has ended -/

section Complete

variable {hs past : List Happening} {t₀ t : Traffic} {auditId : String} {k n : Nat} {base : AuditRecord}

/-- An audit that was marked and not deleted is there. -/
lemma Begun.present (begun : Begun hs auditId k base) (idle : Idle t₀) (runs : Runs t₀ hs t)
    (saved : ∀ h ∈ hs, h.Saved) (undeleted : .did (.deleteAudit auditId) (.ok true) ∉ hs) :
    ∃ audit, t.audit? auditId = some audit := by
  refine Option.ne_none_iff_exists'.mp fun missing => undeleted ?_
  obtain ⟨past, future, rfl⟩ := List.append_of_mem begun
  obtain ⟨t₁, t₂, first, marks, rest⟩ := runs.split
  obtain ⟨audit, found, -⟩ := idle_before_mark idle first saved marks
  have later : Runs t₁ (.served k ⟨.updateAudit auditId Scan.beginning, .ok (some base)⟩ :: future) t := rest.cons marks
  exact List.mem_append_right _ (deleted_of_runs later (List.forall_mem_append.mp saved).2 found missing)

/-- A scan of an audit that was not deleted was taken for a request that had marked the audit. -/
lemma Admitted.begun (admitted : Admitted hs auditId k n) (idle : Idle t₀) (runs : Runs t₀ hs t)
    (saved : ∀ h ∈ hs, h.Saved) (undeleted : .did (.deleteAudit auditId) (.ok true) ∉ hs) :
    ∃ base, Begun hs auditId k base := by
  have asked : .asked k auditId ∈ hs := by
    obtain ⟨past, future, rfl⟩ := List.append_of_mem admitted
    obtain ⟨t₁, t₂, first, submits, -⟩ := runs.split
    obtain ⟨s, phase, serving, rfl, -, allowed, -⟩ := (idle.sound_past first saved).phase submits
    obtain ⟨-, -, rfl⟩ := Scan.begun_of_submit allowed
    exact List.mem_append_left _ ((asked_of_runs first idle.serving).2.2 s serving)
  refine (begun_or_overtaken idle runs saved asked admitted).resolve_right ?_
  rintro ⟨early, audit, between, reply, late, rfl, deleted⟩
  exact undeleted (by simp [deleted])

/-- The request that marked an audit last is that of the scan that was accepted last, if it was taken a scan at
all. -/
lemma Idle.last_admitted {m : Nat} (idle : Idle t₀) (runs : Runs t₀ hs t) (saved : ∀ h ∈ hs, h.Saved)
    (last : (acceptedOf auditId (book hs)).getLast? = some n) (begun : ∀ i, Admitted hs auditId i n →
      ∃ base, Begun hs auditId i base) (newest : Newest hs auditId k) (admitted : Admitted hs auditId k m) :
    m = n := by
  obtain ⟨first, j, late, rfl, others⟩ := split_of_last last
  have taken : Admitted (first ++ .served j ⟨.submit auditId, some n⟩ :: late) auditId j n :=
    List.mem_append_right _ List.mem_cons_self
  have sound := idle.sound_runs runs saved
  obtain before | here := List.mem_append.mp admitted
  · -- Requests are served in the order of their serials.
    obtain ⟨t₁, t₂, toSubmit, submits, -⟩ := runs.split
    obtain ⟨s, phase, -, rfl, served, -⟩ := (idle.sound_past toSubmit saved).phase submits
    obtain ⟨base, marked⟩ := begun _ taken
    obtain rfl := Nat.le_antisymm (served.last k _ before) (newest.2 _ base marked)
    exact sound.tidy.once _ _ _ m n admitted taken
  · obtain same | after := List.mem_cons.mp here
    · obtain ⟨rfl, exchange⟩ := Happening.served.inj same
      exact sound.tidy.once _ _ _ m n admitted taken
    · exact absurd after (others k m)

/-- The scan of a marked audit completes it when it ends, and nothing else marks the audit then. -/
lemma Sound.complete_of_ended {audit : AuditRecord} {result : Except StoreError (Option AuditRecord)}
    (sound : Sound hs t) (runs : Runs t₀ hs t) (saved : ∀ h ∈ hs, h.Saved) (newest : Newest hs auditId k)
    (admitted : Admitted hs auditId k n) (ended : .ended n result ∈ hs) (found : t.audit? auditId = some audit) :
    audit.status = .text Store.complete := by
  obtain ⟨base, begun⟩ := newest.1
  have course := (sound.regular auditId).course k n base begun admitted
  obtain ⟨old, rfl⟩ := begun.inv runs saved
  obtain ⟨program, live, -⟩ | ⟨-, -, -, concluded⟩ := course.goes
  · exact absurd rfl ((sound.tidy.ended n result ended).2 _ live)
  · rw [course.stored newest audit found]
    exact (concluded.ending rfl rfl).1

/-- When the scan of an audit that was accepted last has ended, and no other is being accepted, the audit is
complete. -/
lemma Idle.complete_of_last (idle : Idle t₀) (runs : Runs t₀ hs t) (saved : ∀ h ∈ hs, h.Saved)
    (undeleted : .did (.deleteAudit auditId) (.ok true) ∉ hs)
    (last : (acceptedOf auditId (book hs)).getLast? = some n) (ended : .ended n ∈ book hs)
    (unaccepting : ∀ s, t.serving = some s → ¬ Accepting hs auditId s.serial) :
    ∃ audit, t.audit? auditId = some audit ∧ audit.status = .text Store.complete := by
  have begun (i : Nat) (taken : Admitted hs auditId i n) := taken.begun idle runs saved undeleted
  obtain ⟨j, taken⟩ := mem_book_accepted.mp (mem_acceptedOf.mp (List.mem_of_getLast? last))
  obtain ⟨k, newest⟩ := exists_newest ⟨j, begun j taken⟩
  obtain ⟨base, marked⟩ := newest.1
  obtain ⟨audit, found⟩ := marked.present idle runs saved undeleted
  refine ⟨audit, found, ?_⟩
  have attended := idle.attended runs saved
  obtain ⟨m, admitted⟩ | back | ⟨s, serving, rfl⟩ := attended.left auditId k base marked
  · obtain rfl := idle.last_admitted runs saved last begun newest admitted
    obtain ⟨result, ends⟩ := mem_book_ended.mp ended
    exact (idle.sound_runs runs saved).complete_of_ended runs saved newest admitted ends found
  · exact attended.restored auditId k newest back audit found
  · have back : Withdrawn hs s.serial := by
      by_contra kept
      exact unaccepting s serving ⟨newest.1, kept⟩
    exact attended.restored auditId s.serial newest back audit found

/-- The scan of an audit that was not deleted does not fail. -/
lemma Idle.ok_of_ended {result : Except StoreError (Option AuditRecord)} (idle : Idle t₀) (runs : Runs t₀ hs t)
    (saved : ∀ h ∈ hs, h.Saved) (undeleted : .did (.deleteAudit auditId) (.ok true) ∉ hs)
    (admitted : Admitted hs auditId k n) (ended : .ended n result ∈ hs) : ∃ reading, result = .ok reading := by
  obtain ⟨past, future, rfl⟩ := List.append_of_mem ended
  obtain ⟨t₁, t₂, first, ends, -⟩ := runs.split
  have sound := idle.sound_past first saved
  obtain ⟨owner, live⟩ : ∃ owner, ⟨n, owner, .done result⟩ ∈ t₁.live := by
    cases ends with
    | @ended before after _ owner _ live => exact ⟨owner, by simp [live]⟩
  obtain ⟨⟨j, taken⟩, -⟩ := sound.tidy.live _ live
  obtain ⟨rfl, rfl⟩ := (idle.sound_runs runs saved).tidy.one _ _ _ _ n admitted (List.mem_append_left _ taken)
  obtain ⟨base, begun⟩ := taken.begun idle first (List.forall_mem_append.mp saved).1 fun deleted =>
    undeleted (List.mem_append_left _ deleted)
  have course := (sound.regular auditId).course k n base begun taken
  exact (course.program sound.tidy live).1

end Complete

/-! ## Waits -/

/-- A wait for an audit: what happened before the executor was asked for the scan that it knows, what happened
from then until the audit was looked at, the state then, and the reply. -/
inductive Waits (t₀ : Traffic) (auditId : String) : List Happening → List Happening → Traffic →
    Except StoreError (Option AuditRecord) → Prop
  | unknown {before during : List Happening} {t₁ t : Traffic} : Runs t₀ before t₁ → t₁.serving = none →
    t₁.world.executor.latest? auditId = none → Runs t₁ during t →
    Waits t₀ auditId before during t (.ok (t.audit? auditId))
  /-- The end of the scan is waited for, and a scan that failed lets the wait fail. -/
  | known {before during : List Happening} {t₁ t : Traffic} {n : Nat}
      {result : Except StoreError (Option AuditRecord)} : Runs t₀ before t₁ → t₁.serving = none →
    t₁.world.executor.latest? auditId = some n → Runs t₁ during t → .ended n result ∈ before ++ during →
    Waits t₀ auditId before during t (result.map fun _ => t.audit? auditId)

section Waits

variable {hs before during : List Happening} {t₀ t : Traffic} {auditId : String}

/-- Every wait comes to its end. -/
lemma Fair.waits {states : Nat → Traffic} {happens : Nat → Happening} (fair : Fair states happens)
    (booked : Booked hs (states 0)) (runs : Runs t₀ hs (states 0)) (waits : (states 0).serving = none)
    (auditId : String) : ∃ i reply, Waits t₀ auditId hs (upTo happens i) (states i) reply := by
  cases known : (states 0).world.executor.latest? auditId with
  | none => exact ⟨0, _, .unknown runs waits known .none⟩
  | some n =>
    have last := ((booked.latest?_eq_some waits).mp known).1
    obtain ended | lives := booked.manned.alive auditId n (mem_acceptedOf.mp (List.mem_of_getLast? last))
    · obtain ⟨result, happened⟩ := mem_book_ended.mp ended
      exact ⟨0, _, .known runs waits known .none (List.mem_append_left _ happened)⟩
    · obtain ⟨scan, live, rfl⟩ := List.mem_map.mp lives
      obtain ⟨j, result, -, is⟩ := fair.ends booked live
      exact ⟨j + 1, _, .known runs waits known (fair.runs (j + 1)) (List.mem_append_right _ (ended_mem_upTo is))⟩

/-- A wait for an audit of which a scan was accepted before and none is accepted meanwhile gives the audit, and the
audit is complete. -/
lemma Waits.complete {reply : Except StoreError (Option AuditRecord)}
    (waits : Waits t₀ auditId before during t reply) (idle : Idle t₀) (blank : Blank t₀)
    (saved : ∀ h ∈ before ++ during, h.Saved)
    (undeleted : .did (.deleteAudit auditId) (.ok true) ∉ before ++ during)
    (accepted : acceptedOf auditId (book before) ≠ []) (meanwhile : acceptedOf auditId (book during) = [])
    (unaccepting : ∀ s, t.serving = some s → ¬ Accepting (before ++ during) auditId s.serial) :
    ∃ audit, reply = .ok (some audit) ∧ audit.status = .text Store.complete := by
  obtain ⟨n, last⟩ := Option.ne_none_iff_exists'.mp (List.getLast?_eq_none_iff.not.mpr accepted)
  have last' : (acceptedOf auditId (book (before ++ during))).getLast? = some n := by
    rw [book_append, acceptedOf_append, meanwhile, List.append_nil, last]
  cases waits with
  | unknown first settled unknown later =>
    -- The scan is not known any more, so its end was called back.
    have called : CalledBack (book before) n := by
      by_contra uncalled
      have known := ((blank.booked.runs first).latest?_eq_some settled).mpr ⟨last, uncalled⟩
      rw [unknown] at known
      cases known
    have ended : .ended n ∈ book (before ++ during) := by
      rw [book_append]
      exact List.mem_append_left _ called.ended
    obtain ⟨audit, found, complete⟩ :=
      idle.complete_of_last (first.trans later) saved undeleted last' ended unaccepting
    exact ⟨audit, congrArg Except.ok found, complete⟩
  | known first settled known later ends =>
    obtain ⟨same, -⟩ := ((blank.booked.runs first).latest?_eq_some settled).mp known
    obtain rfl := Option.some.inj (last.symm.trans same)
    have runs := first.trans later
    obtain ⟨audit, found, complete⟩ :=
      idle.complete_of_last runs saved undeleted last' (mem_book_ended.mpr ⟨_, ends⟩) unaccepting
    obtain ⟨k, admitted⟩ := mem_book_accepted.mp (mem_acceptedOf.mp (List.mem_of_getLast? last'))
    obtain ⟨reading, rfl⟩ := idle.ok_of_ended runs saved undeleted admitted ends
    exact ⟨audit, congrArg Except.ok found, complete⟩

end Waits

/-- The executor knows the latest scans. Whatever requests, scans, reports and errands come in whatever order, from
an executor that was told nothing yet: between requests it knows, of every audit, the scan that was accepted last,
unless the end of this scan was called back; at every moment, a known scan that has not ended stays known until a
request registers the scan of its audit that was accepted last; and nothing is known when all ends were called
back. Who waits for an audit is answered in time, when every live scan goes on in time. If no write failed, a scan
of the audit was accepted before, and no other one was accepted meanwhile nor is being accepted, the answer is the
audit, which is complete, as long as it was not deleted. -/
theorem executors_know_latest_scans {hs : List Happening} {t₀ t : Traffic} (blank : Blank t₀)
    (runs : Runs t₀ hs t) :
    (t.serving = none → ∀ auditId n, t.world.executor.latest? auditId = some n ↔
      (acceptedOf auditId (book hs)).getLast? = some n ∧ ¬ CalledBack (book hs) n) ∧
    (∀ h t' auditId n, Step t h t' → t.world.executor.latest? auditId = some n → .ended n ∉ book hs →
      t'.world.executor.latest? auditId = some n ∨
        ∃ k m, h = .served k ⟨.register auditId m, ()⟩ ∧ (acceptedOf auditId (book hs)).getLast? = some m) ∧
    ((∀ auditId n, .accepted auditId n ∈ book hs → CalledBack (book hs) n) → t.world.executor.latest = []) ∧
    (t.serving = none → ∀ states happens auditId, Fair states happens → states 0 = t →
      ∃ i reply, Waits t₀ auditId hs (upTo happens i) (states i) reply) ∧
    (Idle t₀ → ∀ auditId before during reply, hs = before ++ during → Waits t₀ auditId before during t reply →
      (∀ h ∈ hs, h.Saved) → .did (.deleteAudit auditId) (.ok true) ∉ hs →
      acceptedOf auditId (book before) ≠ [] → acceptedOf auditId (book during) = [] →
      (∀ s, t.serving = some s → ¬ Accepting hs auditId s.serial) →
      ∃ audit, reply = .ok (some audit) ∧ audit.status = .text Store.complete) := by
  have booked : Booked hs t := blank.booked.runs runs
  refine ⟨fun waits auditId n => booked.latest?_eq_some waits, fun h t' auditId n step => booked.stays step,
    booked.latest_eq_nil, ?_, ?_⟩
  · rintro waits states happens auditId fair rfl
    exact fair.waits booked runs waits auditId
  · rintro idle auditId before during reply rfl waits saved undeleted accepted meanwhile unaccepting
    exact waits.complete idle blank saved undeleted accepted meanwhile unaccepting

/-- What happened in the service up to some step of its scan. -/
def sampleHistory (n : Nat) : List Happening := .asked 0 "i" :: (sampleAsked.turns n).1

lemma sample_undeleted (n : Nat) : .did (.deleteAudit "i") (.ok true) ∉ sampleHistory n := by
  intro happened
  obtain other | deleted := List.mem_cons.mp happened
  · cases other
  · exact (turns_proper n sampleAsked "" "i" _ deleted).2.2 ⟨rfl, rfl⟩

/-- A service in which no scan is live may stay as it is. -/
lemma fair_of_unmanned {t : Traffic} (unmanned : t.live = []) : Fair (fun _ => t) fun _ => .shifted where
  steps _ := Step.shifted t.world.ledger.now t.world.host t.world.executor.accepting
  goes _ scan live := by
    rw [unmanned] at live
    cases live

/-- A scan is known while it is live and when it has ended, until its end is reported. Who waits for its audit finds
it complete. -/
theorem executors_know_latest_scans_reported :
    ((sampleAsked.turns 12).2.world.executor.report 0).latest? "i" = some 0 ∧
    (sampleAsked.turns 20).2.world.executor.latest? "i" = some 0 ∧
    ((sampleAsked.turns 20).2.world.executor.report 0).latest = [] ∧
    (∃ i reply, Waits sample "i" (sampleHistory 20) (upTo (fun _ => .shifted) i) (sampleAsked.turns 20).2 reply) ∧
    ∃ audit, (sampleAsked.turns 20).2.audit? "i" = some audit ∧ audit.status = .text Store.complete := by
  have blank : Blank sample := ⟨rfl, rfl, rfl, rfl⟩
  have ended : Runs sample (sampleHistory 20) (sampleAsked.turns 20).2 := sample_runs 20
  obtain ⟨knows, -, -, answered, complete⟩ := executors_know_latest_scans blank ended
  have known : (sampleAsked.turns 20).2.world.executor.latest? "i" = some 0 := by
    refine (knows rfl "i" 0).mpr ⟨by decide, ?_⟩
    have entries : book (sampleHistory 20) = [.accepted "i" 0, .registered "i" 0, .watched 0] ++ [.ended 0] := by
      decide
    rw [entries, calledBack_concat]
    rintro (called | ⟨before, -⟩)
    · exact absurd called.ended (by decide)
    · exact absurd before (by decide)
  refine ⟨?_, known, ?_, answered rfl _ _ "i" (fair_of_unmanned rfl) rfl, ?_⟩
  · obtain ⟨knows', stays, -⟩ := executors_know_latest_scans blank (sample_runs 12)
    have uncalled : ¬ CalledBack (book (sampleHistory 12)) 0 := fun called => absurd called.ended (by decide)
    have known' := (knows' rfl "i" 0).mpr ⟨by decide, uncalled⟩
    exact (stays _ _ "i" 0 (.reported 0 rfl) known' (by decide)).resolve_right (by simp)
  · obtain ⟨-, -, forgets, -⟩ := executors_know_latest_scans blank (ended.more (.reported 0 rfl))
    refine forgets fun auditId n accepted => ?_
    have entries : book (sampleHistory 20 ++ [.reported 0]) =
        [.accepted "i" 0, .registered "i" 0, .watched 0, .ended 0] ++ [.reported 0] := by decide
    rw [entries] at accepted ⊢
    obtain ⟨-, rfl⟩ : auditId = "i" ∧ n = 0 := by simpa using accepted
    exact calledBack_concat.mpr (.inr (by decide))
  · have ends : .ended 0 (.ok ((sampleAsked.turns 20).2.audit? "i")) ∈ sampleHistory 20 ++ [] :=
      List.mem_of_getElem? (i := 19) rfl
    have waits : (sampleAsked.turns 20).2.serving = none := rfl
    obtain ⟨audit, is, status⟩ := complete sample_idle "i" _ [] _ (List.append_nil _).symm
      (.known ended waits known .none ends) (by decide) (sample_undeleted 20) (by decide) rfl (by simp [waits])
    exact ⟨audit, Except.ok.inj is, status⟩

end Traffic

end RepoAudit
