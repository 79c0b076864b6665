import RepoAudit.Proofs.Traffic.Survival

/-!
# Accepted scans and their audits

A request for a scan looks at its audit, and some calls later it marks it. Other requests may delete the audit in
between (`Overtaken`), and the mark that finds nothing to change is no failure: the executor is asked all the
same. So an accepted scan has its audit from the mark to its completing write just when its request was not
overtaken, and otherwise it never has it.
-/

namespace RepoAudit

/-- A request that is over stays over. -/
@[simp] lemma Opening.next_closed (e : Exchange) : Opening.closed.next e = .closed := by
  unfold next
  split <;> first | rfl | contradiction

lemma Opening.foldl_closed (es : List Exchange) : es.foldl next .closed = .closed := by
  induction es with
  | nil => rfl
  | cons e es ih => rwa [List.foldl_cons, next_closed]

/-- A request that has come some way began with a look at an audit that was there. -/
lemma Opening.looks {es : List Exchange} (moved : es.foldl next .fresh ≠ .fresh)
    (goes : es.foldl next .fresh ≠ .closed) :
    ∃ id audit, (⟨.getAudit id, some audit⟩ : Exchange) ∈ es := by
  cases es with
  | nil => exact absurd rfl moved
  | cons e es =>
    rw [List.foldl_cons] at goes
    unfold next at goes
    split at goes
    · next id audit _ => exact ⟨id, audit, List.mem_cons_self⟩
    all_goals first | contradiction | exact absurd (foldl_closed es) goes

/-- A request comes past the mark only by a change of an audit. -/
lemma Opening.marks {es : List Exchange} {found : Option AuditRecord}
    (marked : es.foldl next .fresh = .begun found) : ∃ earlier left id changes,
      es = earlier ++ [⟨.updateAudit id changes, .ok found⟩] ∧ earlier.foldl next .fresh = .clearing left := by
  obtain rfl | ⟨earlier, e, rfl⟩ := List.eq_nil_or_concat es
  · cases marked
  · rw [List.concat_eq_append, List.foldl_append, List.foldl_cons, List.foldl_nil] at marked
    generalize before : earlier.foldl next .fresh = o at marked
    unfold next at marked
    split at marked
    · split at marked <;> cases marked
    · cases marked
    · cases marked
    · next left id changes found' =>
      cases marked
      exact ⟨earlier, left, id, changes, by rw [List.concat_eq_append], before⟩
    all_goals cases marked

namespace Traffic

/-- The audit was deleted after the request had looked at it, and before the request came to mark it. -/
def Overtaken (hs : List Happening) (auditId : String) (k : Nat) : Prop :=
  ∃ early audit between reply late,
    hs = early ++ .served k ⟨.getAudit auditId, some audit⟩ :: between ++
      .served k ⟨.updateAudit auditId Scan.beginning, reply⟩ :: late ∧
    .did (.deleteAudit auditId) (.ok true) ∈ between

lemma Overtaken.later {hs : List Happening} {auditId : String} {k : Nat} (overtaken : Overtaken hs auditId k)
    (more : List Happening) : Overtaken (hs ++ more) auditId k := by
  obtain ⟨early, audit, between, reply, late, rfl, deleted⟩ := overtaken
  exact ⟨early, audit, between, reply, late ++ more, by simp, deleted⟩

lemma mem_callsOf {hs : List Happening} {k : Nat} {e : Exchange} : e ∈ callsOf k hs ↔ .served k e ∈ hs := by
  simp only [callsOf, List.mem_filterMap]
  constructor
  · rintro ⟨h, happened, is⟩
    cases h with
    | served j exchange =>
      obtain ⟨rfl, rfl⟩ : j = k ∧ exchange = e := by simpa using is
      exact happened
    | _ => cases is
  · exact fun happened => ⟨_, happened, by simp⟩

/-- The last call of a request has its place in the history. -/
lemma split_of_callsOf {hs : List Happening} {k : Nat} {earlier : List Exchange} {e : Exchange}
    (calls : callsOf k hs = earlier ++ [e]) :
    ∃ first late, hs = first ++ .served k e :: late ∧ callsOf k first = earlier := by
  obtain ⟨opened, rest, rfl, inOpened, inRest⟩ := List.filterMap_eq_append_iff.mp calls
  obtain ⟨others, h, late, rfl, quiet, is, -⟩ := List.filterMap_eq_cons_iff.mp inRest
  refine ⟨opened ++ others, late, ?_, ?_⟩
  · cases h with
    | served j exchange =>
      obtain ⟨rfl, rfl⟩ : j = k ∧ exchange = e := by simpa using is
      rw [List.append_assoc]
    | _ => cases is
  · rw [callsOf, List.filterMap_append, inOpened, List.filterMap_eq_nil_iff.mpr quiet, List.append_nil]

section Requests

variable {hs past future : List Happening} {h : Happening} {t₀ t t' : Traffic} {auditId : String} {k : Nat}

/-- Serials are given once, and the request that is served was asked for. -/
lemma asked_of_runs (runs : Runs t₀ hs t) (serving : t₀.serving = none) :
    (∀ k auditId, .asked k auditId ∈ hs → k < t.asked) ∧
    (∀ k a b, .asked k a ∈ hs → .asked k b ∈ hs → a = b) ∧
    ∀ s, t.serving = some s → .asked s.serial s.auditId ∈ hs := by
  induction runs with
  | none => simp [serving]
  | @more t₁ t₂ hs h first step ih =>
    obtain ⟨given, once, served⟩ := ih
    cases step with
    | asked auditId waits =>
      have earlier {k a} (asks : .asked k a ∈ hs ++ [.asked t₁.asked auditId]) :
          .asked k a ∈ hs ∨ k = t₁.asked ∧ a = auditId := by simpa using asks
      refine ⟨fun k a asks => ?_, fun k a b one other => ?_, fun s current => ?_⟩
      · obtain old | ⟨rfl, -⟩ := earlier asks
        · exact Nat.lt_succ_of_lt (given k a old)
        · exact Nat.lt_succ_self _
      · -- The serial of the new request was not given before.
        obtain old | ⟨rfl, rfl⟩ := earlier one
        · obtain old' | ⟨rfl, -⟩ := earlier other
          · exact once k a b old old'
          · exact absurd (given _ _ old) (Nat.lt_irrefl _)
        · obtain old' | ⟨-, rfl⟩ := earlier other
          · exact absurd (given _ _ old') (Nat.lt_irrefl _)
          · rfl
      · cases current
        simp
    | served serving =>
      refine ⟨by simpa using given, by simpa using once, fun s current => ?_⟩
      cases current
      have asks := served _ serving
      exact List.mem_append_left _ asks
    | answered => exact ⟨by simpa using given, by simpa using once, fun s current => nomatch current⟩
    | scanned | ended | reported | did | shifted =>
      exact ⟨by simpa using given, by simpa using once, by simpa using served⟩

/-- An audit goes only by its deletion. -/
lemma Step.deletes {audit : AuditRecord} (step : Step t h t') (saved : h.Saved)
    (found : t.audit? auditId = some audit) (missing : t'.audit? auditId = none) :
    h = .did (.deleteAudit auditId) (.ok true) := by
  have present : t.world.ledger.store.audit? auditId = some audit := found
  cases step with
  | served | scanned =>
    obtain ⟨-, same⟩ | ⟨id, changes, old, -, -, effect⟩ := World.perform_audits saved
    · have after := (same auditId).symm.trans missing
      rw [present] at after
      cases after
    · have after := (effect auditId).symm.trans missing
      rw [present] at after
      split at after <;> cases after
  | did errand =>
    obtain ⟨rfl, idle⟩ := (errand.does t.world.ledger).gone present missing
    exact congrArg (Happening.did (.deleteAudit auditId)) (deleteAudit_saved present idle saved)
  | asked | answered | ended | reported | shifted =>
    have still : t.audit? auditId = none := missing
    rw [found] at still
    cases still

lemma deleted_of_runs {audit : AuditRecord} (runs : Runs t hs t') (saved : ∀ h ∈ hs, h.Saved)
    (found : t.audit? auditId = some audit) (missing : t'.audit? auditId = none) :
    .did (.deleteAudit auditId) (.ok true) ∈ hs := by
  induction runs with
  | none =>
    rw [found] at missing
    cases missing
  | @more t₁ t₂ hs h first step ih =>
    cases before : t₁.audit? auditId with
    | none => exact List.mem_append_left _ (ih (fun h happened => saved h (List.mem_append_left _ happened)) before)
    | some audit =>
      have last := saved h (List.mem_append_right _ List.mem_cons_self)
      exact List.mem_append_right _ (List.mem_singleton.mpr (step.deletes last before missing).symm)

end Requests

section Accepted

variable {hs past : List Happening} {t₀ t t' : Traffic} {auditId id : String} {k n : Nat} {e : Exchange}

/-- Where a run is sound, so was each part of it. -/
lemma Idle.sound_past {future : List Happening} (idle : Idle t₀) (first : Runs t₀ past t)
    (saved : ∀ h ∈ past ++ future, h.Saved) : Sound past t :=
  idle.sound_runs first (List.forall_mem_append.mp saved).1

/-- What a request calls, it may call where it has come to. -/
lemma Sound.phase (sound : Sound hs t) (step : Step t (.served k e) t') : ∃ s phase, t.serving = some s ∧
    s.serial = k ∧ Served hs t s phase ∧ Scan.openingAllows s.auditId phase e.call ∧
    (t.world.perform e.call).1 = e.reply ∧ t'.world = (t.world.perform e.call).2 := by
  obtain ⟨owner, next, serving, reply, world⟩ := step.served_inv
  obtain ⟨phase, served⟩ := sound.served _ serving
  exact ⟨_, phase, serving, rfl, served, served.keeps.1, reply, world⟩

/-- A request looks only at its own audit. -/
lemma Sound.looks {found : Option AuditRecord} (sound : Sound hs t)
    (step : Step t (.served k ⟨.getAudit id, found⟩) t') :
    (∀ s, t.serving = some s → s.auditId = id) ∧ t.audit? id = found ∧ t'.audit? id = found := by
  obtain ⟨s, phase, serving, -, served, allowed, reply, world⟩ := sound.phase step
  have is : t.audit? id = found := reply
  refine ⟨fun other current => ?_, is, by rw [audit?, world]; exact is⟩
  obtain rfl : s = other := Option.some.inj (serving.symm.trans current)
  cases phase with
  | fresh => exact (Call.getAudit.inj allowed).symm
  | clearing left => cases left <;> cases allowed
  | refused => obtain same | ⟨now, same⟩ := allowed <;> cases same
  | granted => obtain same | same := allowed <;> cases same
  | seen | begun | closed => cases allowed

/-- A request marks its own audit, once, when it has dropped what there was to drop. Where there is nothing to
mark, the audit is lost. -/
lemma Sound.marks {reply : Except StoreError (Option AuditRecord)} (sound : Sound hs t)
    (step : Step t (.served k ⟨.updateAudit id Scan.beginning, reply⟩) t') (saved : Saved reply) :
    (∀ s, t.serving = some s → s.auditId = id) ∧ (∀ b base, ¬ Begun hs b k base) ∧
    ((∃ audit, t.audit? id = some audit ∧ audit.isRunning = false ∧
        reply = .ok (some (audit.change Scan.beginning))) ∨ Lost t id ∧ reply = .ok none) := by
  obtain ⟨s, phase, serving, rfl, served, allowed, replied, world⟩ := sound.phase step
  obtain ⟨rfl, ⟨rfl, -⟩ | ⟨found, now, -, same⟩⟩ := Scan.changes_of_opening allowed
  · have fits := served.fits
    refine ⟨fun other current => ?_, fits.1, ?_⟩
    · rw [Option.some.inj (current.symm.trans serving)]
    have replied : (t.world.perform (.updateAudit s.auditId Scan.beginning)).1 = reply := replied
    subst replied
    obtain ⟨missing, does⟩ | ⟨audit, disk, found, does⟩ := World.perform_updateAudit saved
    · obtain ⟨audit, found, -⟩ | lost := fits.2
      · rw [audit?, missing] at found
        cases found
      · exact .inr ⟨lost, congrArg Prod.fst does⟩
    · obtain ⟨audit', found', idle⟩ | lost := fits.2
      · obtain rfl : audit' = audit := Option.some.inj (found'.symm.trans found)
        exact .inl ⟨audit', found, idle, congrArg Prod.fst does⟩
      · exact absurd lost (not_lost found)
  · exact absurd same (beginning_ne_refusal now)

/-- A request asks the executor when it has gone past the mark. -/
lemma Sound.submits_marked (sound : Sound hs t) (step : Step t (.served k ⟨.submit id, some n⟩) t') :
    ∃ found, reached k hs = .begun found ∧ Marked hs t id k found := by
  obtain ⟨s, phase, serving, rfl, served, allowed, -, -⟩ := sound.phase step
  obtain ⟨found, rfl, rfl⟩ := Scan.begun_of_submit allowed
  exact ⟨found, served.reached, served.fits⟩

lemma owner_of_asked {u : Traffic} {s : Serving} (runs : Runs t₀ hs t) (waits : t₀.serving = none)
    (asked : .asked k auditId ∈ hs) (before : past <+: hs) (first : Runs t₀ past u)
    (serving : u.serving = some s) (serial : s.serial = k) : s.auditId = auditId := by
  obtain ⟨-, once, -⟩ := asked_of_runs runs waits
  obtain ⟨-, -, served⟩ := asked_of_runs first waits
  exact once k _ _ (before.subset (serial ▸ served s serving)) asked

/-- A request that found nothing to mark was overtaken: the audit was there when the request looked at it, so it
was deleted since. -/
lemma overtaken_of_reached {u : Traffic} (idle : Idle t₀) (runs : Runs t₀ hs t) (saved : ∀ h ∈ hs, h.Saved)
    (asked : .asked k auditId ∈ hs) (before : past <+: hs) (first : Runs t₀ past u)
    (reached : reached k past = .begun none) : Overtaken past auditId k := by
  have owner {earlier : List Happening} {v : Traffic} {s : Serving} (part : earlier <+: past)
      (runs' : Runs t₀ earlier v) (serving : v.serving = some s) (serial : s.serial = k) : s.auditId = auditId :=
    owner_of_asked runs idle.serving asked (part.trans before) runs' serving serial
  have saved' {h : Happening} (happened : h ∈ past) : h.Saved := saved h (before.subset happened)
  -- The last call of the request was the mark, and the first one was the look.
  obtain ⟨earlier, left, id, changes, calls, clearing⟩ := Opening.marks reached
  obtain ⟨opened, late, rfl, rfl⟩ := split_of_callsOf calls
  obtain ⟨u₁, u₂, toMark, mark, -⟩ := first.split
  have sound := idle.sound_past toMark fun h happened => saved' happened
  obtain ⟨s, phase, serving, serial, served, allowed, replied, -⟩ := sound.phase mark
  obtain rfl : phase = .clearing left := by
    rw [← clearing, ← served.reached, serial]
    rfl
  obtain ⟨rfl, is⟩ : left = [] ∧ Call.updateAudit id changes = .updateAudit s.auditId Scan.beginning := by
    cases left with
    | nil => exact ⟨rfl, allowed⟩
    | cons finding left => cases allowed
  obtain ⟨rfl, rfl⟩ := Call.updateAudit.inj is
  obtain ⟨-, -, ⟨audit, -, -, other⟩ | ⟨lost, -⟩⟩ := sound.marks mark fun _ same => nomatch same
  · cases other
  have ofMark := owner (List.prefix_append _ _) toMark serving serial
  rw [ofMark] at lost saved' ⊢
  obtain ⟨id, audit, look⟩ := Opening.looks (by rw [clearing]; simp) (by rw [clearing]; simp)
  obtain ⟨early, between, rfl⟩ := List.append_of_mem (mem_callsOf.mp look)
  obtain ⟨v₁, v₂, toLook, looks, sinceLook⟩ := toMark.split
  have sound' := idle.sound_runs toLook fun h happened => saved' (by simp [happened])
  obtain ⟨same, -, found⟩ := sound'.looks looks
  obtain ⟨s', -, serving', serial', -⟩ := sound'.phase looks
  obtain rfl : auditId = id := (owner (by simp) toLook serving' serial').symm.trans (same s' serving')
  refine ⟨early, audit, between, _, late, rfl, ?_⟩
  exact deleted_of_runs sinceLook (fun h happened => saved' (by simp [happened])) found lost.1

lemma Sound.lost_of_deleted (sound : Sound hs t) (step : Step t (.did (.deleteAudit auditId) (.ok true)) t') :
    Lost t' auditId :=
  Traffic.lost_of_deleted sound.tidy.unused step

lemma lost_of_deleted_mem (idle : Idle t₀) (runs : Runs t₀ hs t) (saved : ∀ h ∈ hs, h.Saved)
    (deleted : .did (.deleteAudit auditId) (.ok true) ∈ hs) : Lost t auditId := by
  obtain ⟨before, after, rfl⟩ := List.append_of_mem deleted
  obtain ⟨t₁, t₂, first, deletes, rest⟩ := runs.split
  have sound := idle.sound_past first saved
  exact (sound.lost_of_deleted deletes).runs rest fun h happened => saved h (by simp [happened])

/-- What a request marked was there, and was not deleted before. -/
lemma not_deleted_before {base : AuditRecord} {future : List Happening} (idle : Idle t₀)
    (runs : Runs t₀ (past ++ .served k ⟨.updateAudit auditId Scan.beginning, .ok (some base)⟩ :: future) t)
    (saved : ∀ h ∈ past ++ .served k ⟨.updateAudit auditId Scan.beginning, .ok (some base)⟩ :: future, h.Saved) :
    .did (.deleteAudit auditId) (.ok true) ∉ past := by
  intro deleted
  obtain ⟨t₁, t₂, first, marks, -⟩ := runs.split
  have lost := lost_of_deleted_mem idle first (List.forall_mem_append.mp saved).1 deleted
  obtain ⟨-, -, ⟨audit, found, -⟩ | ⟨-, none⟩⟩ :=
    (idle.sound_past first saved).marks marks fun _ same => nomatch same
  · exact not_lost found lost
  · cases none

/-- A request that was overtaken marked nothing, neither before nor after it came to the mark. -/
lemma Overtaken.not_begun {base : AuditRecord} (overtaken : Overtaken hs auditId k) (idle : Idle t₀)
    (runs : Runs t₀ hs t) (saved : ∀ h ∈ hs, h.Saved) : ¬ Begun hs auditId k base := by
  intro begun
  obtain ⟨early, audit, between, reply, late, rfl, deleted⟩ := overtaken
  generalize whole : early ++ .served k ⟨.getAudit auditId, some audit⟩ :: between = past at *
  have deleted' : .did (.deleteAudit auditId) (.ok true) ∈ past := by simp [← whole, deleted]
  -- The request comes to the mark once, and the audit was deleted before.
  obtain earlier | later := List.mem_append.mp begun
  · obtain ⟨u, u', first, marks, -⟩ := runs.split
    have sound := idle.sound_past first saved
    have saved' : Happening.Saved (.served k ⟨.updateAudit auditId Scan.beginning, reply⟩) :=
      saved _ (List.mem_append_right _ List.mem_cons_self)
    obtain ⟨-, unbegun, -⟩ := sound.marks marks saved'
    exact unbegun _ _ earlier
  · obtain ⟨more, future, split⟩ := List.append_of_mem later
    rw [split, ← List.append_assoc] at runs saved
    exact not_deleted_before idle runs saved (List.mem_append_left _ deleted')

lemma admitted_of_accepted (idle : Idle t₀) (runs : Runs t₀ hs t) (saved : ∀ h ∈ hs, h.Saved)
    (asked : .asked k auditId ∈ hs) (accepted : .answered k (.ok Scan.started) ∈ hs) :
    ∃ n, Admitted hs auditId k n := by
  obtain ⟨earlier, rest, rfl⟩ := List.append_of_mem accepted
  obtain ⟨u, _, first, answers, -⟩ := runs.split
  obtain ⟨s, n, serving, serial, admitted⟩ := (idle.sound_past first saved).granted answers
  rw [owner_of_asked runs idle.serving asked (List.prefix_append _ _) first serving serial] at admitted
  exact ⟨n, List.mem_append_left _ admitted⟩

/-- A request that the executor took had marked its audit, or it was overtaken. -/
lemma begun_or_overtaken (idle : Idle t₀) (runs : Runs t₀ hs t) (saved : ∀ h ∈ hs, h.Saved)
    (asked : .asked k auditId ∈ hs) (admitted : Admitted hs auditId k n) :
    (∃ base, Begun hs auditId k base) ∨ Overtaken hs auditId k := by
  obtain ⟨past, future, rfl⟩ := List.append_of_mem admitted
  obtain ⟨u, _, first, submits, -⟩ := runs.split
  obtain ⟨found, reached, marked⟩ := (idle.sound_past first saved).submits_marked submits
  -- The executor is asked after the mark, whether there was anything to mark or not.
  cases found with
  | some base => exact .inl ⟨base, List.mem_append_left _ ((marked.1 _ base).mpr ⟨rfl, rfl⟩)⟩
  | none =>
    refine .inr (Overtaken.later ?_ _)
    exact overtaken_of_reached idle runs saved asked (List.prefix_append _ _) first reached

lemma idle_before_mark {base : AuditRecord} {future : List Happening} {u u' : Traffic} (idle : Idle t₀)
    (first : Runs t₀ past u) (saved : ∀ h ∈ past ++ future, h.Saved)
    (marks : Step u (.served k ⟨.updateAudit auditId Scan.beginning, .ok (some base)⟩) u') :
    ∃ audit, u.audit? auditId = some audit ∧ audit.isRunning = false ∧ base = audit.change Scan.beginning := by
  obtain ⟨-, -, ⟨audit, found, unmarked, is⟩ | ⟨-, none⟩⟩ :=
    (idle.sound_past first saved).marks marks fun _ same => nomatch same
  · exact ⟨audit, found, unmarked, Option.some.inj (Except.ok.inj is)⟩
  · cases none

/-- A marked audit is running as long as the scan that is taken for the request, sooner or later, has not completed
it. -/
lemma running_until_finished {base : AuditRecord} {future : List Happening} {u : Traffic} (idle : Idle t₀)
    (runs : Runs t₀ (past ++ future) t) (saved : ∀ h ∈ past ++ future, h.Saved) (first : Runs t₀ past u)
    (admitted : Admitted (past ++ future) auditId k n) (begun : Begun past auditId k base)
    (unfinished : ¬ Finished past n) : ∃ audit, u.audit? auditId = some audit ∧ audit.isRunning = true := by
  have sound := idle.sound_runs runs saved
  have course := (sound.regular auditId).course k n base (List.mem_append_left _ begun) admitted
  refine ((idle.sound_past first saved).regular auditId).status.mpr ⟨k, ⟨base, begun⟩, ?_, fun m admitted' => ?_⟩
  · rintro ⟨b, now, reply, happened⟩
    exact course.kept ⟨b, now, reply, List.mem_append_left _ happened⟩
  · obtain rfl := sound.tidy.once _ _ _ _ _ (List.mem_append_left future admitted') admitted
    exact unfinished

lemma Overtaken.gone (overtaken : Overtaken hs auditId k) (idle : Idle t₀) (runs : Runs t₀ hs t)
    (saved : ∀ h ∈ hs, h.Saved) : t.audit? auditId = none := by
  obtain ⟨early, audit, between, reply, late, rfl, deleted⟩ := overtaken
  exact (lost_of_deleted_mem idle runs saved (by simp [deleted])).1

/-- Accepted scans have their audits, unless they were overtaken. Whatever requests, scans and errands come in
whatever order, an accepted request that marked its audit found it there and not running, and the audit is there
and marked as long as the scan that was taken for the request has not completed it. The request marked the audit
just when the audit was not deleted between its look and its mark; if it was, the audit is gone from there on. -/
theorem accepted_scans_have_their_audit (idle : Idle t₀) (runs : Runs t₀ hs t) (saved : ∀ h ∈ hs, h.Saved)
    (asked : .asked k auditId ∈ hs) (accepted : .answered k (.ok Scan.started) ∈ hs) :
    ∃ n, Admitted hs auditId k n ∧
      ((∃ base, Begun hs auditId k base) ↔ ¬ Overtaken hs auditId k) ∧
      (∀ past base future t₁ t₂,
        hs = past ++ .served k ⟨.updateAudit auditId Scan.beginning, .ok (some base)⟩ :: future →
        Runs t₀ past t₁ →
        Step t₁ (.served k ⟨.updateAudit auditId Scan.beginning, .ok (some base)⟩) t₂ →
        ∃ audit, t₁.audit? auditId = some audit ∧ audit.isRunning = false ∧
          base = audit.change Scan.beginning) ∧
      ∀ past future t₁, hs = past ++ future → Runs t₀ past t₁ →
        (∀ base, Begun past auditId k base → ¬ Finished past n →
          ∃ audit, t₁.audit? auditId = some audit ∧ audit.isRunning = true) ∧
        (Overtaken past auditId k → t₁.audit? auditId = none) := by
  obtain ⟨n, admitted⟩ := admitted_of_accepted idle runs saved asked accepted
  refine ⟨n, admitted, ⟨?_, fun untouched => ?_⟩, ?_, ?_⟩
  · rintro ⟨base, begun⟩ overtaken
    exact overtaken.not_begun idle runs saved begun
  · exact (begun_or_overtaken idle runs saved asked admitted).resolve_right untouched
  · rintro past base future t₁ t₂ rfl first marks
    exact idle_before_mark idle first saved marks
  · rintro past future t₁ rfl first
    exact ⟨fun base => running_until_finished idle runs saved first admitted, fun overtaken =>
      overtaken.gone idle first (List.forall_mem_append.mp saved).1⟩

/-- The service when its audit is deleted while a request for a scan has just looked at it. -/
def sampleOvertaken : Traffic :=
  { (sampleAsked.turns 1).2 with
    world := ((sampleAsked.turns 1).2.world.onLedger (Errand.deleteAudit "i").action).2 }

lemma sampleOvertaken_runs (n : Nat) :
    Runs sample (.asked 0 "i" :: (sampleAsked.turns 1).1 ++
      .did (.deleteAudit "i") (.ok true) :: (sampleOvertaken.turns n).1) (sampleOvertaken.turns n).2 :=
  (sample_runs 1).trans ((runs_turns n sampleOvertaken).cons (.did (.deleteAudit "i")))

/-- A request that is overtaken is accepted all the same: it marked nothing, and its scan finds no audit. -/
theorem accepted_scans_have_their_audit_overtaken :
    .answered 0 (.ok Scan.started) ∈ (sampleOvertaken.turns 7).1 ∧
    (¬ ∃ base, Begun (.asked 0 "i" :: (sampleAsked.turns 1).1 ++
      .did (.deleteAudit "i") (.ok true) :: (sampleOvertaken.turns 7).1) "i" 0 base) ∧
    .scanned 0 ⟨.getAudit "i", none⟩ ∈ (sampleOvertaken.turns 7).1 := by
  have accepted : .answered 0 (.ok Scan.started) ∈ (sampleOvertaken.turns 7).1 :=
    List.mem_of_getElem? (i := 5) rfl
  refine ⟨accepted, ?_, List.mem_of_getElem? (i := 6) rfl⟩
  obtain ⟨n, -, marked, -⟩ := accepted_scans_have_their_audit sample_idle (sampleOvertaken_runs 7) (by decide)
    (show Happening.asked 0 "i" ∈ _ from List.mem_cons_self)
    (List.mem_append_right _ (List.mem_cons_of_mem _ accepted))
  rw [marked, not_not]
  exact ⟨[.asked 0 "i"], _, [.did (.deleteAudit "i") (.ok true), .served 0 ⟨.listFindings "i", []⟩], .ok none,
    (sampleOvertaken.turns 7).1.drop 2, rfl, List.mem_cons_self⟩

end Accepted

end Traffic

end RepoAudit
