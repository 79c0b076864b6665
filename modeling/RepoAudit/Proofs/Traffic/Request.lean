import RepoAudit.Proofs.Traffic.Invariant

/-!
# Requests for scans keep the invariant

The calls of the request that is served: three of them matter to the audits, the mark, the word of the
executor, and the mark that is taken back. With them every step keeps the invariant, and every run from an
idle service does.
-/

namespace RepoAudit.Traffic

section Requests

variable {hs : List Happening} {h : Happening} {t t' : Traffic} {auditId : String} {k : Nat}

/-- An audit that a call of the request leaves alone stays regular. -/
lemma Regular.serves (regular : Regular hs t auditId) {e : Exchange} (later : Later t t')
    (audit : t'.audit? auditId = t.audit? auditId) (live : t'.live = t.liveAfter e)
    (begun : ∀ base, e ≠ ⟨.updateAudit auditId Scan.beginning, .ok (some base)⟩)
    (admitted : ∀ n, e = ⟨.submit auditId, some n⟩ →
      Lost t auditId ∧ ∀ base, ¬ Begun hs auditId k base)
    (withdrawn : ∀ b now reply, e = ⟨.updateAudit b (Scan.refusal now), reply⟩ →
      ∀ base, ¬ Begun hs auditId k base) : Regular (hs ++ [.served k e]) t' auditId := by
  refine regular.apart ⟨later, audit, ?_, ?_, ?_, by simp, ?_, ?_⟩
  · intro j base same
    exact begun base (by simpa using (Happening.served.inj same).2)
  · rintro j n base before same
    obtain ⟨rfl, exchange⟩ := Happening.served.inj same
    exact (admitted n exchange).2 base before
  · rintro j base before b now reply same
    obtain ⟨rfl, exchange⟩ := Happening.served.inj same
    exact withdrawn b now reply exchange base before
  · intro j n base program _ _ member
    rw [live]
    unfold liveAfter
    split
    · exact List.mem_append_left _ member
    · exact member
  · intro scan member of
    rw [live] at member
    unfold liveAfter at member
    split at member
    · next owner number =>
      obtain old | new := List.mem_append.mp member
      · exact .inr ⟨scan, old, of, rfl⟩
      · obtain rfl := List.mem_singleton.mp new
        obtain rfl : owner = auditId := of
        exact .inl (admitted number rfl).1
    · exact .inr ⟨scan, member, of, rfl⟩

/-- After a call of the request by which the executor takes no scan, numbers and serials are as before. -/
lemma Tidy.serves (tidy : Tidy hs t) {c : Call}
    (saved : Exchange.Saved ⟨c, (t.world.perform c).1⟩) (current : k < t.asked)
    (unadmitted : ∀ b, c = .submit b → (t.world.perform c).2 = t.world)
    (refused : ∀ b n, (⟨c, (t.world.perform c).1⟩ : Exchange) ≠ ⟨.submit b, some n⟩)
    (world : t'.world = (t.world.perform c).2) (engine : t'.engine = t.engine)
    (asked : t'.asked = t.asked) (live : t'.live = t.live) :
    Tidy (hs ++ [.served k ⟨c, (t.world.perform c).1⟩]) t' := by
  obtain ⟨ids, drawn⟩ := World.perform_ids saved
  have later : Later t t' := ⟨by rw [world, ids], by rw [world]; exact drawn, engine⟩
  refine tidy.rests later (tidy.unused_after saved later world) (Nat.le_of_eq asked.symm) ?_ ?_
    (by simp) (by simp) ?_ ?_ (live ▸ tidy.distinct)
  · rw [world]
    by_cases submits : ∃ b, c = .submit b
    · obtain ⟨b, same⟩ := submits
      rw [unadmitted b same]
    · exact World.perform_jobs fun b same => submits ⟨b, same⟩
  · rintro j e same
    obtain ⟨rfl, -⟩ := Happening.served.inj same
    rwa [asked]
  · rintro b j n same
    exact refused b n (Happening.served.inj same).2
  · intro scan member
    rw [live] at member
    exact ⟨⟨scan, member, rfl, rfl⟩, (tidy.live scan member).2⟩

/-- When the executor takes a scan, it does so under a new number. -/
lemma Tidy.admits (tidy : Tidy hs t) {n : Nat} (current : k < t.asked)
    (untaken : ∀ b m, ¬ Admitted hs b k m) (number : n = t.world.executor.jobs.length)
    (ledger : t'.world.ledger = t.world.ledger)
    (jobs : t'.world.executor.jobs.length = t.world.executor.jobs.length + 1)
    (asked : t'.asked = t.asked)
    (live : t'.live = t.live ++ [⟨n, auditId, Scan.run t.engine auditId⟩]) :
    Tidy (hs ++ [.served k ⟨.submit auditId, some n⟩]) t' := by
  have admitted {b j m} : Admitted (hs ++ [.served k ⟨.submit auditId, some n⟩]) b j m ↔
      Admitted hs b j m ∨ k = j ∧ auditId = b ∧ n = m := by
    rw [admitted_concat]
    simp only [Happening.served.injEq, Exchange.mk.injEq, Call.submit.injEq]
    constructor
    · rintro (before | ⟨rfl, rfl, same⟩)
      · exact .inl before
      · exact .inr ⟨rfl, rfl, by simpa using same⟩
    · rintro (before | ⟨rfl, rfl, rfl⟩)
      · exact .inl before
      · exact .inr ⟨rfl, rfl, .rfl⟩
  have less {m} (before : m < t.world.executor.jobs.length) :
      m < t'.world.executor.jobs.length := by
    rw [jobs]
    exact Nat.lt_succ_of_lt before
  have unused {b j} (before : Admitted hs b j n) : False :=
    Nat.lt_irrefl _ (number ▸ tidy.admitted b j n before)
  refine ⟨ledger ▸ tidy.injective, ?_, ?_, ?_, ?_, ?_, ?_, ?_, ?_, ?_⟩
  · intro m fresh
    have := tidy.unused m (ledger ▸ fresh)
    rwa [Traffic.audit?, ledger]
  · intro j e happened
    rw [asked]
    obtain before | last : .served j e ∈ hs ∨ j = k ∧ _ := by simpa using happened
    · exact tidy.serials j e before
    · exact last.1 ▸ current
  · intro m e happened
    exact less (tidy.scanned m e (by simpa using happened))
  · intro m result happened
    have before : .ended m result ∈ hs := by simpa using happened
    refine ⟨less (tidy.ended m result before).1, fun scan member => ?_⟩
    rw [live] at member
    obtain old | new := List.mem_append.mp member
    · exact (tidy.ended m result before).2 scan old
    · obtain rfl := List.mem_singleton.mp new
      exact Nat.ne_of_gt (number ▸ (tidy.ended m result before).1)
  · intro b j m a
    obtain before | ⟨-, -, rfl⟩ := admitted.mp a
    · exact less (tidy.admitted b j m before)
    · rw [jobs, number]
      exact Nat.lt_succ_self _
  · -- Either request was granted before, or it is granted now; no number is given that was given before.
    intro a b i j m one other
    obtain one | ⟨rfl, rfl, rfl⟩ := admitted.mp one <;> obtain other | ⟨rfl, rfl, same⟩ := admitted.mp other
    · exact tidy.one a b i j m one other
    · exact (unused (same ▸ one)).elim
    · exact (unused other).elim
    · exact ⟨rfl, rfl⟩
  · intro a b j m m' one other
    obtain one | ⟨rfl, rfl, rfl⟩ := admitted.mp one <;> obtain other | ⟨same, rfl, rfl⟩ := admitted.mp other
    · exact tidy.once a b j m m' one other
    · exact absurd (same ▸ one) (untaken a m)
    · exact absurd other (untaken b m')
    · rfl
  · intro scan member
    rw [live] at member
    obtain old | new := List.mem_append.mp member
    · obtain ⟨⟨j, a⟩, keeps⟩ := tidy.live scan old
      exact ⟨⟨j, a.later⟩, keeps⟩
    · obtain rfl := List.mem_singleton.mp new
      exact ⟨⟨k, admitted.mpr (.inr ⟨rfl, rfl, rfl⟩)⟩, Scan.confined_run⟩
  · rw [live, List.map_append, List.map_singleton]
    refine List.nodup_append.mpr ⟨tidy.distinct, List.nodup_singleton _, ?_⟩
    rintro m old m' new rfl
    obtain rfl := List.mem_singleton.mp new
    obtain ⟨scan, member, same⟩ := List.mem_map.mp old
    obtain ⟨⟨j, a⟩, -⟩ := tidy.live scan member
    exact unused (same ▸ a)

variable {c : Call} {next : c.Reply → Program (Except StoreError Scan.Acceptance)}

/-- The request that is served makes a call. -/
lemma Served.moves {phase : Opening} {e : Exchange} {program : Program (Except StoreError Scan.Acceptance)}
    (served : Served hs t ⟨k, auditId, .call c next⟩ phase) (asked : t'.asked = t.asked)
    (keeps : program.Keeps (Scan.opening auditId)
      (fun result o => result = .ok Scan.started ↔ ∃ found number, o = .granted found number)
      (phase.next e))
    (waits : pending (phase.next e) = true → pending phase = true ∧
      (∀ b n, e ≠ ⟨.submit b, some n⟩) ∧ ∀ b now reply, e ≠ ⟨.updateAudit b (Scan.refusal now), reply⟩)
    (fits : Fits (hs ++ [.served k e]) t' auditId k (phase.next e)) :
    Served (hs ++ [.served k e]) t' ⟨k, auditId, program⟩ (phase.next e) := by
  have reached' : Traffic.reached k (hs ++ [.served k e]) = phase.next e := by
    rw [reached_concat_served, served.reached]
  refine ⟨keeps, reached', asked ▸ served.asked, ?_, ?_, ?_, fits⟩
  · intro j e' happened
    obtain before | last : .served j e' ∈ hs ∨ j = k ∧ _ := by simpa using happened
    · exact served.last j e' before
    · exact Nat.le_of_eq last.1
  · intro pending' b n admitted
    obtain ⟨pending, unadmitted, -⟩ := waits pending'
    obtain before | last := admitted_concat.mp admitted
    · exact served.untaken pending b n before
    · exact unadmitted b n (Happening.served.inj last).2
  · intro pending' withdrawn
    obtain ⟨pending, -, unwithdrawn⟩ := waits pending'
    obtain before | ⟨b, now, reply, last⟩ := withdrawn_concat.mp withdrawn
    · exact served.kept pending before
    · exact unwithdrawn b now reply (Happening.served.inj last).2

/-- A call of the request that neither changes an audit nor asks the executor for a scan. -/
lemma Sound.serves_quietly (sound : Sound hs t) {phase : Opening}
    (current : Served hs t ⟨k, auditId, .call c next⟩ phase)
    (saved : Exchange.Saved ⟨c, (t.world.perform c).1⟩)
    (unchanging : ∀ id changes, c ≠ .updateAudit id changes) (unasking : ∀ b, c ≠ .submit b)
    (waits : pending (phase.next ⟨c, (t.world.perform c).1⟩) = true → pending phase = true)
    (fits : (∀ b base, Begun (hs ++ [.served k ⟨c, (t.world.perform c).1⟩]) b k base ↔
        Begun hs b k base) →
      (∀ id, (t.world.perform c).2.ledger.store.audit? id = t.audit? id) →
      Later t { t with
        world := (t.world.perform c).2
        live := t.liveAfter ⟨c, (t.world.perform c).1⟩
        serving := some ⟨k, auditId, next (t.world.perform c).1⟩ } →
      Fits (hs ++ [.served k ⟨c, (t.world.perform c).1⟩]) { t with
        world := (t.world.perform c).2
        live := t.liveAfter ⟨c, (t.world.perform c).1⟩
        serving := some ⟨k, auditId, next (t.world.perform c).1⟩ } auditId k
        (phase.next ⟨c, (t.world.perform c).1⟩)) :
    Sound (hs ++ [.served k ⟨c, (t.world.perform c).1⟩]) { t with
      world := (t.world.perform c).2
      live := t.liveAfter ⟨c, (t.world.perform c).1⟩
      serving := some ⟨k, auditId, next (t.world.perform c).1⟩ } := by
  have live : t.liveAfter ⟨c, (t.world.perform c).1⟩ = t.live := liveAfter_eq unasking
  have asks {b} {reply : (Call.submit b).Reply} :
      (⟨c, (t.world.perform c).1⟩ : Exchange) ≠ ⟨.submit b, reply⟩ := fun same =>
    unasking b (congrArg Exchange.call same)
  have changes {id changes} {reply : (Call.updateAudit id changes).Reply} :
      (⟨c, (t.world.perform c).1⟩ : Exchange) ≠ ⟨.updateAudit id changes, reply⟩ := fun same =>
    unchanging id changes (congrArg Exchange.call same)
  have audits (id) : (t.world.perform c).2.ledger.store.audit? id = t.audit? id := by
    obtain ⟨-, same⟩ | ⟨id', changes', _, -, exchange, -⟩ := World.perform_audits saved
    · exact same id
    · exact absurd exchange changes
  obtain ⟨ids, drawn⟩ := World.perform_ids saved
  refine ⟨sound.tidy.serves saved current.asked (fun b same => absurd same (unasking b))
    (fun _ _ => asks) rfl rfl rfl live, ?_, ?_⟩
  · intro b
    exact (sound.regular b).serves ⟨ids, drawn, rfl⟩ (audits b) rfl (fun _ => changes)
      (fun n same => absurd same asks) (fun _ now reply same => absurd same changes)
  · rintro s ⟨⟩
    refine ⟨_, current.moves rfl (current.keeps.2 _ trivial)
      (fun pending => ⟨waits pending, fun _ _ => asks, fun _ _ _ => changes⟩) ?_⟩
    exact fits (by simp [begun_concat, changes]) audits ⟨ids, drawn, rfl⟩

/-- The request marks its audit, if it is still there. -/
lemma Sound.begins (sound : Sound hs t)
    {next : Except StoreError (Option AuditRecord) → Program (Except StoreError Scan.Acceptance)}
    (current : Served hs t ⟨k, auditId, .call (.updateAudit auditId Scan.beginning) next⟩ (.clearing []))
    (saved : Exchange.Saved ⟨.updateAudit auditId Scan.beginning,
      (t.world.perform (.updateAudit auditId Scan.beginning)).1⟩)
    (world : t'.world = (t.world.perform (.updateAudit auditId Scan.beginning)).2)
    (engine : t'.engine = t.engine) (asked : t'.asked = t.asked) (live : t'.live = t.live)
    (serving : t'.serving =
      some ⟨k, auditId, next (t.world.perform (.updateAudit auditId Scan.beginning)).1⟩) :
    Sound (hs ++ [.served k ⟨.updateAudit auditId Scan.beginning,
      (t.world.perform (.updateAudit auditId Scan.beginning)).1⟩]) t' := by
  obtain ⟨unbegun, unmarked⟩ := current.fits
  obtain ⟨ids, drawn⟩ := World.perform_ids saved
  have later : Later t t' := ⟨by rw [world, ids], by rw [world]; exact drawn, engine⟩
  have tidy := sound.tidy.serves saved current.asked (by simp) (by simp) world engine asked live
  have moves := current.moves (e := ⟨.updateAudit auditId Scan.beginning,
    (t.world.perform (.updateAudit auditId Scan.beginning)).1⟩) asked (current.keeps.2 _ trivial)
    (fun _ => ⟨rfl, by simp, by simp [beginning_ne_refusal]⟩)
  obtain ⟨missing, does⟩ | ⟨audit, disk, found, does⟩ := World.perform_updateAudit saved
  · -- The audit was deleted after the request had looked at it: nothing is marked.
    have audits (id) : t'.audit? id = t.audit? id := by
      show t'.world.ledger.store.audit? id = t.world.ledger.store.audit? id
      rw [world, does]
    have lost : Lost t auditId := by
      obtain ⟨audit, found, -⟩ | lost := unmarked
      · rw [Traffic.audit?, missing] at found
        cases found
      · exact lost
    refine ⟨tidy, fun b => ?_, ?_⟩
    · refine (sound.regular b).serves later (audits b) live ?_ (by simp) ?_
      · simp [does]
      · simp [beginning_ne_refusal]
    · rintro s current
      obtain rfl := Option.some.inj (serving.symm.trans current)
      refine ⟨_, moves ?_⟩
      rw [does]
      exact ⟨by simpa [begun_concat] using unbegun, lost.later later ((audits _).trans lost.1)⟩
  · -- The audit is there: it is not running, since the request saw it so.
    have idle : audit.isRunning = false := by
      obtain ⟨other, found', idle⟩ | lost := unmarked
      · rw [Traffic.audit?, found, Option.some.injEq] at found'
        rw [found', idle]
      · exact absurd lost (not_lost found)
    have audits (id) : t'.audit? id =
        if id = auditId then some (audit.change Scan.beginning) else t.audit? id := by
      show t'.world.ledger.store.audit? id = _
      rw [world, does]
      simp [Store.id_of_audit? found, Traffic.audit?]
    refine ⟨tidy, fun b => ?_, ?_⟩
    · by_cases same : b = auditId
      · subst same
        exact (sound.regular b).begins engine live current.last (unbegun b) (current.untaken rfl b)
          (current.kept rfl) ⟨found, idle⟩ ⟨(audits b).trans (if_pos rfl), rfl⟩ rfl (by rw [does])
      · refine (sound.regular b).serves later ((audits b).trans (if_neg same)) live ?_ (by simp) ?_
        · simp [Ne.symm same]
        · simp [beginning_ne_refusal]
    · rintro s current
      obtain rfl := Option.some.inj (serving.symm.trans current)
      refine ⟨_, moves ?_⟩
      rw [does]
      refine ⟨fun b base => ?_, (audits _).trans (if_pos rfl), rfl, rfl⟩
      simp [begun_concat, unbegun, eq_comm]

/-- A call that leaves the audit leaves it as the request marked it. -/
lemma Marked.rests {found : Option AuditRecord} (marked : Marked hs t auditId k found)
    (begun : ∀ b base, Begun (hs ++ [h]) b k base ↔ Begun hs b k base) (later : Later t t')
    (audit : t'.audit? auditId = t.audit? auditId) : Marked (hs ++ [h]) t' auditId k found := by
  cases found with
  | none => exact ⟨fun b base => (begun b base).not.mpr (marked.1 b base),
      marked.2.later later (audit.trans marked.2.1)⟩
  | some base => exact ⟨fun b base' => (begun b base').trans (marked.1 b base'),
      audit.trans marked.2.1, marked.2.2⟩

/-- A call that leaves the audit leaves it unmarked. -/
lemma Unmarked.rests (unmarked : Unmarked t auditId) (later : Later t t')
    (audit : t'.audit? auditId = t.audit? auditId) : Unmarked t' auditId := by
  obtain ⟨old, found, idle⟩ | lost := unmarked
  · exact .inl ⟨old, audit.trans found, idle⟩
  · exact .inr (lost.later later (audit.trans lost.1))

/-- The request asks the executor for a scan. -/
lemma Sound.submits (sound : Sound hs t) {found : Option AuditRecord}
    {next : Option Nat → Program (Except StoreError Scan.Acceptance)}
    (current : Served hs t ⟨k, auditId, .call (.submit auditId) next⟩ (.begun found))
    (world : t'.world = (t.world.perform (.submit auditId)).2) (engine : t'.engine = t.engine)
    (asked : t'.asked = t.asked)
    (live : t'.live = t.liveAfter ⟨.submit auditId, (t.world.perform (.submit auditId)).1⟩)
    (serving : t'.serving = some ⟨k, auditId, next (t.world.perform (.submit auditId)).1⟩) :
    Sound (hs ++ [.served k ⟨.submit auditId, (t.world.perform (.submit auditId)).1⟩]) t' := by
  have ledger : t'.world.ledger = t.world.ledger := by rw [world]; rfl
  have later : Later t t' := ⟨by rw [ledger], Nat.le_of_eq (by rw [ledger]), engine⟩
  have audits (id) : t'.audit? id = t.audit? id := by rw [Traffic.audit?, ledger]; rfl
  have moves := current.moves (e := ⟨.submit auditId, (t.world.perform (.submit auditId)).1⟩) asked
    (current.keeps.2 _ trivial)
  have marked : Marked hs t auditId k found := current.fits
  obtain ⟨refused, same⟩ | ⟨taken, jobs⟩ := World.perform_submit t.world auditId
  · -- The executor refuses: nothing but the request goes on.
    have tidy := sound.tidy.serves (c := .submit auditId) (k := k) trivial current.asked (fun _ _ => same)
      (by simp [refused]) world engine asked (by rw [live, refused]; rfl)
    rw [refused] at moves live serving tidy ⊢
    refine ⟨tidy, fun b => ?_, ?_⟩
    · exact (sound.regular b).serves later (audits b) live (by simp) (by simp) (by simp)
    · rintro s current
      obtain rfl := Option.some.inj (serving.symm.trans current)
      refine ⟨_, moves (fun _ => ⟨rfl, by simp, by simp⟩) ?_⟩
      exact marked.rests (by simp [begun_concat]) later (audits auditId)
  · -- The executor takes the scan, and what the scan is to keep begins with the record that was marked.
    rw [taken] at moves live serving ⊢
    have untaken := current.untaken rfl
    refine ⟨sound.tidy.admits current.asked untaken rfl ledger (by rw [world, jobs]) asked live,
      fun b => ?_, ?_⟩
    · by_cases same : b = auditId
      · subst same
        cases found with
        | none =>
          exact (sound.regular b).serves later (audits b) live (by simp)
            (fun _ _ => ⟨marked.2, marked.1 b⟩) (by simp)
        | some base =>
          refine (sound.regular b).admits (audits b) later (by simp [marked.1]) (current.kept rfl)
            ⟨marked.2.1, marked.2.2.1⟩ marked.2.2.2 ?_ live rfl
          exact fun e happened => Nat.lt_irrefl _ (sound.tidy.scanned _ e happened)
      · refine (sound.regular b).serves later (audits b) live (by simp) ?_ (by simp)
        intro n exchange
        simp only [Exchange.mk.injEq, Call.submit.injEq] at exchange
        exact absurd exchange.1.symm same
    · rintro s current
      obtain rfl := Option.some.inj (serving.symm.trans current)
      exact ⟨_, moves (fun pending => by cases pending) (List.mem_append_right _ List.mem_cons_self)⟩

/-- The request takes its mark back. -/
lemma Sound.refuses (sound : Sound hs t) {found : Option AuditRecord} {now : Instant}
    {next : Except StoreError (Option AuditRecord) → Program (Except StoreError Scan.Acceptance)}
    (current : Served hs t ⟨k, auditId, .call (.updateAudit auditId (Scan.refusal now)) next⟩
      (.refused found))
    (saved : Exchange.Saved ⟨.updateAudit auditId (Scan.refusal now),
      (t.world.perform (.updateAudit auditId (Scan.refusal now))).1⟩)
    (world : t'.world = (t.world.perform (.updateAudit auditId (Scan.refusal now))).2)
    (engine : t'.engine = t.engine) (asked : t'.asked = t.asked) (live : t'.live = t.live)
    (serving : t'.serving =
      some ⟨k, auditId, next (t.world.perform (.updateAudit auditId (Scan.refusal now))).1⟩) :
    Sound (hs ++ [.served k ⟨.updateAudit auditId (Scan.refusal now),
      (t.world.perform (.updateAudit auditId (Scan.refusal now))).1⟩]) t' := by
  have marked : Marked hs t auditId k found := current.fits
  obtain ⟨ids, drawn⟩ := World.perform_ids saved
  have later : Later t t' := ⟨by rw [world, ids], by rw [world]; exact drawn, engine⟩
  have tidy := sound.tidy.serves saved current.asked (by simp) (by simp) world engine asked live
  have goes := current.moves (e := ⟨.updateAudit auditId (Scan.refusal now),
    (t.world.perform (.updateAudit auditId (Scan.refusal now))).1⟩) asked
    (current.keeps.2 (t.world.perform (.updateAudit auditId (Scan.refusal now))).1 trivial)
    (fun pending => by cases pending) trivial
  refine ⟨tidy, fun b => ?_, ?_⟩
  · cases found with
    | none =>
      obtain ⟨missing, does⟩ | ⟨audit, disk, present, does⟩ := World.perform_updateAudit saved
      · refine (sound.regular b).serves later ?_ live ?_ (by simp) (fun _ _ _ _ => marked.1 b)
        · show t'.world.ledger.store.audit? b = t.world.ledger.store.audit? b
          rw [world, does]
        · simp [(beginning_ne_refusal now).symm]
      · cases marked.2.1.symm.trans present
    | some base =>
      obtain ⟨missing, does⟩ | ⟨audit, disk, present, does⟩ := World.perform_updateAudit saved
      · cases missing.symm.trans marked.2.1
      · obtain rfl : base = audit := Option.some.inj (marked.2.1.symm.trans present)
        have audits (id) : t'.audit? id =
            if id = auditId then some (base.change (Scan.refusal now)) else t.audit? id := by
          show t'.world.ledger.store.audit? id = _
          rw [world, does]
          simp [Store.id_of_audit? present, Traffic.audit?]
        by_cases same : b = auditId
        · subst same
          exact (sound.regular b).withdraws engine live current.last ((marked.1 b base).mpr ⟨rfl, rfl⟩)
            (current.untaken rfl b) (current.kept rfl) marked.2.1 ⟨(audits b).trans (if_pos rfl), rfl⟩
            marked.2.2.2 rfl
        · refine (sound.regular b).serves later ((audits b).trans (if_neg same)) live ?_ (by simp) ?_
          · simp [(beginning_ne_refusal now).symm]
          · intro _ _ _ _ base' begun
            exact same ((marked.1 b base').mp begun).1
  · rintro s current
    obtain rfl := Option.some.inj (serving.symm.trans current)
    exact ⟨_, goes⟩

/-- The request that is served makes a call. -/
lemma Sound.serves (sound : Sound hs t)
    (serving : t.serving = some ⟨k, auditId, .call c next⟩)
    (saved : Exchange.Saved ⟨c, (t.world.perform c).1⟩) :
    Sound (hs ++ [.served k ⟨c, (t.world.perform c).1⟩]) { t with
      world := (t.world.perform c).2
      live := t.liveAfter ⟨c, (t.world.perform c).1⟩
      serving := some ⟨k, auditId, next (t.world.perform c).1⟩ } := by
  obtain ⟨phase, current⟩ := sound.served _ serving
  have allowed : Scan.openingAllows auditId phase c := current.keeps.1
  -- Where the request has come to tells which call it makes.
  cases phase with
  | fresh =>
    obtain rfl := allowed
    refine sound.serves_quietly current saved (by simp) (by simp) (fun _ => rfl) ?_
    intro begun audits later
    have unbegun (b base) := (begun b base).not.mpr (current.fits b base)
    have reply : (t.world.perform (.getAudit auditId)).1 = t.audit? auditId := rfl
    rw [reply] at unbegun ⊢
    cases found : t.audit? auditId with
    | none => trivial
    | some audit =>
      rw [found] at unbegun
      show Fits _ _ _ _ (if audit.isRunning = true then .closed else .seen)
      split
      case isTrue => trivial
      case isFalse idle =>
        exact ⟨unbegun, .inl ⟨audit, (audits _).trans found, by simpa using idle⟩⟩
  | seen =>
    obtain rfl := allowed
    refine sound.serves_quietly current saved (by simp) (by simp) (fun _ => rfl) ?_
    intro begun audits later
    exact ⟨fun b base => (begun b base).not.mpr (current.fits.1 b base),
      current.fits.2.rests later (audits _)⟩
  | clearing left =>
    cases left with
    | nil =>
      obtain rfl := allowed
      exact sound.begins current saved rfl rfl rfl rfl rfl
    | cons finding rest =>
      obtain rfl := allowed
      refine sound.serves_quietly current saved (by simp) (by simp) (fun _ => rfl) ?_
      intro begun audits later
      have unbegun (b base) := (begun b base).not.mpr (current.fits.1 b base)
      have unmarked := current.fits.2.rests later (audits _)
      revert unbegun unmarked
      cases (t.world.perform (.deleteFinding finding.id)).1 with
      | error => exact fun _ _ => trivial
      | ok => exact fun unbegun unmarked => ⟨unbegun, unmarked⟩
  | begun found =>
    obtain rfl := allowed
    exact sound.submits current rfl rfl rfl rfl rfl
  | refused found =>
    obtain rfl | ⟨now, rfl⟩ := allowed
    · refine sound.serves_quietly current saved (by simp) (by simp) (fun _ => rfl) ?_
      intro begun audits later
      exact Marked.rests current.fits begun later (audits _)
    · exact sound.refuses current saved rfl rfl rfl rfl rfl
  | granted found number =>
    refine sound.serves_quietly current saved ?_ ?_ (fun pending => by cases pending)
      fun _ _ _ => current.fits.later
    · obtain rfl | rfl := allowed <;> simp
    · obtain rfl | rfl := allowed <;> simp
  | closed => exact allowed.elim

/-- Every step in which no write fails keeps the invariant. -/
lemma Sound.step (sound : Sound hs t) (step : Step t h t') (saved : h.Saved) :
    Sound (hs ++ [h]) t' := by
  cases step with
  | asked auditId waits => exact sound.asks auditId
  | served serving => exact sound.serves serving saved
  | answered serving => exact sound.answers _ _
  | scanned live => exact sound.scans live saved
  | ended live => exact sound.ends live
  | reported n waits =>
    refine sound.quiet (by simp) (by simp) (by simp) ⟨rfl, Nat.le_refl _, rfl⟩ (fun _ => rfl) rfl ?_ rfl
      rfl
    simp only [Executor.report]
    split
    · split <;> rfl
    · rfl
  | did errand => exact sound.does errand _ (errand.does _)
  | shifted now host accepting =>
    exact sound.quiet (by simp) (by simp) (by simp) ⟨rfl, Nat.le_refl _, rfl⟩ (fun _ => rfl) rfl rfl rfl
      rfl

end Requests

/-- Every run from an idle service in which no write fails keeps the invariant. -/
lemma Idle.sound_runs {t₀ t : Traffic} {hs : List Happening} (idle : Idle t₀) (runs : Runs t₀ hs t)
    (saved : ∀ h ∈ hs, h.Saved) : Sound hs t := by
  induction runs with
  | none => exact idle.sound
  | more _ step ih =>
    exact (ih fun h happened => saved h (List.mem_append_left _ happened)).step step
      (saved _ (List.mem_append_right _ List.mem_cons_self))

end RepoAudit.Traffic
