import RepoAudit.Proofs.Traffic.Errand
import RepoAudit.Proofs.Traffic.Regular

/-!
# The invariant of traffic

Every audit is regular after every run from an idle service. Beside `Regular` and `Tidy` the invariant says
how far the request that is being served has come (`Fits`). Each kind of step keeps it, and so does a run.
-/

namespace RepoAudit.Traffic

/-- An audit that was deleted is lost, where ids that are still to be drawn are not in use. -/
lemma lost_of_deleted {t t' : Traffic} {auditId : String}
    (unused : ∀ n, t.world.ledger.drawn < n → t.audit? (t.world.ledger.ids n) = none)
    (step : Step t (.did (.deleteAudit auditId) (.ok true)) t') : Lost t' auditId := by
  obtain ⟨audit, disk, found, after⟩ := step.deleted
  refine ⟨by simp [audit?, after], fun n fresh same => ?_⟩
  rw [after] at fresh same
  have missing := unused n fresh
  rw [same, found] at missing
  cases missing

/-- What a request has done to its audit once it went past the mark: the audit stands as it was marked, or
it was gone and nothing was marked. -/
def Marked (hs : List Happening) (t : Traffic) (auditId : String) (k : Nat) :
    Option AuditRecord → Prop
  | some base => (∀ b base', Begun hs b k base' ↔ b = auditId ∧ base' = base) ∧
    t.audit? auditId = some base ∧ base.isRunning = true ∧ base.scanLog = .array []
  | none => (∀ b base, ¬ Begun hs b k base) ∧ Lost t auditId

/-- The audit is not marked, or it is lost. -/
def Unmarked (t : Traffic) (auditId : String) : Prop :=
  (∃ audit, t.audit? auditId = some audit ∧ audit.isRunning = false) ∨ Lost t auditId

/-- How far a request for a scan has come, and what this says about the audit and the history. -/
def Fits (hs : List Happening) (t : Traffic) (auditId : String) (k : Nat) : Opening → Prop
  | .fresh => ∀ b base, ¬ Begun hs b k base
  | .seen => (∀ b base, ¬ Begun hs b k base) ∧ Unmarked t auditId
  | .clearing _ => (∀ b base, ¬ Begun hs b k base) ∧ Unmarked t auditId
  | .begun found => Marked hs t auditId k found
  | .refused found => Marked hs t auditId k found
  | .granted _ number => Admitted hs auditId k number
  | .closed => True

/-- True before the executor has taken the scan of a request, and before the request is over. -/
def pending : Opening → Bool
  | .granted _ _ => false
  | .closed => false
  | _ => true

/-- The request that is served has come some way. -/
structure Served (hs : List Happening) (t : Traffic) (s : Serving) (phase : Opening) : Prop where
  keeps : s.program.Keeps (Scan.opening s.auditId)
    (fun result o => result = .ok Scan.started ↔ ∃ found number, o = .granted found number) phase
  reached : reached s.serial hs = phase
  asked : s.serial < t.asked
  last : ∀ k e, .served k e ∈ hs → k ≤ s.serial
  untaken : pending phase = true → ∀ b n, ¬ Admitted hs b s.serial n
  kept : pending phase = true → ¬ Withdrawn hs s.serial
  fits : Fits hs t s.auditId s.serial phase

/-- The invariant of traffic. -/
structure Sound (hs : List Happening) (t : Traffic) : Prop where
  tidy : Tidy hs t
  regular : ∀ auditId, Regular hs t auditId
  served : ∀ s, t.serving = some s → ∃ phase, Served hs t s phase

/-- A service that does nothing: no scan is running or live, and no request is being served. -/
structure Idle (t : Traffic) : Prop where
  injective : Function.Injective t.world.ledger.ids
  unused : ∀ n, t.world.ledger.drawn < n → t.audit? (t.world.ledger.ids n) = none
  live : t.live = []
  serving : t.serving = none
  unmarked : ∀ auditId audit, t.audit? auditId = some audit → audit.isRunning = false

lemma Idle.sound {t : Traffic} (idle : Idle t) : Sound [] t := by
  have unbegun {auditId k base} : ¬ Begun [] auditId k base := by simp [Begun]
  refine ⟨⟨idle.injective, idle.unused, by simp, by simp, by simp, by simp [Admitted],
    by simp [Admitted], by simp [Admitted], by simp [idle.live], by simp [idle.live]⟩,
    fun auditId => ⟨?_, ?_, ?_, ?_, ?_, ?_⟩, by simp [idle.serving]⟩
  · constructor
    · rintro ⟨audit, found, running⟩
      rw [idle.unmarked auditId audit found] at running
      cases running
    · rintro ⟨k, ⟨base, begun⟩, -⟩
      exact absurd begun unbegun
  · rintro k ⟨⟨base, begun⟩, -⟩
    exact absurd begun unbegun
  · exact fun k n base begun => absurd begun unbegun
  · rintro k ⟨⟨base, begun⟩, -⟩
    exact absurd begun unbegun
  · exact fun k base begun => absurd begun unbegun
  · simp [idle.live]

section Steps

variable {hs : List Happening} {h : Happening} {t t' : Traffic}

/-- What belongs to the ledger of traffic after another one. -/
lemma Tidy.rests (tidy : Tidy hs t) (later : Later t t')
    (unused : ∀ n, t'.world.ledger.drawn < n → t'.audit? (t'.world.ledger.ids n) = none)
    (asked : t.asked ≤ t'.asked)
    (jobs : t'.world.executor.jobs.length = t.world.executor.jobs.length)
    (served : ∀ k e, h = .served k e → k < t'.asked)
    (scanned : ∀ n e, h = .scanned n e → n < t.world.executor.jobs.length)
    (ended : ∀ n result, h = .ended n result →
      n < t.world.executor.jobs.length ∧ ∀ scan ∈ t'.live, scan.number ≠ n)
    (unadmitted : ∀ b k n, h ≠ .served k ⟨.submit b, some n⟩)
    (live : ∀ scan ∈ t'.live, (∃ other ∈ t.live,
      other.auditId = scan.auditId ∧ other.number = scan.number) ∧
      scan.program.Keeps (confinement scan.auditId) (fun _ _ => True) ())
    (distinct : (t'.live.map (·.number)).Nodup) : Tidy (hs ++ [h]) t' := by
  have admitted {b k n} : Admitted (hs ++ [h]) b k n ↔ Admitted hs b k n := by
    simp [admitted_concat, unadmitted]
  have happened {x} (mem : x ∈ hs ++ [h]) : x ∈ hs ∨ h = x := by simpa [eq_comm] using mem
  refine ⟨later.ids ▸ tidy.injective, unused, ?_, ?_, ?_, ?_, ?_, ?_, ?_, distinct⟩
  · intro k e mem
    obtain before | last := happened mem
    · exact Nat.lt_of_lt_of_le (tidy.serials k e before) asked
    · exact served k e last
  · intro n e mem
    rw [jobs]
    obtain before | last := happened mem
    · exact tidy.scanned n e before
    · exact scanned n e last
  · intro n result mem
    rw [jobs]
    obtain before | last := happened mem
    · refine ⟨(tidy.ended n result before).1, fun scan member => ?_⟩
      obtain ⟨⟨other, old, -, same⟩, -⟩ := live scan member
      rw [← same]
      exact (tidy.ended n result before).2 other old
    · exact ended n result last
  · intro b k n a
    rw [jobs]
    exact tidy.admitted b k n (admitted.mp a)
  · intro a b j k n one other
    exact tidy.one a b j k n (admitted.mp one) (admitted.mp other)
  · intro a b k m n one other
    exact tidy.once a b k m n (admitted.mp one) (admitted.mp other)
  · intro scan member
    obtain ⟨⟨other, old, sameAudit, sameNumber⟩, keeps⟩ := live scan member
    obtain ⟨⟨k, a⟩, -⟩ := tidy.live other old
    exact ⟨⟨k, admitted.mpr (sameAudit ▸ sameNumber ▸ a)⟩, keeps⟩

/-- The request that is served stays where it is while others make a step. -/
lemma Served.rests {s : Serving} {phase : Opening} (served : Served hs t s phase)
    (reads : ∀ k e, h ≠ .served k e) (asked : t.asked ≤ t'.asked)
    (lost : Lost t s.auditId → Lost t' s.auditId)
    (marked : pending phase = true → ∀ base, Begun hs s.auditId s.serial base →
      t.audit? s.auditId = some base → t'.audit? s.auditId = some base)
    (unmarked : pending phase = true → Unmarked t s.auditId → Unmarked t' s.auditId) :
    Served (hs ++ [h]) t' s phase := by
  have begun {b k base} : Begun (hs ++ [h]) b k base ↔ Begun hs b k base := by
    simp [begun_concat, reads]
  have admitted {b k n} : Admitted (hs ++ [h]) b k n ↔ Admitted hs b k n := by
    simp [admitted_concat, reads]
  have withdrawn {k} : Withdrawn (hs ++ [h]) k ↔ Withdrawn hs k := by
    simp [withdrawn_concat, reads]
  -- What the request has marked stands, since nothing else touches a marked audit while the request is served.
  have marks {found} (waits : pending phase = true) (holds : Marked hs t s.auditId s.serial found) :
      Marked (hs ++ [h]) t' s.auditId s.serial found := by
    cases found with
    | none => exact ⟨by simpa [begun] using holds.1, lost holds.2⟩
    | some base =>
      refine ⟨by simpa [begun] using holds.1, ?_, holds.2.2⟩
      exact marked waits base ((holds.1 _ base).mpr ⟨rfl, rfl⟩) holds.2.1
  refine ⟨served.keeps, (reached_concat_other (reads _)).trans served.reached,
    Nat.lt_of_lt_of_le served.asked asked, ?_, ?_, ?_, ?_⟩
  · intro k e mem
    obtain before | last : .served k e ∈ hs ∨ h = .served k e := by simpa [eq_comm] using mem
    · exact served.last k e before
    · exact absurd last (reads k e)
  · exact fun waits b n a => served.untaken waits b n (admitted.mp a)
  · exact fun waits w => served.kept waits (withdrawn.mp w)
  · have fits := served.fits
    cases phase with
    | fresh => simpa [Fits, begun] using fits
    | seen => exact ⟨by simpa [begun] using fits.1, unmarked rfl fits.2⟩
    | clearing left => exact ⟨by simpa [begun] using fits.1, unmarked rfl fits.2⟩
    | begun found => exact marks rfl fits
    | refused found => exact marks rfl fits
    | granted found number => exact fits.later
    | closed => trivial

/-- A step that is no call of the request that is served, and no call of a scan. -/
lemma Apart.quiet {auditId : String} (reads : ∀ k e, h ≠ .served k e) (others : ∀ n e, h ≠ .scanned n e)
    (later : Later t t') (audit : t'.audit? auditId = t.audit? auditId) (live : t'.live = t.live) :
    Apart hs h t t' auditId :=
  ⟨later, audit, fun k _ => reads k _, fun k _ _ _ => reads k _, fun k _ _ _ _ _ => reads k _,
    fun _ n _ _ _ => others n, fun _ _ _ _ _ _ member => live ▸ member,
    fun scan member of => .inr ⟨scan, live ▸ member, of, rfl⟩⟩

/-- A step that is no call of the request or of a scan, and ends no scan. -/
lemma Tidy.quiet (tidy : Tidy hs t) (reads : ∀ k e, h ≠ .served k e) (others : ∀ n e, h ≠ .scanned n e)
    (unended : ∀ n result, h ≠ .ended n result) (later : Later t t')
    (unused : ∀ n, t'.world.ledger.drawn < n → t'.audit? (t'.world.ledger.ids n) = none)
    (asked : t.asked ≤ t'.asked)
    (jobs : t'.world.executor.jobs.length = t.world.executor.jobs.length) (live : t'.live = t.live) :
    Tidy (hs ++ [h]) t' := by
  refine tidy.rests later unused asked jobs (fun k e same => absurd same (reads k e))
    (fun n e same => absurd same (others n e)) (fun n result same => absurd same (unended n result))
    (fun _ k _ => reads k _) ?_ (live ▸ tidy.distinct)
  intro scan member
  rw [live] at member
  exact ⟨⟨scan, member, rfl, rfl⟩, (tidy.live scan member).2⟩

lemma Sound.asks (sound : Sound hs t) (auditId : String) :
    Sound (hs ++ [.asked t.asked auditId])
      { t with
        serving := some ⟨t.asked, auditId, (Scan.start auditId).run⟩, asked := t.asked + 1 } := by
  refine ⟨sound.tidy.quiet (by simp) (by simp) (by simp) ⟨rfl, Nat.le_refl _, rfl⟩ sound.tidy.unused
    (Nat.le_succ _) rfl rfl, fun b => (sound.regular b).apart (.quiet (by simp) (by simp)
      ⟨rfl, Nat.le_refl _, rfl⟩ rfl rfl), ?_⟩
  rintro s ⟨⟩
  have unserved {e} : .served t.asked e ∉ hs := fun happened =>
    Nat.lt_irrefl _ (sound.tidy.serials _ e happened)
  have fresh : reached t.asked (hs ++ [.asked t.asked auditId]) = .fresh :=
    (reached_concat_other (by simp)).trans (reached_of_unserved fun _ => unserved)
  refine ⟨.fresh, Scan.opens_start, fresh, Nat.lt_succ_self _, ?_, ?_, ?_, ?_⟩
  · intro k e happened
    have before : .served k e ∈ hs := by simpa using happened
    exact Nat.le_of_lt (sound.tidy.serials k e before)
  · intro _ b n admitted
    exact unserved (show .served t.asked _ ∈ hs by simpa [Admitted] using admitted)
  · rintro _ ⟨b, now, reply, happened⟩
    exact unserved (show .served t.asked _ ∈ hs by simpa using happened)
  · intro b base begun
    exact unserved (show .served t.asked _ ∈ hs by simpa [Begun] using begun)

lemma Sound.answers (sound : Sound hs t) (k : Nat) (result : Except StoreError Scan.Acceptance) :
    Sound (hs ++ [.answered k result]) { t with serving := none } :=
  ⟨sound.tidy.quiet (by simp) (by simp) (by simp) ⟨rfl, Nat.le_refl _, rfl⟩ sound.tidy.unused
    (Nat.le_refl _) rfl rfl, fun b => (sound.regular b).apart (.quiet (by simp) (by simp)
      ⟨rfl, Nat.le_refl _, rfl⟩ rfl rfl), by simp⟩

/-- A step that leaves the store, and that is neither a call nor an end. -/
lemma Sound.quiet (sound : Sound hs t) (reads : ∀ k e, h ≠ .served k e)
    (others : ∀ n e, h ≠ .scanned n e) (unended : ∀ n result, h ≠ .ended n result) (later : Later t t')
    (audits : ∀ id, t'.audit? id = t.audit? id) (asked : t'.asked = t.asked)
    (jobs : t'.world.executor.jobs.length = t.world.executor.jobs.length) (live : t'.live = t.live)
    (serving : t'.serving = t.serving) : Sound (hs ++ [h]) t' := by
  refine ⟨sound.tidy.quiet reads others unended later ?_ (Nat.le_of_eq asked.symm) jobs live,
    fun b => (sound.regular b).apart (.quiet reads others later (audits b) live), ?_⟩
  · intro n fresh
    rw [audits, later.ids]
    exact sound.tidy.unused n (Nat.lt_of_le_of_lt later.drawn fresh)
  · intro s current
    obtain ⟨phase, served⟩ := sound.served s (serving ▸ current)
    have lost (lost : Lost t s.auditId) : Lost t' s.auditId :=
      lost.later later ((audits _).trans lost.1)
    refine ⟨phase, served.rests reads (Nat.le_of_eq asked.symm) lost ?_ ?_⟩
    · intro _ base _ found
      rw [audits, found]
    · rintro _ (⟨audit, found, unmarked⟩ | gone)
      · exact .inl ⟨audit, (audits _).trans found, unmarked⟩
      · exact .inr (lost gone)

/-- An audit is made under an id that was drawn for it. -/
lemma Sound.makes (sound : Sound hs t) {audit : AuditRecord} (unmarked : audit.isRunning = false)
    (reads : ∀ k e, h ≠ .served k e) (others : ∀ n e, h ≠ .scanned n e)
    (unended : ∀ n result, h ≠ .ended n result) (later : Later t t')
    (drawn : t'.world.ledger.drawn = t.world.ledger.drawn + 1)
    (audits : ∀ id, t'.audit? id =
      if id = t.world.ledger.ids (t.world.ledger.drawn + 1) then some audit else t.audit? id)
    (asked : t'.asked = t.asked)
    (jobs : t'.world.executor.jobs.length = t.world.executor.jobs.length) (live : t'.live = t.live)
    (serving : t'.serving = t.serving) : Sound (hs ++ [h]) t' := by
  -- The id is drawn now, so no audit has it, and none with it was lost.
  have missing := sound.tidy.unused (t.world.ledger.drawn + 1) (Nat.lt_succ_self _)
  have unlost : ¬ Lost t (t.world.ledger.ids (t.world.ledger.drawn + 1)) := fun lost =>
    lost.2 _ (Nat.lt_succ_self _) rfl
  refine ⟨sound.tidy.quiet reads others unended later ?_ (Nat.le_of_eq asked.symm) jobs live, ?_, ?_⟩
  · intro n fresh
    rw [drawn] at fresh
    have other : t.world.ledger.ids n ≠ t.world.ledger.ids (t.world.ledger.drawn + 1) := fun same =>
      Nat.ne_of_gt fresh (sound.tidy.injective same)
    rw [audits, later.ids, if_neg other]
    exact sound.tidy.unused n (Nat.lt_of_succ_lt fresh)
  · intro b
    by_cases made : b = t.world.ledger.ids (t.world.ledger.drawn + 1)
    · subst made
      exact (sound.regular _).created missing unlost live ((audits _).trans (if_pos rfl)) unmarked reads
    · exact (sound.regular b).apart
        (.quiet reads others later ((audits b).trans (if_neg made)) live)
  · intro s current
    obtain ⟨phase, served⟩ := sound.served s (serving ▸ current)
    have lost (lost : Lost t s.auditId) : Lost t' s.auditId := by
      have other : s.auditId ≠ t.world.ledger.ids (t.world.ledger.drawn + 1) := fun made =>
        unlost (made ▸ lost)
      exact lost.later later ((audits _).trans ((if_neg other).trans lost.1))
    refine ⟨phase, served.rests reads (Nat.le_of_eq asked.symm) lost ?_ ?_⟩
    · intro _ base _ found
      rw [audits, if_neg, found]
      intro made
      rw [made, missing] at found
      cases found
    · rintro _ (⟨old, found, idle⟩ | gone)
      · refine .inl ⟨old, (audits _).trans ?_, idle⟩
        rw [if_neg, found]
        intro made
        rw [made, missing] at found
        cases found
      · exact .inr (lost gone)

lemma Sound.discards (sound : Sound hs t) {id : String} {audit : AuditRecord}
    (found : t.audit? id = some audit) (idle : audit.isRunning = false)
    (reads : ∀ k e, h ≠ .served k e) (others : ∀ n e, h ≠ .scanned n e)
    (unended : ∀ n result, h ≠ .ended n result) (later : Later t t')
    (drawn : t'.world.ledger.drawn = t.world.ledger.drawn)
    (audits : ∀ b, t'.audit? b = if b = id then none else t.audit? b) (asked : t'.asked = t.asked)
    (jobs : t'.world.executor.jobs.length = t.world.executor.jobs.length) (live : t'.live = t.live)
    (serving : t'.serving = t.serving) : Sound (hs ++ [h]) t' := by
  have used : ∀ n, t.world.ledger.drawn < n → t.world.ledger.ids n ≠ id := by
    intro n fresh same
    rw [← same, sound.tidy.unused n fresh] at found
    cases found
  have missing : t'.audit? id = none := (audits id).trans (if_pos rfl)
  have gone : Lost t' id := by
    refine ⟨missing, fun n fresh => ?_⟩
    rw [later.ids]
    exact used n (drawn ▸ fresh)
  refine ⟨sound.tidy.quiet reads others unended later ?_ (Nat.le_of_eq asked.symm) jobs live, ?_, ?_⟩
  · intro n fresh
    rw [audits, later.ids]
    split
    · rfl
    · exact sound.tidy.unused n (drawn ▸ fresh)
  · intro b
    by_cases same : b = id
    · subst same
      exact (sound.regular b).deleted later found idle used live missing reads others
    · exact (sound.regular b).apart
        (.quiet reads others later ((audits b).trans (if_neg same)) live)
  · intro s current
    obtain ⟨phase, served⟩ := sound.served s (serving ▸ current)
    have lost (lost : Lost t s.auditId) : Lost t' s.auditId := by
      refine lost.later later ((audits _).trans ?_)
      rw [lost.1, ite_self]
    refine ⟨phase, served.rests reads (Nat.le_of_eq asked.symm) lost ?_ ?_⟩
    · intro waits base begun marked
      rw [audits, if_neg, marked]
      -- A marked audit is running, so it is not the one that is deleted.
      intro same
      have isOpen : Open hs s.auditId s.serial :=
        ⟨⟨base, begun⟩, served.kept waits, fun n admitted => absurd admitted (served.untaken waits _ n)⟩
      exact (sound.regular s.auditId).closed (same.symm ▸ found) idle isOpen
    · rintro _ (⟨old, present, quiet⟩ | gone)
      · by_cases same : s.auditId = id
        · exact .inr (same ▸ gone)
        · exact .inl ⟨old, (audits _).trans ((if_neg same).trans present), quiet⟩
      · exact .inr (lost gone)

lemma Sound.does (sound : Sound hs t) (errand : Errand) (reply : Except StoreError errand.Reply)
    {ledger : Ledger} (does : errand.Does t.world.ledger ledger) :
    Sound (hs ++ [.did errand reply]) { t with world := { t.world with ledger } } := by
  cases does with
  | nothing => exact sound.quiet (by simp) (by simp) (by simp) (.refl t) (fun _ => rfl) rfl rfl rfl rfl
  | makes owner name address disk =>
    have unmarked : (Ledger.newAudit (t.world.ledger.ids (t.world.ledger.drawn + 1)) owner name address
        t.world.ledger.now).isRunning = false := rfl
    refine sound.makes unmarked (by simp) (by simp) (by simp) ⟨rfl, Nat.le_succ _, rfl⟩ rfl ?_ rfl rfl rfl rfl
    intro id
    exact Store.audit?_putAudit _ _ id
  | discards disk found idle =>
    refine sound.discards found idle (by simp) (by simp) (by simp) ⟨rfl, Nat.le_refl _, rfl⟩ rfl ?_ rfl
      rfl rfl rfl
    intro b
    exact Store.audit?_dropAudit _ _ b
  | files draft disk found =>
    exact sound.quiet (by simp) (by simp) (by simp) ⟨rfl, Nat.le_succ _, rfl⟩
      (fun id => Store.audit?_putFinding _ _ id) rfl rfl rfl rfl
  | misses auditId draft =>
    exact sound.quiet (by simp) (by simp) (by simp) ⟨rfl, Nat.le_succ _, rfl⟩ (fun _ => rfl) rfl rfl rfl
      rfl
  | changes changes disk found =>
    exact sound.quiet (by simp) (by simp) (by simp) ⟨rfl, Nat.le_refl _, rfl⟩
      (fun id => Store.audit?_putFinding _ _ id) rfl rfl rfl rfl
  | drops disk found =>
    exact sound.quiet (by simp) (by simp) (by simp) ⟨rfl, Nat.le_refl _, rfl⟩
      (fun id => Store.audit?_dropFinding _ _ id) rfl rfl rfl rfl

/-- A scan that writes an audit that is not lost does so inside the interval of its request. -/
lemma Sound.holder (sound : Sound hs t) {n : Nat} {auditId : String} {c : Call}
    {next : c.Reply → Program (Except StoreError (Option AuditRecord))}
    (live : ⟨n, auditId, .call c next⟩ ∈ t.live) (writes : c.WritesTo auditId)
    (unlost : ¬ Lost t auditId) : ∃ k, Admitted hs auditId k n ∧ Open hs auditId k := by
  obtain lost | ⟨k, base, begun, admitted⟩ := (sound.regular auditId).owned _ live rfl
  · exact absurd lost unlost
  · have course := (sound.regular auditId).course k n base begun admitted
    have allowed := (course.program sound.tidy live).1
    have running : (progress base n hs).audit.isRunning = true := by
      cases c with
      | updateAudit id changes => exact allowed.2.1
      | createFinding id draft => exact allowed.2.1
      | _ => exact writes.elim
    exact ⟨k, admitted, course.isOpen sound.tidy begun admitted running⟩

section Scans

variable {before after : List LiveScan} {n : Nat} {auditId : String} {c : Call}
variable {next : c.Reply → Program (Except StoreError (Option AuditRecord))}

/-- A call of a scan leaves an audit, or it changes the audit inside the interval of its request. -/
lemma Sound.scan_audit (sound : Sound hs t) (live : ⟨n, auditId, .call c next⟩ ∈ t.live)
    (saved : Exchange.Saved ⟨c, (t.world.perform c).1⟩) (b : String) :
    (t.world.perform c).2.ledger.store.audit? b = t.audit? b ∨
    b = auditId ∧ t.audit? b ≠ none ∧ ∃ k, Admitted hs b k n ∧ Open hs b k := by
  have stays := (sound.tidy.live _ live).2.1
  obtain ⟨-, same⟩ | ⟨id, changes, audit, found, exchange, effect⟩ := World.perform_audits saved
  · exact .inl (same b)
  · obtain rfl : c = .updateAudit id changes := congrArg Exchange.call exchange
    obtain rfl : id = auditId := stays
    by_cases changed : b = id
    · subst changed
      have present : t.audit? b ≠ none := by
        rw [Traffic.audit?, found]
        exact Option.some_ne_none _
      exact .inr ⟨rfl, present, sound.holder live rfl (not_lost found)⟩
    · exact .inl ((effect b).trans (if_neg changed))

/-- After a call, ids that are not drawn yet are still unused. -/
lemma Tidy.unused_after (tidy : Tidy hs t) (saved : Exchange.Saved ⟨c, (t.world.perform c).1⟩)
    (later : Later t t') (world : t'.world = (t.world.perform c).2) (m : Nat)
    (fresh : t'.world.ledger.drawn < m) : t'.audit? (t'.world.ledger.ids m) = none := by
  have unused := tidy.unused m (Nat.lt_of_le_of_lt later.drawn fresh)
  rw [later.ids, Traffic.audit?, world]
  obtain ⟨-, same⟩ | ⟨id, changes, audit, found, -, effect⟩ := World.perform_audits saved
  · rw [same]
    exact unused
  · -- A call changes only audits that are there, so it makes none under such an id.
    rw [effect, if_neg, ← Traffic.audit?, unused]
    intro same
    rw [Traffic.audit?, same, found] at unused
    cases unused

/-- After a call of a scan, numbers and serials are as before. -/
lemma Tidy.scans (tidy : Tidy hs t) (live : t.live = before ++ ⟨n, auditId, .call c next⟩ :: after)
    (saved : Exchange.Saved ⟨c, (t.world.perform c).1⟩) (later : Later t t')
    (asked : t'.asked = t.asked) (world : t'.world = (t.world.perform c).2)
    (live' : t'.live = before ++ ⟨n, auditId, next (t.world.perform c).1⟩ :: after) :
    Tidy (hs ++ [.scanned n ⟨c, (t.world.perform c).1⟩]) t' := by
  have member : ⟨n, auditId, .call c next⟩ ∈ t.live := by simp [live]
  obtain ⟨⟨k, admitted⟩, stays, goes⟩ := tidy.live _ member
  refine tidy.rests later (tidy.unused_after saved later world) (Nat.le_of_eq asked.symm) ?_ (by simp)
    ?_ (by simp) (by simp) ?_ ?_
  · rw [world]
    refine World.perform_jobs fun id submits => ?_
    subst submits
    exact stays
  · rintro m e same
    obtain ⟨rfl, -⟩ : n = m ∧ _ = e := by simpa using same
    exact tidy.admitted auditId k n admitted
  · intro scan memberScan
    rw [live'] at memberScan
    refine ⟨live ▸ live_before memberScan, ?_⟩
    obtain earlier | rfl | later : scan ∈ before ∨ scan = ⟨n, auditId, next (t.world.perform c).1⟩ ∨
        scan ∈ after := by simpa using memberScan
    · exact (tidy.live scan (by simp [live, earlier])).2
    · exact goes _ trivial
    · exact (tidy.live scan (by simp [live, later])).2
  · have same : t'.live.map (·.number) = t.live.map (·.number) := by simp [live, live']
    rw [same]
    exact tidy.distinct

/-- After a call of a scan, every audit is regular. -/
lemma Sound.scan_regular (sound : Sound hs t)
    (live : t.live = before ++ ⟨n, auditId, .call c next⟩ :: after)
    (saved : Exchange.Saved ⟨c, (t.world.perform c).1⟩) (later : Later t t')
    (world : t'.world = (t.world.perform c).2)
    (live' : t'.live = before ++ ⟨n, auditId, next (t.world.perform c).1⟩ :: after) (b : String) :
    Regular (hs ++ [.scanned n ⟨c, (t.world.perform c).1⟩]) t' b := by
  have member : ⟨n, auditId, .call c next⟩ ∈ t.live := by simp [live]
  obtain ⟨⟨k, admitted⟩, stays, -⟩ := sound.tidy.live _ member
  have audits (b) : t'.audit? b = (t.world.perform c).2.ledger.store.audit? b := by
    rw [Traffic.audit?, world]
  have apart (other : ∀ k m base, Begun hs b k base → Admitted hs b k m → n ≠ m)
      (audit : t'.audit? b = t.audit? b) :
      Regular (hs ++ [.scanned n ⟨c, (t.world.perform c).1⟩]) t' b := by
    refine (sound.regular b).apart ⟨later, audit, by simp, by simp, by simp, ?_, ?_, ?_⟩
    · intro k m base begun admitted e
      simp [other k m base begun admitted]
    · intro k m base program begun admitted old
      have := other k m base begun admitted
      simpa [live, live', this.symm] using old
    · intro scan memberScan of
      obtain ⟨old, oldLive, sameAudit, sameNumber⟩ := live_before (live' ▸ memberScan)
      exact .inr ⟨old, live ▸ oldLive, sameAudit.trans of, sameNumber⟩
  -- Either the scan was taken for a request that marked this very audit, or it has nothing to do with it.
  by_cases holder : ∃ k base, Begun hs b k base ∧ Admitted hs b k n
  · obtain ⟨k, base, begun, admitted'⟩ := holder
    obtain rfl : b = auditId := (sound.tidy.one _ _ _ _ _ admitted' admitted).1
    by_cases update : ∃ id changes, c = .updateAudit id changes
    · obtain ⟨id, changes, rfl⟩ := update
      obtain rfl : id = b := stays
      refine (sound.regular id).writes sound.tidy begun admitted' live saved later live' ?_
      intro audit found
      obtain ⟨missing, -⟩ | ⟨audit', disk, found', does⟩ := World.perform_updateAudit saved
      · rw [Traffic.audit?, missing] at found
        cases found
      · obtain rfl : audit' = audit := by
          rw [Traffic.audit?, found'] at found
          exact Option.some.inj found
        rw [audits, does]
        simp [Store.id_of_audit? found']
    · have other : ∀ id changes, c ≠ .updateAudit id changes := fun id changes same =>
        update ⟨id, changes, same⟩
      refine (sound.regular b).reads sound.tidy live saved later live' other ?_
      obtain ⟨-, same⟩ | ⟨id, changes, _, -, exchange, -⟩ := World.perform_audits saved
      · rw [audits, same]
        rfl
      · exact absurd (congrArg Exchange.call exchange) (other id changes)
  · have unheld {k m base} (begun : Begun hs b k base) (admitted : Admitted hs b k m) : n ≠ m := by
      rintro rfl
      exact holder ⟨k, base, begun, admitted⟩
    refine apart (fun _ _ _ => unheld) ?_
    obtain same | ⟨-, -, k, admitted', ⟨base, begun⟩, -⟩ := sound.scan_audit member saved b
    · rw [audits, same]
    · exact absurd rfl (unheld begun admitted')

lemma Sound.scans (sound : Sound hs t)
    (live : t.live = before ++ ⟨n, auditId, .call c next⟩ :: after)
    (saved : Exchange.Saved ⟨c, (t.world.perform c).1⟩) :
    Sound (hs ++ [.scanned n ⟨c, (t.world.perform c).1⟩])
      { t with
        world := (t.world.perform c).2
        live := before ++ ⟨n, auditId, next (t.world.perform c).1⟩ :: after } := by
  have member : ⟨n, auditId, .call c next⟩ ∈ t.live := by simp [live]
  obtain ⟨ids, drawn⟩ := World.perform_ids saved
  have later : Later t { t with
      world := (t.world.perform c).2
      live := before ++ ⟨n, auditId, next (t.world.perform c).1⟩ :: after } := ⟨ids, drawn, rfl⟩
  refine ⟨sound.tidy.scans live saved later rfl rfl rfl,
    sound.scan_regular live saved later rfl rfl, ?_⟩
  intro s current
  obtain ⟨phase, served⟩ := sound.served s current
  refine ⟨phase, served.rests (by simp) (Nat.le_refl _) ?_ ?_ ?_⟩
  · intro lost
    refine lost.later later ?_
    obtain same | ⟨-, present, -⟩ := sound.scan_audit member saved s.auditId
    · exact same.trans lost.1
    · exact absurd lost.1 present
  · intro waits base begun marked
    obtain same | ⟨-, -, k, admitted, isOpen⟩ := sound.scan_audit member saved s.auditId
    · exact same.trans marked
    · -- An audit that the request has marked is running for this request, for which no scan was taken yet.
      have opened : Open hs s.auditId s.serial :=
        ⟨⟨base, begun⟩, served.kept waits, fun m a => absurd a (served.untaken waits _ m)⟩
      obtain rfl := (sound.regular s.auditId).unique isOpen opened
      exact absurd admitted (served.untaken waits _ n)
  · rintro _ (⟨audit, found, idle⟩ | lost)
    · obtain same | ⟨-, -, k, -, isOpen⟩ := sound.scan_audit member saved s.auditId
      · exact .inl ⟨audit, same.trans found, idle⟩
      · exact absurd isOpen ((sound.regular s.auditId).closed found idle)
    · refine .inr (lost.later later ?_)
      obtain same | ⟨-, present, -⟩ := sound.scan_audit member saved s.auditId
      · exact same.trans lost.1
      · exact absurd lost.1 present

end Scans

lemma Sound.ends (sound : Sound hs t) {before after : List LiveScan} {n : Nat} {auditId : String}
    {result : Except StoreError (Option AuditRecord)}
    (live : t.live = before ++ ⟨n, auditId, .done result⟩ :: after) :
    Sound (hs ++ [.ended n result])
      { t with
        world := { t.world with executor := t.world.executor.finish n }
        live := before ++ after } := by
  have member : ⟨n, auditId, .done result⟩ ∈ t.live := by simp [live]
  obtain ⟨⟨k, admitted⟩, -⟩ := sound.tidy.live _ member
  have distinct := sound.tidy.distinct
  rw [live, List.map_append, List.map_cons, List.nodup_middle, ← List.map_append] at distinct
  have fewer : (before ++ after).Sublist t.live := by
    rw [live]
    exact (List.sublist_cons_self _ _).append_left before
  refine ⟨sound.tidy.rests ⟨rfl, Nat.le_refl _, rfl⟩ sound.tidy.unused (Nat.le_refl _) ?_ (by simp)
    (by simp) ?_ (by simp) ?_ ?_, fun b => (sound.regular b).ends sound.tidy ⟨rfl, Nat.le_refl _, rfl⟩
      live rfl rfl, ?_⟩
  · simp [Executor.finish, Executor.changeJob]
  · rintro m result' same
    obtain ⟨rfl, -⟩ : n = m ∧ result = result' := by simpa using same
    refine ⟨sound.tidy.admitted auditId k n admitted, ?_⟩
    intro scan memberScan same
    exact (List.nodup_cons.mp distinct).1 (List.mem_map.mpr ⟨scan, memberScan, same⟩)
  · intro scan memberScan
    exact ⟨⟨scan, fewer.subset memberScan, rfl, rfl⟩, (sound.tidy.live scan (fewer.subset memberScan)).2⟩
  · exact (fewer.map _).nodup sound.tidy.distinct
  · intro s current
    obtain ⟨phase, served⟩ := sound.served s current
    exact ⟨phase, served.rests (by simp) (Nat.le_refl _) id (fun _ _ _ => id) fun _ => id⟩

end Steps

end RepoAudit.Traffic
