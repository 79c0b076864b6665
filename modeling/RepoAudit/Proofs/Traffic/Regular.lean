import RepoAudit.Proofs.Scan.Calls
import RepoAudit.Proofs.Scan.Conduct
import RepoAudit.Proofs.Traffic.History

/-!
# Regular audits

`Regular` says how an audit and the history belong together: the audit is marked as running just when the
interval of a request is open, this request is the last one that marked the audit, and the scan of every
interval keeps its tenure from the record that the mark left. There is one lemma for each kind of step that
touches the audit, and `Regular.apart` for the others.
-/

namespace RepoAudit.Traffic

/-- The audit was there and will not be again. -/
def Lost (t : Traffic) (auditId : String) : Prop :=
  t.audit? auditId = none ∧ ∀ n, t.world.ledger.drawn < n → t.world.ledger.ids n ≠ auditId

/-- Ids come from the same source, and more may have been drawn. -/
structure Later (t t' : Traffic) : Prop where
  ids : t'.world.ledger.ids = t.world.ledger.ids
  drawn : t.world.ledger.drawn ≤ t'.world.ledger.drawn
  engine : t'.engine = t.engine

lemma Later.refl (t : Traffic) : Later t t := ⟨rfl, Nat.le_refl _, rfl⟩

lemma Lost.later {t t' : Traffic} {auditId : String} (lost : Lost t auditId) (later : Later t t')
    (missing : t'.audit? auditId = none) : Lost t' auditId := by
  refine ⟨missing, fun n drawn => ?_⟩
  rw [later.ids]
  exact lost.2 n (Nat.lt_of_le_of_lt later.drawn drawn)

/-- An audit that is there is not lost. -/
lemma not_lost {t : Traffic} {auditId : String} {audit : AuditRecord} (found : t.audit? auditId = some audit) :
    ¬ Lost t auditId := by
  rintro ⟨missing, -⟩
  cases found.symm.trans missing

/-- How a scan is to end: it does not fail, and it comes to one of its ends. -/
def Ends (engine : Engine) (auditId : String) (base : AuditRecord)
    (result : Except StoreError (Option AuditRecord)) (p : Progress) : Prop :=
  (∃ reading, result = .ok reading) ∧
    Scan.Concluded engine auditId base base.ownerName.display base.repoName.display p

/-- The course of the scan that the executor took for a request. -/
structure Course (hs : List Happening) (t : Traffic) (auditId : String) (k n : Nat)
    (base : AuditRecord) : Prop where
  kept : ¬ Withdrawn hs k
  marked : (progress base n hs).audit.isRunning = true ↔ ¬ Finished hs n
  logged : ∃ entries, (progress base n hs).audit.scanLog = .array entries
  stored : Newest hs auditId k → ∀ audit, t.audit? auditId = some audit →
    audit = (progress base n hs).audit
  goes : (∃ program, ⟨n, auditId, program⟩ ∈ t.live ∧
      program.Keeps (Scan.tenure auditId) (Ends t.engine auditId base) (progress base n hs)) ∨
    ∃ result, .ended n result ∈ hs ∧ Ends t.engine auditId base result (progress base n hs)

/-- How an audit and the history belong together. -/
structure Regular (hs : List Happening) (t : Traffic) (auditId : String) : Prop where
  status : (∃ audit, t.audit? auditId = some audit ∧ audit.isRunning = true) ↔
    ∃ k, Open hs auditId k
  newest : ∀ k, Open hs auditId k → ∀ j base, Begun hs auditId j base → j ≤ k
  course : ∀ k n base, Begun hs auditId k base → Admitted hs auditId k n →
    Course hs t auditId k n base
  cleared : ∀ k, Newest hs auditId k → (∀ n, ¬ Admitted hs auditId k n) →
    ∀ audit, t.audit? auditId = some audit → audit.scanLog = .array []
  gone : ∀ k base, Begun hs auditId k base → t.audit? auditId = none → Lost t auditId
  owned : ∀ scan ∈ t.live, scan.auditId = auditId → Lost t auditId ∨
    ∃ k base, Begun hs auditId k base ∧ Admitted hs auditId k scan.number

/-- Ids are drawn afresh, serials and numbers are given once, and every live scan was taken for a request and
stays with its audit. -/
structure Tidy (hs : List Happening) (t : Traffic) : Prop where
  injective : Function.Injective t.world.ledger.ids
  unused : ∀ n, t.world.ledger.drawn < n → t.audit? (t.world.ledger.ids n) = none
  serials : ∀ k e, .served k e ∈ hs → k < t.asked
  scanned : ∀ n e, .scanned n e ∈ hs → n < t.world.executor.jobs.length
  ended : ∀ n result, .ended n result ∈ hs →
    n < t.world.executor.jobs.length ∧ ∀ scan ∈ t.live, scan.number ≠ n
  admitted : ∀ auditId k n, Admitted hs auditId k n → n < t.world.executor.jobs.length
  one : ∀ a b j k n, Admitted hs a j n → Admitted hs b k n → a = b ∧ j = k
  once : ∀ a b k m n, Admitted hs a k m → Admitted hs b k n → m = n
  live : ∀ scan ∈ t.live, (∃ k, Admitted hs scan.auditId k scan.number) ∧
    scan.program.Keeps (confinement scan.auditId) (fun _ _ => True) ()
  distinct : (t.live.map (·.number)).Nodup

/-- Live scans of one number are one. -/
lemma Tidy.eq_of_number {hs : List Happening} {t : Traffic} (tidy : Tidy hs t) {scan other : LiveScan}
    (live : scan ∈ t.live) (live' : other ∈ t.live) (same : other.number = scan.number) :
    other = scan :=
  List.inj_on_of_nodup_map tidy.distinct live' live same

section Steps

variable {hs : List Happening} {h : Happening} {t t' : Traffic} {auditId : String}

lemma not_running {audit : AuditRecord} (found : t.audit? auditId = some audit)
    (unmarked : audit.isRunning = false) :
    ¬ ∃ other, t.audit? auditId = some other ∧ other.isRunning = true := by
  rintro ⟨other, stored, running⟩
  rw [found, Option.some.injEq] at stored
  rw [← stored, unmarked] at running
  cases running

/-- No interval of an audit is open that is not marked. -/
lemma Regular.closed (regular : Regular hs t auditId) {audit : AuditRecord}
    (found : t.audit? auditId = some audit) (unmarked : audit.isRunning = false) {k : Nat} :
    ¬ Open hs auditId k :=
  fun isOpen => not_running found unmarked (regular.status.mpr ⟨k, isOpen⟩)

/-- Of one audit, at most one interval is open. -/
lemma Regular.unique (regular : Regular hs t auditId) {j k : Nat} (one : Open hs auditId j)
    (other : Open hs auditId k) : j = k := by
  obtain ⟨base, begun⟩ := one.1
  obtain ⟨base', begun'⟩ := other.1
  exact Nat.le_antisymm (regular.newest k other j base begun) (regular.newest j one k base' begun')

/-- The request of an open interval is the newest. -/
lemma Regular.newest_of_open (regular : Regular hs t auditId) {k : Nat}
    (isOpen : Open hs auditId k) : Newest hs auditId k :=
  ⟨isOpen.1, regular.newest k isOpen⟩

/-- An open interval was open before the step unless the step opened it. -/
lemma Open.before {k : Nat} {base : AuditRecord} (isOpen : Open (hs ++ [h]) auditId k)
    (begun : Begun hs auditId k base) : Open hs auditId k := by
  obtain ⟨-, kept, unfinished⟩ := isOpen
  refine ⟨⟨base, begun⟩, fun withdrawn => kept withdrawn.later, fun n admitted finished => ?_⟩
  obtain ⟨e, happened, completes⟩ := finished
  exact unfinished n admitted.later ⟨e, by simp [happened], completes⟩

/-- The course of a scan that makes no step. -/
lemma Course.rests {k n : Nat} {base : AuditRecord} (course : Course hs t auditId k n base)
    (kept : ¬ Withdrawn (hs ++ [h]) k) (others : ∀ e, h ≠ .scanned n e) (engine : t'.engine = t.engine)
    (stays : ∀ program, ⟨n, auditId, program⟩ ∈ t.live → ⟨n, auditId, program⟩ ∈ t'.live)
    (stored : Newest (hs ++ [h]) auditId k → ∀ audit, t'.audit? auditId = some audit →
      audit = (progress base n hs).audit) : Course (hs ++ [h]) t' auditId k n base := by
  have same : progress base n (hs ++ [h]) = progress base n hs := progress_concat_other others
  refine ⟨kept, ?_, same ▸ course.logged, by rwa [same], ?_⟩
  · rw [same, course.marked, finished_concat_other others]
  · rw [same, engine]
    obtain ⟨program, live, keeps⟩ | ⟨result, ended, ends⟩ := course.goes
    · exact .inl ⟨program, stays program live, keeps⟩
    · exact .inr ⟨result, List.mem_append_left _ ended, ends⟩

/-- A scan that was live belonged to a request before the step, and it still does. -/
lemma Regular.owned_later (regular : Regular hs t auditId) {scan other : LiveScan} (live : other ∈ t.live)
    (of : other.auditId = auditId) (same : other.number = scan.number) (lost : Lost t auditId → Lost t' auditId) :
    Lost t' auditId ∨ ∃ k base, Begun (hs ++ [h]) auditId k base ∧ Admitted (hs ++ [h]) auditId k scan.number := by
  obtain gone | ⟨k, base, begun, admitted⟩ := regular.owned other live of
  · exact .inl (lost gone)
  · exact .inr ⟨k, base, begun.later, same ▸ admitted.later⟩

/-- A step that opens and closes no interval of the audit and leaves its record keeps it regular, as far as the
courses of its scans go on. -/
lemma Regular.carried (regular : Regular hs t auditId) (later : Later t t')
    (audit : t'.audit? auditId = t.audit? auditId)
    (begun : ∀ {k base}, Begun (hs ++ [h]) auditId k base ↔ Begun hs auditId k base)
    (admitted : ∀ {k n base}, Begun hs auditId k base → (Admitted (hs ++ [h]) auditId k n ↔ Admitted hs auditId k n))
    (opened : ∀ {k}, Open (hs ++ [h]) auditId k ↔ Open hs auditId k)
    (course : ∀ {k n base}, Begun hs auditId k base → Admitted hs auditId k n → Course hs t auditId k n base →
      Course (hs ++ [h]) t' auditId k n base)
    (live : ∀ scan ∈ t'.live, scan.auditId = auditId → Lost t auditId ∨ ∃ other ∈ t.live,
      other.auditId = auditId ∧ other.number = scan.number) :
    Regular (hs ++ [h]) t' auditId := by
  have lost (lost : Lost t auditId) : Lost t' auditId := lost.later later (audit.trans lost.1)
  refine ⟨?_, ?_, ?_, ?_, ?_, ?_⟩
  · simpa [audit, opened] using regular.status
  · simpa [opened, begun] using regular.newest
  · intro k n base b a
    have b := begun.mp b
    have a := (admitted b).mp a
    exact course b a (regular.course k n base b a)
  · intro k newest unadmitted
    have newest : Newest hs auditId k := by simpa [Newest, begun] using newest
    obtain ⟨base, b⟩ := newest.1
    rw [audit]
    exact regular.cleared k newest fun n a => unadmitted n ((admitted b).mpr a)
  · intro k base b missing
    exact lost (regular.gone k base (begun.mp b) (audit ▸ missing))
  · intro scan member of
    obtain gone | ⟨other, member', ofOther, same⟩ := live scan member of
    · exact .inl (lost gone)
    · exact regular.owned_later member' ofOther same lost

/-- A step that has nothing to do with the audit. -/
structure Apart (hs : List Happening) (h : Happening) (t t' : Traffic) (auditId : String) : Prop where
  later : Later t t'
  audit : t'.audit? auditId = t.audit? auditId
  begun : ∀ k base, h ≠ .served k ⟨.updateAudit auditId Scan.beginning, .ok (some base)⟩
  admitted : ∀ k n base, Begun hs auditId k base → h ≠ .served k ⟨.submit auditId, some n⟩
  withdrawn : ∀ k base, Begun hs auditId k base → ∀ b now reply,
    h ≠ .served k ⟨.updateAudit b (Scan.refusal now), reply⟩
  scanned : ∀ k n base, Begun hs auditId k base → Admitted hs auditId k n → ∀ e, h ≠ .scanned n e
  stays : ∀ k n base program, Begun hs auditId k base → Admitted hs auditId k n →
    ⟨n, auditId, program⟩ ∈ t.live → ⟨n, auditId, program⟩ ∈ t'.live
  live : ∀ scan ∈ t'.live, scan.auditId = auditId → Lost t auditId ∨ ∃ other ∈ t.live,
    other.auditId = auditId ∧ other.number = scan.number

/-- A step that has nothing to do with an audit leaves it regular. -/
lemma Regular.apart (regular : Regular hs t auditId) (apart : Apart hs h t t' auditId) :
    Regular (hs ++ [h]) t' auditId := by
  have begun {k base} : Begun (hs ++ [h]) auditId k base ↔ Begun hs auditId k base := by
    simp [begun_concat, apart.begun]
  have admitted {k n base} (b : Begun hs auditId k base) :
      Admitted (hs ++ [h]) auditId k n ↔ Admitted hs auditId k n := by
    simp [admitted_concat, apart.admitted k n base b]
  have withdrawn {k base} (b : Begun hs auditId k base) : Withdrawn (hs ++ [h]) k ↔ Withdrawn hs k := by
    simp [withdrawn_concat, apart.withdrawn k base b]
  have finished {k n base} (b : Begun hs auditId k base) (a : Admitted hs auditId k n) :
      Finished (hs ++ [h]) n ↔ Finished hs n :=
    finished_concat_other (apart.scanned k n base b a)
  have opened {k} : Open (hs ++ [h]) auditId k ↔ Open hs auditId k := by
    constructor
    · rintro isOpen
      obtain ⟨base, b⟩ := isOpen.1
      exact isOpen.before (begun.mp b)
    · rintro ⟨⟨base, b⟩, kept, unfinished⟩
      refine ⟨⟨base, begun.mpr b⟩, (withdrawn b).not.mpr kept, fun n a => ?_⟩
      exact (finished b ((admitted b).mp a)).not.mpr (unfinished n ((admitted b).mp a))
  have newest {k} : Newest (hs ++ [h]) auditId k ↔ Newest hs auditId k := by simp [Newest, begun]
  refine regular.carried apart.later apart.audit begun admitted opened (fun {k n base} b a course => ?_) apart.live
  refine course.rests ((withdrawn b).not.mpr course.kept) (apart.scanned k n base b a)
    apart.later.engine (fun program => apart.stays k n base program b a) ?_
  rw [newest, apart.audit]
  exact course.stored

/-- What marks an audit does not take a mark back. -/
lemma beginning_ne_refusal (now : Instant) : Scan.beginning ≠ Scan.refusal now := by
  simp [Scan.beginning, Scan.refusal]

/-- A new audit is regular: nothing has happened to it, and it is not marked. -/
lemma Regular.created (regular : Regular hs t auditId) {audit : AuditRecord}
    (missing : t.audit? auditId = none) (unlost : ¬ Lost t auditId) (live : t'.live = t.live)
    (found : t'.audit? auditId = some audit) (unmarked : audit.isRunning = false)
    (reads : ∀ k e, h ≠ .served k e) : Regular (hs ++ [h]) t' auditId := by
  -- Ids are drawn afresh: had a request marked an audit of this id, the audit would be lost.
  have unbegun {k base} : ¬ Begun (hs ++ [h]) auditId k base := by
    rw [begun_concat]
    rintro (begun | happened)
    · exact unlost (regular.gone k base begun missing)
    · exact reads _ _ happened
  have closed {k} : ¬ Open (hs ++ [h]) auditId k := fun isOpen => unbegun isOpen.1.choose_spec
  refine ⟨?_, fun k isOpen => absurd isOpen closed, fun k n base begun => absurd begun unbegun,
    fun k newest => absurd newest.1.choose_spec unbegun, fun k base begun => absurd begun unbegun, ?_⟩
  · exact iff_of_false (not_running found unmarked) fun ⟨k, isOpen⟩ => closed isOpen
  · intro scan member of
    rw [live] at member
    obtain lost | ⟨k, base, begun, -⟩ := regular.owned scan member of
    · exact absurd lost unlost
    · exact absurd begun.later unbegun

/-- An audit that is not marked may be deleted. -/
lemma Regular.deleted (regular : Regular hs t auditId) {audit : AuditRecord} (later : Later t t')
    (found : t.audit? auditId = some audit) (unmarked : audit.isRunning = false)
    (used : ∀ n, t.world.ledger.drawn < n → t.world.ledger.ids n ≠ auditId)
    (live : t'.live = t.live) (missing : t'.audit? auditId = none) (reads : ∀ k e, h ≠ .served k e)
    (others : ∀ n e, h ≠ .scanned n e) : Regular (hs ++ [h]) t' auditId := by
  have lost : Lost t' auditId := by
    refine ⟨missing, fun n drawn => ?_⟩
    rw [later.ids]
    exact used n (Nat.lt_of_le_of_lt later.drawn drawn)
  have begun {k base} : Begun (hs ++ [h]) auditId k base ↔ Begun hs auditId k base := by
    simp [begun_concat, reads]
  have admitted {k n} : Admitted (hs ++ [h]) auditId k n ↔ Admitted hs auditId k n := by
    simp [admitted_concat, reads]
  have closed {k} : ¬ Open (hs ++ [h]) auditId k := by
    intro isOpen
    obtain ⟨base, b⟩ := isOpen.1
    exact regular.closed found unmarked (isOpen.before (begun.mp b))
  refine ⟨iff_of_false ?_ fun ⟨k, isOpen⟩ => closed isOpen, fun k isOpen => absurd isOpen closed, ?_,
    ?_, fun _ _ _ _ => lost, fun _ _ _ => .inl lost⟩
  · rintro ⟨other, stored, -⟩
    rw [missing] at stored
    cases stored
  · intro k n base b a
    have course := regular.course k n base (begun.mp b) (admitted.mp a)
    refine course.rests (by simpa [withdrawn_concat, reads] using course.kept) (others n) later.engine
      (by simp [live]) ?_
    intro _ stored present
    rw [missing] at present
    cases present
  · intro k _ _ stored present
    rw [missing] at present
    cases present

/-- A request marks an audit that is not marked. -/
lemma Regular.begins (regular : Regular hs t auditId) {k : Nat} {audit base : AuditRecord}
    (engine : t'.engine = t.engine) (live : t'.live = t.live)
    (last : ∀ j e, .served j e ∈ hs → j ≤ k) (unbegun : ∀ base, ¬ Begun hs auditId k base)
    (unadmitted : ∀ n, ¬ Admitted hs auditId k n) (kept : ¬ Withdrawn hs k)
    (unmarked : t.audit? auditId = some audit ∧ audit.isRunning = false)
    (marked : t'.audit? auditId = some base ∧ base.isRunning = true)
    (cleared : base.scanLog = .array [])
    (happened : h = .served k ⟨.updateAudit auditId Scan.beginning, .ok (some base)⟩) :
    Regular (hs ++ [h]) t' auditId := by
  have begun {j base'} : Begun (hs ++ [h]) auditId j base' ↔ Begun hs auditId j base' ∨ k = j ∧ base = base' := by
    simp [begun_concat, happened]
  have admitted {j n} : Admitted (hs ++ [h]) auditId j n ↔ Admitted hs auditId j n := by
    simp [admitted_concat, happened]
  have withdrawn {j} : Withdrawn (hs ++ [h]) j ↔ Withdrawn hs j := by
    simp [withdrawn_concat, happened, beginning_ne_refusal]
  have opened {j} (isOpen : Open (hs ++ [h]) auditId j) : j = k := by
    obtain ⟨base', b⟩ := isOpen.1
    obtain before | ⟨same, -⟩ := begun.mp b
    · exact absurd (isOpen.before before) (regular.closed unmarked.1 unmarked.2)
    · exact same.symm
  have latest {j base'} (b : Begun (hs ++ [h]) auditId j base') : j ≤ k := by
    obtain before | ⟨same, -⟩ := begun.mp b
    · exact last j _ before
    · exact Nat.le_of_eq same.symm
  refine ⟨iff_of_true ⟨base, marked⟩ ⟨k, ⟨base, begun.mpr (.inr ⟨rfl, rfl⟩)⟩, withdrawn.not.mpr kept,
    fun n a => absurd (admitted.mp a) (unadmitted n)⟩, ?_, ?_, ?_, ?_, ?_⟩
  · intro j isOpen i base' b
    rw [opened isOpen]
    exact latest b
  · intro j n base' b a
    have before : Begun hs auditId j base' := by
      refine (begun.mp b).resolve_right fun same => ?_
      exact unadmitted n (same.1 ▸ admitted.mp a)
    refine (regular.course j n base' before (admitted.mp a)).rests
      (withdrawn.not.mpr (regular.course j n base' before (admitted.mp a)).kept) (by simp [happened]) engine
      (by simp [live]) fun newest => ?_
    -- The request that marks the audit is newer, so no older scan has to account for the audit.
    have same : j = k := Nat.le_antisymm (latest b) (newest.2 k base (begun.mpr (.inr ⟨rfl, rfl⟩)))
    exact absurd before (same ▸ unbegun base')
  · intro j _ _ stored found
    rw [marked.1, Option.some.injEq] at found
    rw [← found, cleared]
  · intro j base' _ missing
    rw [marked.1] at missing
    cases missing
  · intro scan member of
    exact regular.owned_later (live ▸ member) of rfl fun lost => absurd lost (not_lost unmarked.1)

/-- The course of a scan that was just taken: it has called nothing, so it stands as the mark left its audit. -/
lemma course_taken {k n : Nat} {base : AuditRecord} (kept : ¬ Withdrawn hs k) (unheard : exchangesOf n hs = [])
    (marked : t.audit? auditId = some base ∧ base.isRunning = true) (cleared : base.scanLog = .array [])
    (live : ⟨n, auditId, Scan.run t.engine auditId⟩ ∈ t.live) : Course hs t auditId k n base := by
  have stands : progress base n hs = Scan.standing base {} [] [] := by
    rw [progress, unheard, Scan.standing, Json.ofList, List.map_nil, ← cleared]
    rfl
  refine ⟨kept, ?_, ⟨[], by rw [stands]; rfl⟩, ?_, .inl ⟨_, live, ?_⟩⟩
  · rw [stands]
    exact iff_of_true marked.2 (by simp [Finished, unheard])
  · intro _ stored found
    rw [marked.1, Option.some.injEq] at found
    rw [stands, ← found, Scan.standing, Json.ofList, List.map_nil, ← cleared]
  · rw [stands]
    exact Scan.keeps_run marked.2

/-- The executor takes the scan of a request that marked the audit. -/
lemma Regular.admits (regular : Regular hs t auditId) {k n : Nat} {base : AuditRecord}
    (audit : t'.audit? auditId = t.audit? auditId) (later : Later t t')
    (begun : ∀ base', Begun hs auditId k base' ↔ base' = base) (kept : ¬ Withdrawn hs k)
    (marked : t.audit? auditId = some base ∧ base.isRunning = true)
    (cleared : base.scanLog = .array [])
    (fresh : ∀ e, .scanned n e ∉ hs)
    (live : t'.live = t.live ++ [⟨n, auditId, Scan.run t.engine auditId⟩])
    (happened : h = .served k ⟨.submit auditId, some n⟩) : Regular (hs ++ [h]) t' auditId := by
  have begun' {j base'} : Begun (hs ++ [h]) auditId j base' ↔
      Begun hs auditId j base' := by
    simp [begun_concat, happened]
  have admitted {j m} : Admitted (hs ++ [h]) auditId j m ↔
      Admitted hs auditId j m ∨ k = j ∧ n = m := by
    simp [admitted_concat, happened]
  have withdrawn {j} : Withdrawn (hs ++ [h]) j ↔ Withdrawn hs j := by
    simp [withdrawn_concat, happened]
  have finished {m} : Finished (hs ++ [h]) m ↔ Finished hs m :=
    finished_concat_other (by simp [happened])
  have unheard : exchangesOf n hs = [] := by
    rw [List.eq_nil_iff_forall_not_mem]
    exact fun e heard => fresh e (mem_exchangesOf.mp heard)
  have unfinished : ¬ Finished hs n := by simp [Finished, unheard]
  have opened {j} : Open (hs ++ [h]) auditId j ↔
      Open hs auditId j := by
    constructor
    · intro isOpen
      obtain ⟨base', b⟩ := isOpen.1
      exact isOpen.before (begun'.mp b)
    · rintro ⟨⟨base', b⟩, kept, open'⟩
      refine ⟨⟨base', begun'.mpr b⟩, withdrawn.not.mpr kept, fun m a => finished.not.mpr ?_⟩
      obtain a | ⟨-, rfl⟩ := admitted.mp a
      · exact open' m a
      · exact unfinished
  have newest {j} : Newest (hs ++ [h]) auditId j ↔
      Newest hs auditId j := by
    simp [Newest, begun']
  have lost (lost : Lost t auditId) : Lost t' auditId := lost.later later (audit.trans lost.1)
  refine ⟨?_, ?_, ?_, ?_, ?_, ?_⟩
  · simpa [audit, opened] using regular.status
  · simpa [opened, begun'] using regular.newest
  · intro j m base' b a
    obtain a | ⟨rfl, rfl⟩ := admitted.mp a
    · have course := regular.course j m base' (begun'.mp b) a
      refine course.rests (withdrawn.not.mpr course.kept) (by simp [happened]) later.engine
        (fun program member => by rw [live]; exact List.mem_append_left _ member) ?_
      rw [newest, audit]
      exact course.stored
    · obtain rfl := (begun base').mp (begun'.mp b)
      refine course_taken (withdrawn.not.mpr kept) ?_ ⟨audit.trans marked.1, marked.2⟩ cleared ?_
      · rw [exchangesOf_append, unheard, exchangesOf_other (by simp [happened]), List.append_nil]
      · rw [live, later.engine]
        exact List.mem_append_right _ List.mem_cons_self
  · intro j newestJ unadmittedJ
    rw [audit]
    refine regular.cleared j (newest.mp newestJ) fun m a => unadmittedJ m (admitted.mpr (.inl a))
  · intro j base' b missing
    exact lost (regular.gone j base' (begun'.mp b) (audit ▸ missing))
  · intro scan member of
    rw [live] at member
    obtain member | last := List.mem_append.mp member
    · exact regular.owned_later member of rfl lost
    · obtain rfl := List.mem_singleton.mp last
      exact .inr ⟨k, base, begun'.mpr ((begun base).mpr rfl), admitted.mpr (.inr ⟨rfl, rfl⟩)⟩

/-- A request takes the mark back that it set. -/
lemma Regular.withdraws (regular : Regular hs t auditId) {k : Nat} {base final : AuditRecord}
    {now : Instant} {reply : Except StoreError (Option AuditRecord)}
    (engine : t'.engine = t.engine) (live : t'.live = t.live)
    (last : ∀ j e, .served j e ∈ hs → j ≤ k) (begun : Begun hs auditId k base)
    (unadmitted : ∀ n, ¬ Admitted hs auditId k n) (kept : ¬ Withdrawn hs k)
    (marked : t.audit? auditId = some base)
    (unmarked : t'.audit? auditId = some final ∧ final.isRunning = false)
    (cleared : final.scanLog = .array [])
    (happened : h = .served k ⟨.updateAudit auditId (Scan.refusal now), reply⟩) :
    Regular (hs ++ [h]) t' auditId := by
  have begun' {j base'} : Begun (hs ++ [h])
      auditId j base' ↔ Begun hs auditId j base' := by
    simp [begun_concat, happened, (beginning_ne_refusal now).symm]
  have admitted {j m} : Admitted (hs ++ [h])
      auditId j m ↔ Admitted hs auditId j m := by
    simp [admitted_concat, happened]
  have isOpen : Open hs auditId k := ⟨⟨base, begun⟩, kept, fun n a => absurd a (unadmitted n)⟩
  have closed {j} : ¬ Open (hs ++ [h])
      auditId j := by
    intro isOpen'
    obtain ⟨base', b⟩ := isOpen'.1
    obtain rfl := regular.unique isOpen (isOpen'.before (begun'.mp b))
    exact isOpen'.2.1 (withdrawn_concat.mpr (.inr ⟨auditId, now, reply, happened⟩))
  refine ⟨iff_of_false (not_running unmarked.1 unmarked.2) fun ⟨j, isOpen'⟩ => closed isOpen',
    fun j isOpen' => absurd isOpen' closed, ?_, ?_, ?_, ?_⟩
  · intro j n base' b a
    have course := regular.course j n base' (begun'.mp b) (admitted.mp a)
    have other : j ≠ k := fun same => unadmitted n (same ▸ admitted.mp a)
    refine course.rests ?_ (by simp [happened]) engine (by simp [live]) fun newest => ?_
    · -- A scan was taken for the other request, so it is not the one that is refused.
      rw [withdrawn_concat, happened]
      rintro (withdrawn | ⟨_, _, _, same⟩)
      · exact course.kept withdrawn
      · simp only [Happening.served.injEq] at same
        exact other same.1.symm
    · have := newest.2 k base (begun'.mpr begun)
      exact absurd (Nat.le_antisymm (last j _ (begun'.mp b)) this) other
  · intro j _ _ stored found
    rw [unmarked.1, Option.some.injEq] at found
    rw [← found, cleared]
  · intro j base' _ missing
    rw [unmarked.1] at missing
    cases missing
  · intro scan member of
    exact regular.owned_later (live ▸ member) of rfl fun lost => absurd lost (not_lost marked)

section Holder

variable {k n : Nat} {base : AuditRecord}

/-- While the audit of a scan is marked, the interval of its request is open. -/
lemma Course.isOpen (course : Course hs t auditId k n base) (tidy : Tidy hs t)
    (begun : Begun hs auditId k base) (admitted : Admitted hs auditId k n)
    (running : (progress base n hs).audit.isRunning = true) : Open hs auditId k := by
  refine ⟨⟨base, begun⟩, course.kept, fun m admitted' => ?_⟩
  rw [tidy.once _ _ k m n admitted' admitted]
  exact course.marked.mp running

/-- While the audit of a scan is marked, it stands as the scan thinks it does. -/
lemma Course.holds (course : Course hs t auditId k n base) (tidy : Tidy hs t)
    (regular : Regular hs t auditId) (begun : Begun hs auditId k base)
    (admitted : Admitted hs auditId k n)
    (running : (progress base n hs).audit.isRunning = true) :
    t.audit? auditId = some (progress base n hs).audit := by
  have isOpen := course.isOpen tidy begun admitted running
  obtain ⟨audit, found, -⟩ := regular.status.mpr ⟨k, isOpen⟩
  rw [found, course.stored (regular.newest_of_open isOpen) audit found]

variable {before after : List LiveScan} {c : Call}
variable {next : c.Reply → Program (Except StoreError (Option AuditRecord))}

/-- A live scan goes on with its own program. -/
lemma Course.program (course : Course hs t auditId k n base) (tidy : Tidy hs t)
    {program : Program (Except StoreError (Option AuditRecord))}
    (live : ⟨n, auditId, program⟩ ∈ t.live) :
    program.Keeps (Scan.tenure auditId) (Ends t.engine auditId base) (progress base n hs) := by
  obtain ⟨other, live', keeps⟩ | ⟨result, ended, -⟩ := course.goes
  · have same := tidy.eq_of_number live live' rfl
    rw [LiveScan.mk.injEq] at same
    rw [← same.2.2]
    exact keeps
  · exact absurd rfl ((tidy.ended n result ended).2 _ live)

/-- Whatever a scan calls that it may call, its log is only added to. -/
lemma tenure_grows {p : Progress} {e : Exchange} (allowed : Scan.tenureAllows auditId p e.call)
    (logged : ∃ entries, p.audit.scanLog = .array entries) :
    Scan.Grows p.audit.scanLog (p.next e).audit.scanLog := by
  rcases e with ⟨c, reply⟩
  by_cases update : ∃ id changes, c = .updateAudit id changes
  · obtain ⟨id, changes, rfl⟩ := update
    exact allowed.2.2.1
  · obtain ⟨entries, log⟩ := logged
    rw [Progress.next_audit fun id changes same => update ⟨id, changes, same⟩]
    exact ⟨entries, [], log, by rw [log, List.append_nil]⟩

/-- The course of a scan that makes a call. -/
lemma Course.moves (course : Course hs t auditId k n base) (tidy : Tidy hs t)
    (regular : Regular hs t auditId) (begun : Begun hs auditId k base)
    (admitted : Admitted hs auditId k n) (live : ⟨n, auditId, .call c next⟩ ∈ t.live)
    (saved : Exchange.Saved ⟨c, (t.world.perform c).1⟩) (engine : t'.engine = t.engine)
    (live' : ⟨n, auditId, next (t.world.perform c).1⟩ ∈ t'.live)
    (stored : Newest hs auditId k → ∀ audit, t'.audit? auditId = some audit →
      audit = ((progress base n hs).next ⟨c, (t.world.perform c).1⟩).audit) :
    Course (hs ++ [.scanned n ⟨c, (t.world.perform c).1⟩]) t' auditId k n base := by
  obtain ⟨allowed, goes⟩ := course.program tidy live
  have replies := World.perform_tenure allowed (course.holds tidy regular begun admitted) saved
  refine ⟨by simpa using course.kept, ?_, ?_, ?_, .inl ⟨_, live', ?_⟩⟩
  · rw [progress_concat_scanned, finished_scanned]
    -- Only a change of the audit can take its mark.
    by_cases update : ∃ id changes, c = .updateAudit id changes
    · obtain ⟨id, changes, rfl⟩ := update
      obtain ⟨-, running, -, completes, -⟩ := allowed
      have unfinished := course.marked.mp running
      simpa [Progress.next, completing, unfinished] using not_congr completes
    · have other : ∀ id changes, c ≠ .updateAudit id changes := fun id changes same =>
        update ⟨id, changes, same⟩
      rw [Progress.next_audit other, course.marked]
      simp [not_completing (e := ⟨c, (t.world.perform c).1⟩) other]
  · obtain ⟨entries, more, before, after⟩ :=
      tenure_grows (e := ⟨c, (t.world.perform c).1⟩) allowed course.logged
    exact ⟨entries ++ more, by rw [progress_concat_scanned, after]⟩
  · rw [progress_concat_scanned, newest_scanned]
    exact stored
  · rw [progress_concat_scanned, engine]
    exact goes _ replies

lemma live_before {scan : LiveScan} {program program' : Program (Except StoreError (Option AuditRecord))}
    (member : scan ∈ before ++ ⟨n, auditId, program'⟩ :: after) :
    ∃ other ∈ before ++ ⟨n, auditId, program⟩ :: after,
      other.auditId = scan.auditId ∧ other.number = scan.number := by
  obtain member | rfl | member : scan ∈ before ∨ scan = ⟨n, auditId, program'⟩ ∨ scan ∈ after := by
    simpa using member
  · exact ⟨scan, by simp [member], rfl, rfl⟩
  · exact ⟨⟨n, auditId, program⟩, by simp, rfl, rfl⟩
  · exact ⟨scan, by simp [member], rfl, rfl⟩

/-- A scan that holds the audit makes a call that does not change the audit. -/
lemma Regular.reads (regular : Regular hs t auditId) (tidy : Tidy hs t)
    (live : t.live = before ++ ⟨n, auditId, .call c next⟩ :: after)
    (saved : Exchange.Saved ⟨c, (t.world.perform c).1⟩) (later : Later t t')
    (live' : t'.live = before ++ ⟨n, auditId, next (t.world.perform c).1⟩ :: after)
    (other : ∀ id changes, c ≠ .updateAudit id changes)
    (audit : t'.audit? auditId = t.audit? auditId) :
    Regular (hs ++ [.scanned n ⟨c, (t.world.perform c).1⟩]) t' auditId := by
  have member : ⟨n, auditId, .call c next⟩ ∈ t.live := by simp [live]
  have member' : ⟨n, auditId, next (t.world.perform c).1⟩ ∈ t'.live := by simp [live']
  have opened {j} : Open (hs ++ [.scanned n ⟨c, (t.world.perform c).1⟩]) auditId j ↔
      Open hs auditId j := by
    simp [Open, finished_scanned, not_completing (e := ⟨c, (t.world.perform c).1⟩) other]
  refine regular.carried later audit begun_scanned (fun _ => admitted_scanned) opened ?_ ?_
  · intro j m base' begun admitted course
    by_cases same : m = n
    · subst same
      refine course.moves tidy regular begun admitted member saved later.engine member' ?_
      rw [audit, Progress.next_audit other]
      exact course.stored
    · refine course.rests (by simpa using course.kept) (by simp [Ne.symm same]) later.engine ?_ ?_
      · simp [live, live', same]
      · rw [newest_scanned, audit]
        exact course.stored
  · intro scan live'' of
    obtain ⟨old, oldLive, sameAudit, sameNumber⟩ := live_before (live' ▸ live'')
    exact .inr ⟨old, live ▸ oldLive, sameAudit.trans of, sameNumber⟩

/-- A scan that holds the audit changes the audit. -/
lemma Regular.writes (regular : Regular hs t auditId) (tidy : Tidy hs t)
    {changes : List (AuditField × Json)}
    {next : Except StoreError (Option AuditRecord) → Program (Except StoreError (Option AuditRecord))}
    (begun : Begun hs auditId k base) (admitted : Admitted hs auditId k n)
    (live : t.live = before ++ ⟨n, auditId, .call (.updateAudit auditId changes) next⟩ :: after)
    (saved : Exchange.Saved ⟨.updateAudit auditId changes,
      (t.world.perform (.updateAudit auditId changes)).1⟩) (later : Later t t')
    (live' : t'.live = before ++
      ⟨n, auditId, next (t.world.perform (.updateAudit auditId changes)).1⟩ :: after)
    (audit : ∀ audit, t.audit? auditId = some audit →
      t'.audit? auditId = some (audit.change changes)) :
    Regular (hs ++ [.scanned n ⟨.updateAudit auditId changes,
      (t.world.perform (.updateAudit auditId changes)).1⟩]) t' auditId := by
  have member : ⟨n, auditId, .call (.updateAudit auditId changes) next⟩ ∈ t.live := by simp [live]
  have member' : ⟨n, auditId, next (t.world.perform (.updateAudit auditId changes)).1⟩ ∈ t'.live := by
    simp [live']
  have course := regular.course k n base begun admitted
  obtain ⟨⟨-, running, -, completes, -⟩, -⟩ := course.program tidy member
  have isOpen := course.isOpen tidy begun admitted running
  have found := course.holds tidy regular begun admitted running
  have found' := audit _ found
  have newest := regular.newest_of_open isOpen
  -- No other request is the newest one, so only this scan accounts for the audit.
  have only {j} (newestJ : Newest hs auditId j) : j = k := by
    obtain ⟨base', begunJ⟩ := newestJ.1
    exact Nat.le_antisymm (newest.2 j base' begunJ) (newestJ.2 k base begun)
  refine ⟨?_, ?_, ?_, ?_, ?_, ?_⟩
  · have marked : (∃ audit, t'.audit? auditId = some audit ∧ audit.isRunning = true) ↔
        ¬ Scan.Completes changes := by
      rw [← completes]
      simp [found']
    rw [marked]
    constructor
    · intro goesOn
      refine ⟨k, ⟨base, begun.later⟩, by simpa using course.kept, fun m admittedM => ?_⟩
      rw [finished_scanned]
      rintro (finished | ⟨-, complete⟩)
      · exact isOpen.2.2 m (admitted_scanned.mp admittedM) finished
      · exact goesOn complete
    · rintro ⟨j, isOpen'⟩ complete
      obtain ⟨base', begunJ⟩ := isOpen'.1
      obtain rfl := regular.unique (isOpen'.before (begun_scanned.mp begunJ)) isOpen
      exact isOpen'.2.2 n admitted.later (finished_scanned.mpr (.inr ⟨rfl, complete⟩))
  · intro j isOpen' i base' begunI
    obtain ⟨base'', begunJ⟩ := isOpen'.1
    exact regular.newest j (isOpen'.before (begun_scanned.mp begunJ)) i base' (begun_scanned.mp begunI)
  · intro j m base' begunJ admittedM
    rw [begun_scanned] at begunJ
    rw [admitted_scanned] at admittedM
    have courseJ := regular.course j m base' begunJ admittedM
    -- The scan that calls goes on; the courses of the others are as they were.
    by_cases same : m = n
    · subst same
      refine courseJ.moves tidy regular begunJ admittedM member saved later.engine member' ?_
      intro _ stored present
      have unfinished := course.marked.mp running
      have foundJ := courseJ.holds tidy regular begunJ admittedM (courseJ.marked.mpr unfinished)
      exact Option.some.inj (present.symm.trans (audit _ foundJ))
    · refine courseJ.rests (by simpa using courseJ.kept) (by simp [Ne.symm same]) later.engine ?_ ?_
      · simp [live, live', same]
      · intro newestJ
        obtain rfl := only (newest_scanned.mp newestJ)
        exact absurd (tidy.once _ _ _ m n admittedM admitted) same
  · intro j newestJ unadmitted
    obtain rfl := only (newest_scanned.mp newestJ)
    exact absurd admitted.later (unadmitted n)
  · intro j base' _ missing
    rw [found'] at missing
    cases missing
  · intro scan live'' of
    obtain ⟨old, oldLive, sameAudit, sameNumber⟩ := live_before (live' ▸ live'')
    exact regular.owned_later (live ▸ oldLive) (sameAudit.trans of) sameNumber fun lost => absurd lost (not_lost found)

lemma Regular.ends (regular : Regular hs t auditId) (tidy : Tidy hs t) {owner : String}
    {result : Except StoreError (Option AuditRecord)} (later : Later t t')
    (live : t.live = before ++ ⟨n, owner, .done result⟩ :: after)
    (live' : t'.live = before ++ after) (audit : t'.audit? auditId = t.audit? auditId) :
    Regular (hs ++ [.ended n result]) t' auditId := by
  have begun' {j base'} : Begun (hs ++ [.ended n result]) auditId j base' ↔ Begun hs auditId j base' := by
    simp [begun_concat]
  have admitted' {j m} : Admitted (hs ++ [.ended n result]) auditId j m ↔ Admitted hs auditId j m := by
    simp [admitted_concat]
  have withdrawn {j} : Withdrawn (hs ++ [.ended n result]) j ↔ Withdrawn hs j := by
    simp [withdrawn_concat]
  have newest {j} : Newest (hs ++ [.ended n result]) auditId j ↔ Newest hs auditId j := by
    simp [Newest, begun']
  have finished {m} : Finished (hs ++ [.ended n result]) m ↔ Finished hs m :=
    finished_concat_other (by simp)
  have opened {j} : Open (hs ++ [.ended n result]) auditId j ↔ Open hs auditId j := by
    simp [Open, begun', admitted', withdrawn, finished]
  refine regular.carried later audit begun' (fun _ => admitted') opened ?_ ?_
  · intro j m base' _ _ course
    have same : progress base' m (hs ++ [.ended n result]) = progress base' m hs :=
      progress_concat_other (by simp)
    refine ⟨withdrawn.not.mpr course.kept, by rw [same, finished, course.marked],
      same ▸ course.logged, ?_, ?_⟩
    · rw [newest, audit, same]
      exact course.stored
    · rw [same, later.engine]
      obtain ⟨program, member, keeps⟩ | ⟨result', ended, ends⟩ := course.goes
      · -- The scan that ends is done, so what its program keeps to is said of its result.
        by_cases last : m = n
        · subst last
          have last : (⟨m, owner, .done result⟩ : LiveScan) ∈ t.live := by simp [live]
          have only := tidy.eq_of_number last member rfl
          rw [LiveScan.mk.injEq] at only
          rw [only.2.2] at keeps
          exact .inr ⟨result, by simp, keeps⟩
        · refine .inl ⟨program, ?_, keeps⟩
          simpa [live, live', last] using member
      · exact .inr ⟨result', List.mem_append_left _ ended, ends⟩
  · intro scan member of
    refine .inr ⟨scan, ?_, of, rfl⟩
    rw [live'] at member
    rw [live]
    exact ((List.sublist_cons_self _ after).append_left before).subset member

end Holder

end Steps

end RepoAudit.Traffic
