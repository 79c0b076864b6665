import RepoAudit.Proofs.Scan.Calls
import RepoAudit.Proofs.Scan.Opening

/-!
# The book of an executor

What an executor is told of the scans that it takes, entry by entry. `Recorded` says what it knows after any
entries that can come in a row: of every audit, the scan that was registered last, as long as its end was not
called back. `Engagement` follows the entries that a request for a scan makes.
-/

namespace RepoAudit

/-- What an executor is told of a scan. -/
inductive Entry where
  | accepted (auditId : String) (number : Nat)
  | registered (auditId : String) (number : Nat)
  | watched (number : Nat)
  | ended (number : Nat)
  | reported (number : Nat)
  deriving DecidableEq

/-- The entry that a call makes. -/
def Exchange.entry? : Exchange → Option Entry
  | ⟨.submit auditId, some number⟩ => some (.accepted auditId number)
  | ⟨.register auditId number, _⟩ => some (.registered auditId number)
  | ⟨.watch number, _⟩ => some (.watched number)
  | _ => none

/-- The scans of an audit that were accepted, in their order. -/
def acceptedOf (auditId : String) (es : List Entry) : List Nat :=
  es.filterMap fun
    | .accepted owner number => if owner = auditId then some number else none
    | _ => none

/-- The scans of an audit that were registered, in their order. -/
def registeredOf (auditId : String) (es : List Entry) : List Nat :=
  es.filterMap fun
    | .registered owner number => if owner = auditId then some number else none
    | _ => none

/-- The end of the scan was called back: the scan was watched when it had ended, or it was reported when it had
ended and was watched. -/
def CalledBack (es : List Entry) (number : Nat) : Prop :=
  ∃ before after, .ended number ∈ before ∧ (es = before ++ .watched number :: after ∨
    .watched number ∈ before ∧ es = before ++ .reported number :: after)

lemma getElem?_concat_eq_some {α : Type} {xs : List α} {x y : α} {m : Nat} :
    (xs ++ [x])[m]? = some y ↔ xs[m]? = some y ∨ m = xs.length ∧ x = y := by
  rw [List.getElem?_append]
  split
  · next within => simp [Nat.ne_of_lt within]
  · next beyond =>
    rw [List.getElem?_eq_none (Nat.le_of_not_lt beyond), List.getElem?_singleton]
    by_cases here : m = xs.length
    · simp [here]
    · have : m - xs.length ≠ 0 := by omega
      simp [here, this]

section Entries

variable {es : List Entry} {e : Entry} {auditId : String} {number : Nat}

lemma mem_acceptedOf : number ∈ acceptedOf auditId es ↔ .accepted auditId number ∈ es := by
  simp only [acceptedOf, List.mem_filterMap]
  constructor
  · rintro ⟨e, entered, is⟩
    cases e with
    | accepted owner n =>
      obtain ⟨rfl, rfl⟩ : owner = auditId ∧ n = number := by simpa using is
      exact entered
    | _ => cases is
  · exact fun entered => ⟨_, entered, by simp⟩

lemma acceptedOf_append (es more : List Entry) :
    acceptedOf auditId (es ++ more) = acceptedOf auditId es ++ acceptedOf auditId more :=
  List.filterMap_append

lemma mem_registeredOf : number ∈ registeredOf auditId es ↔ .registered auditId number ∈ es := by
  simp only [registeredOf, List.mem_filterMap]
  constructor
  · rintro ⟨e, entered, is⟩
    cases e with
    | registered owner n =>
      obtain ⟨rfl, rfl⟩ : owner = auditId ∧ n = number := by simpa using is
      exact entered
    | _ => cases is
  · exact fun entered => ⟨_, entered, by simp⟩

lemma acceptedOf_concat_accepted (owner : String) : acceptedOf auditId (es ++ [.accepted owner number]) =
    acceptedOf auditId es ++ if owner = auditId then [number] else [] := by
  by_cases same : owner = auditId <;> simp [acceptedOf, same]

lemma acceptedOf_concat_other (other : ∀ n, e ≠ .accepted auditId n) :
    acceptedOf auditId (es ++ [e]) = acceptedOf auditId es := by
  cases e with
  | accepted owner n =>
    have apart : owner ≠ auditId := fun same => other n (by rw [same])
    simp [acceptedOf, apart]
  | _ => simp [acceptedOf]

lemma registeredOf_concat_registered (owner : String) : registeredOf auditId (es ++ [.registered owner number]) =
    registeredOf auditId es ++ if owner = auditId then [number] else [] := by
  by_cases same : owner = auditId <;> simp [registeredOf, same]

lemma registeredOf_concat_other (other : ∀ n, e ≠ .registered auditId n) :
    registeredOf auditId (es ++ [e]) = registeredOf auditId es := by
  cases e with
  | registered owner n =>
    have apart : owner ≠ auditId := fun same => other n (by rw [same])
    simp [registeredOf, apart]
  | _ => simp [registeredOf]

lemma calledBack_concat : CalledBack (es ++ [e]) number ↔ CalledBack es number ∨
    .ended number ∈ es ∧ (e = .watched number ∨ .watched number ∈ es ∧ e = .reported number) := by
  have last {x : Entry} {before after : List Entry} (whole : es ++ [e] = before ++ x :: after) :
      (before = es ∧ e = x) ∨ ∃ rest, es = before ++ x :: rest := by
    obtain rfl | ⟨rest, final, rfl⟩ := List.eq_nil_or_concat after
    · obtain ⟨rfl, same⟩ := List.append_inj' whole rfl
      exact .inl ⟨rfl, by simpa using same⟩
    · rw [List.concat_eq_append, ← List.cons_append, ← List.append_assoc] at whole
      exact .inr ⟨rest, (List.append_inj' whole rfl).1⟩
  constructor
  · rintro ⟨before, after, ended, whole | ⟨watched, whole⟩⟩
    · obtain ⟨rfl, rfl⟩ | ⟨rest, is⟩ := last whole
      · exact .inr ⟨ended, .inl rfl⟩
      · exact .inl ⟨before, rest, ended, .inl is⟩
    · obtain ⟨rfl, rfl⟩ | ⟨rest, is⟩ := last whole
      · exact .inr ⟨ended, .inr ⟨watched, rfl⟩⟩
      · exact .inl ⟨before, rest, ended, .inr ⟨watched, is⟩⟩
  · rintro (⟨before, after, ended, rfl | ⟨watched, rfl⟩⟩ | ⟨ended, rfl | ⟨watched, rfl⟩⟩)
    · exact ⟨before, after ++ [e], ended, .inl (by simp)⟩
    · exact ⟨before, after ++ [e], ended, .inr ⟨watched, by simp⟩⟩
    · exact ⟨es, [], ended, .inl rfl⟩
    · exact ⟨es, [], ended, .inr ⟨watched, rfl⟩⟩

lemma CalledBack.ended (called : CalledBack es number) : .ended number ∈ es := by
  obtain ⟨before, after, ended, rfl | ⟨-, rfl⟩⟩ := called <;> exact List.mem_append_left _ ended

lemma CalledBack.watched (called : CalledBack es number) : .watched number ∈ es := by
  obtain ⟨before, after, -, rfl | ⟨watched, rfl⟩⟩ := called
  · exact List.mem_append_right _ List.mem_cons_self
  · exact List.mem_append_left _ watched

end Entries

namespace Executor

/-- What an entry changes. -/
def enter (executor : Executor) : Entry → Executor
  | .accepted auditId _ => (executor.submit auditId).2
  | .registered auditId number => executor.register auditId number
  | .watched number => executor.watch number
  | .ended number => executor.finish number
  | .reported number => executor.report number

/-- The scans stand under their numbers. -/
def Numbered (executor : Executor) : Prop := ∀ (n : Nat) (job : Job), executor.jobs[n]? = some job → job.number = n

section Numbered

variable {executor : Executor}

lemma Numbered.job?_eq (numbered : executor.Numbered) (n : Nat) : executor.job? n = executor.jobs[n]? := by
  cases found : executor.jobs[n]? with
  | none =>
    refine List.find?_eq_none.mpr fun job member same => ?_
    obtain ⟨m, stands⟩ := List.mem_iff_getElem?.mp member
    rw [← eq_of_beq same, numbered m job stands, stands] at found
    cases found
  | some job =>
    obtain ⟨within, rfl⟩ := List.getElem?_eq_some_iff.mp found
    refine List.find?_eq_some_iff_getElem.mpr ⟨beq_iff_eq.mpr (numbered n _ found), n, within, rfl, ?_⟩
    intro m before
    have number := numbered m _ (List.getElem?_eq_getElem (Nat.lt_trans before within))
    simpa [number] using Nat.ne_of_lt before

lemma Numbered.getElem?_changeJob (numbered : executor.Numbered) (n m : Nat) (change : Job → Job) :
    (executor.changeJob n change).jobs[m]? =
      executor.jobs[m]?.map fun job => if m = n then change job else job := by
  rw [changeJob, List.getElem?_map]
  cases found : executor.jobs[m]? with
  | none => rfl
  | some job => simp [numbered m job found]

lemma jobs_report (executor : Executor) (n : Nat) : (executor.report n).jobs = executor.jobs := by
  unfold report
  split
  · split <;> rfl
  · rfl

lemma mem_latest_register {auditId owner : String} {n m : Nat} :
    (owner, m) ∈ (executor.register auditId n).latest ↔
      owner ≠ auditId ∧ (owner, m) ∈ executor.latest ∨ owner = auditId ∧ m = n := by
  simp [register, and_comm]

/-- The report of a scan that has ended and is watched forgets it, and nothing else. -/
lemma Numbered.mem_latest_report (numbered : executor.Numbered) {owner : String} {n m : Nat} :
    (owner, m) ∈ (executor.report n).latest ↔ (owner, m) ∈ executor.latest ∧
      ¬ (m = n ∧ ∃ job, executor.jobs[n]? = some job ∧ job.auditId = owner ∧ job.ended = true ∧
        job.watched = true) := by
  rw [report, numbered.job?_eq]
  cases executor.jobs[n]? with
  | none => simp
  | some job =>
    by_cases leaves : (job.ended && job.watched) = true
    · rw [Bool.and_eq_true] at leaves
      have other : ((owner, m) != (job.auditId, n)) = true ↔ ¬ (m = n ∧ job.auditId = owner) := by
        rw [bne_iff_ne, ne_eq, Prod.mk.injEq, and_comm, eq_comm (a := owner)]
      simp [leaves, forget, List.mem_filter, other]
    · have kept : ¬ (job.ended = true ∧ job.watched = true) := by rwa [Bool.and_eq_true] at leaves
      simp only [leaves, Bool.false_eq_true, if_false, Option.some.injEq]
      refine (and_iff_left ?_).symm
      rintro ⟨-, other, rfl, -, ended, watched⟩
      exact kept ⟨ended, watched⟩

end Numbered

/-- What an executor knows after some entries. -/
structure Recorded (executor : Executor) (es : List Entry) : Prop where
  job : ∀ (n : Nat) (job : Job), executor.jobs[n]? = some job →
    job = ⟨n, job.auditId, decide (.ended n ∈ es), decide (.watched n ∈ es)⟩
  owner : ∀ auditId n, .accepted auditId n ∈ es ↔ ∃ job, executor.jobs[n]? = some job ∧ job.auditId = auditId
  bounded : ∀ n, .ended n ∈ es ∨ .watched n ∈ es → n < executor.jobs.length
  known : ∀ auditId n, .registered auditId n ∈ es → .accepted auditId n ∈ es
  latest : ∀ auditId n, (auditId, n) ∈ executor.latest ↔
    (registeredOf auditId es).getLast? = some n ∧ ¬ CalledBack es n

/-- An entry that can come after others. -/
def Due (executor : Executor) (es : List Entry) : Entry → Prop
  | .accepted _ n => executor.accepting = true ∧ n = executor.jobs.length
  | .registered auditId n => .accepted auditId n ∈ es ∧ .watched n ∉ es
  | .watched n => n < executor.jobs.length
  | .ended n => n < executor.jobs.length
  | .reported _ => True

section Recorded

variable {es : List Entry} {executor : Executor} {auditId : String} {n : Nat}

lemma Recorded.numbered (recorded : executor.Recorded es) : executor.Numbered := by
  intro n job stands
  rw [recorded.job n job stands]

lemma Recorded.lt_of_accepted (recorded : executor.Recorded es) (accepted : .accepted auditId n ∈ es) :
    n < executor.jobs.length := by
  obtain ⟨job, stands, -⟩ := (recorded.owner auditId n).mp accepted
  exact (List.getElem?_eq_some_iff.mp stands).1

/-- The last scan of an audit that was registered was accepted. -/
lemma Recorded.accepted_of_last (recorded : executor.Recorded es)
    (last : (registeredOf auditId es).getLast? = some n) : .accepted auditId n ∈ es :=
  recorded.known auditId n (mem_registeredOf.mp (List.mem_of_getLast? last))

/-- What the executor knows of its scans besides the latest ones is what the entries say. -/
lemma Recorded.getElem? (recorded : executor.Recorded es) (accepted : .accepted auditId n ∈ es) :
    executor.jobs[n]? = some ⟨n, auditId, decide (.ended n ∈ es), decide (.watched n ∈ es)⟩ := by
  obtain ⟨job, stands, rfl⟩ := (recorded.owner auditId n).mp accepted
  rw [stands, ← recorded.job n job stands]

/-- An entry other than that a scan is accepted leaves the scans, except that one may have ended or be watched. -/
lemma Recorded.told {executor' : Executor} {e : Entry} (recorded : executor.Recorded es)
    (unaccepted : ∀ owner m, e ≠ .accepted owner m)
    (jobs : ∀ m : Nat, executor'.jobs[m]? = executor.jobs[m]?.map fun job =>
      { job with ended := job.ended || decide (e = .ended m), watched := job.watched || decide (e = .watched m) })
    (length : executor'.jobs.length = executor.jobs.length)
    (within : ∀ m, e = .ended m ∨ e = .watched m → m < executor.jobs.length)
    (known : ∀ owner m, e = .registered owner m → .accepted owner m ∈ es)
    (latest : ∀ owner m, (owner, m) ∈ executor'.latest ↔
      (registeredOf owner (es ++ [e])).getLast? = some m ∧ ¬ CalledBack (es ++ [e]) m) :
    executor'.Recorded (es ++ [e]) := by
  have accepted {owner : String} {m : Nat} : .accepted owner m ∈ es ++ [e] ↔ .accepted owner m ∈ es := by
    simp [(unaccepted owner m).symm]
  refine ⟨fun m job stands => ?_, fun owner m => ?_, fun m happened => ?_, fun owner m registered => ?_, latest⟩
  · rw [jobs, Option.map_eq_some_iff] at stands
    obtain ⟨old, stood, rfl⟩ := stands
    rw [recorded.job m old stood]
    simp [Bool.decide_or, eq_comm]
  · rw [accepted, recorded.owner, jobs]
    simp
  · rw [length]
    obtain old | new : (.ended m ∈ es ∨ .watched m ∈ es) ∨ e = .ended m ∨ e = .watched m := by
      simp only [List.mem_append, List.mem_singleton] at happened
      tauto
    · exact recorded.bounded m old
    · exact within m new
  · rw [accepted]
    obtain old | new := List.mem_append.mp registered
    · exact recorded.known owner m old
    · exact known owner m (List.mem_singleton.mp new).symm

/-- A scan is accepted under a new number. -/
lemma Recorded.accepts (recorded : executor.Recorded es) (auditId : String) :
    Recorded { executor with jobs := executor.jobs ++ [⟨executor.jobs.length, auditId, false, false⟩] }
      (es ++ [.accepted auditId executor.jobs.length]) := by
  have called {m : Nat} :
      CalledBack (es ++ [.accepted auditId executor.jobs.length]) m ↔ CalledBack es m := by
    simp [calledBack_concat]
  refine ⟨fun m job stands => ?_, fun owner m => ?_, fun m happened => ?_, fun owner m registered => ?_,
    fun owner m => ?_⟩
  · obtain old | ⟨rfl, rfl⟩ := getElem?_concat_eq_some.mp stands
    · simpa using recorded.job m job old
    · -- The number is new, so nothing was told of it.
      have unended : .ended executor.jobs.length ∉ es := fun ended =>
        Nat.lt_irrefl _ (recorded.bounded _ (.inl ended))
      have unwatched : .watched executor.jobs.length ∉ es := fun watched =>
        Nat.lt_irrefl _ (recorded.bounded _ (.inr watched))
      simp [unended, unwatched]
  · simp only [List.mem_append, List.mem_singleton, Entry.accepted.injEq, recorded.owner, getElem?_concat_eq_some]
    constructor
    · rintro (⟨job, stands, is⟩ | ⟨rfl, rfl⟩)
      · exact ⟨job, .inl stands, is⟩
      · exact ⟨_, .inr ⟨rfl, rfl⟩, rfl⟩
    · rintro ⟨job, stands | ⟨rfl, rfl⟩, rfl⟩
      · exact .inl ⟨job, stands, rfl⟩
      · exact .inr ⟨rfl, rfl⟩
  · have before : .ended m ∈ es ∨ .watched m ∈ es := by simpa using happened
    have := recorded.bounded m before
    simp only [List.length_append, List.length_singleton]
    omega
  · have before : .registered owner m ∈ es := by simpa using registered
    exact List.mem_append_left _ (recorded.known owner m before)
  · rw [called, registeredOf_concat_other (by simp)]
    exact recorded.latest owner m

lemma Recorded.registers (recorded : executor.Recorded es) (accepted : .accepted auditId n ∈ es)
    (unwatched : .watched n ∉ es) :
    (executor.register auditId n).Recorded (es ++ [.registered auditId n]) := by
  refine recorded.told (by simp) (by simp [register]) rfl (by simp) ?_ fun owner m => ?_
  · rintro owner m ⟨⟩
    exact accepted
  · rw [mem_latest_register, recorded.latest, registeredOf_concat_registered]
    have called : CalledBack (es ++ [.registered auditId n]) m ↔ CalledBack es m := by simp [calledBack_concat]
    rw [called]
    by_cases same : auditId = owner
    · subst same
      have uncalled : ¬ CalledBack es n := fun called => unwatched called.watched
      simp only [ne_eq, not_true_eq_false, false_and, true_and, false_or, if_true, List.getLast?_concat,
        Option.some.injEq]
      constructor
      · rintro rfl
        exact ⟨rfl, uncalled⟩
      · exact fun holds => holds.1.symm
    · simp [same, Ne.symm same]

lemma Recorded.ends (recorded : executor.Recorded es) (within : n < executor.jobs.length) :
    (executor.finish n).Recorded (es ++ [.ended n]) := by
  refine recorded.told (by simp) (fun m => ?_) (by simp [finish, changeJob]) (by simpa using within) (by simp)
    fun owner m => ?_
  · rw [finish, recorded.numbered.getElem?_changeJob]
    congr
    funext job
    by_cases here : m = n
    · simp [here]
    · simp [here, Ne.symm here]
  · have called : CalledBack (es ++ [.ended n]) m ↔ CalledBack es m := by simp [calledBack_concat]
    rw [called, registeredOf_concat_other (by simp)]
    exact recorded.latest owner m

/-- A report forgets the scan just when its end is called back then. -/
lemma Recorded.forgets {executor' : Executor} {e : Entry} {p : Prop} (recorded : executor.Recorded es)
    (unregistered : ∀ owner m, e ≠ .registered owner m) (numbered : executor'.Numbered)
    (latest : executor'.latest = executor.latest)
    (reports : ∀ owner, .accepted owner n ∈ es → ∃ job, executor'.jobs[n]? = some job ∧ job.auditId = owner ∧
      (job.ended = true ∧ job.watched = true ↔ p))
    (called : ∀ m, CalledBack (es ++ [e]) m ↔ CalledBack es m ∨ m = n ∧ p) (owner : String) (m : Nat) :
    (owner, m) ∈ (executor'.report n).latest ↔
      (registeredOf owner (es ++ [e])).getLast? = some m ∧ ¬ CalledBack (es ++ [e]) m := by
  rw [numbered.mem_latest_report, latest, recorded.latest, called, registeredOf_concat_other (unregistered owner),
    and_assoc, not_or]
  refine and_congr_right fun last => and_congr_right fun _ => not_congr (and_congr_right ?_)
  rintro rfl
  obtain ⟨job, stands, is, ended⟩ := reports owner (recorded.accepted_of_last last)
  rw [← ended]
  constructor
  · rintro ⟨other, stands', -, holds⟩
    rwa [Option.some.inj (stands.symm.trans stands')]
  · exact fun holds => ⟨job, stands, is, holds⟩

lemma Recorded.reports (recorded : executor.Recorded es) (n : Nat) :
    (executor.report n).Recorded (es ++ [.reported n]) := by
  refine recorded.told (by simp) (by simp [jobs_report]) (by simp [jobs_report]) (by simp) (by simp) ?_
  refine recorded.forgets (p := .ended n ∈ es ∧ .watched n ∈ es) (by simp) recorded.numbered rfl ?_ fun m => ?_
  · exact fun owner accepted => ⟨_, recorded.getElem? accepted, rfl, by simp⟩
  · simp only [calledBack_concat, reduceCtorEq, false_or, Entry.reported.injEq]
    refine or_congr_right ⟨?_, ?_⟩
    · rintro ⟨ended, watched, rfl⟩
      exact ⟨rfl, ended, watched⟩
    · rintro ⟨rfl, ended, watched⟩
      exact ⟨ended, watched, rfl⟩

lemma Recorded.watches (recorded : executor.Recorded es) (within : n < executor.jobs.length) :
    (executor.watch n).Recorded (es ++ [.watched n]) := by
  have stands (m : Nat) := recorded.numbered.getElem?_changeJob n m fun job => { job with watched := true }
  have numbered : (executor.changeJob n fun job => { job with watched := true }).Numbered := by
    intro m job is
    rw [stands, Option.map_eq_some_iff] at is
    obtain ⟨old, stood, rfl⟩ := is
    have number := recorded.numbered m old stood
    split <;> exact number
  refine recorded.told (by simp) (fun m => ?_) ?_ (by simpa using within) (by simp) ?_
  · rw [watch, jobs_report, stands]
    congr
    funext job
    by_cases here : m = n
    · simp [here]
    · simp [here, Ne.symm here]
  · rw [watch, jobs_report, changeJob, List.length_map]
  · refine recorded.forgets (p := .ended n ∈ es) (by simp) numbered rfl ?_ fun m => ?_
    · intro owner accepted
      refine ⟨_, by rw [stands, recorded.getElem? accepted]; rfl, ?_⟩
      simp
    · simp only [calledBack_concat, reduceCtorEq, and_false, or_false, Entry.watched.injEq]
      refine or_congr_right ⟨?_, ?_⟩
      · rintro ⟨ended, rfl⟩
        exact ⟨rfl, ended⟩
      · rintro ⟨rfl, ended⟩
        exact ⟨ended, rfl⟩

/-- The executor knows the scan of an audit that was registered last, unless its end was called back. -/
lemma Recorded.latest?_eq_some (recorded : executor.Recorded es) : executor.latest? auditId = some n ↔
    (registeredOf auditId es).getLast? = some n ∧ ¬ CalledBack es n := by
  rw [← recorded.latest]
  have member {m : Nat} (looked : executor.latest? auditId = some m) : (auditId, m) ∈ executor.latest := by
    obtain ⟨first, rest, is, -⟩ := List.lookup_eq_some_iff.mp looked
    rw [is]
    exact List.mem_append_right _ List.mem_cons_self
  refine ⟨member, fun listed => ?_⟩
  cases looked : executor.latest? auditId with
  | none => simpa using List.lookup_eq_none_iff.mp looked _ listed
  | some m =>
    have last := ((recorded.latest auditId m).mp (member looked)).1
    exact last.symm.trans ((recorded.latest auditId n).mp listed).1

/-- Whatever comes next, the executor knows what the entries say. -/
lemma Recorded.enter {e : Entry} (recorded : executor.Recorded es) (due : executor.Due es e) :
    (executor.enter e).Recorded (es ++ [e]) := by
  cases e with
  | accepted auditId n =>
    obtain ⟨accepting, rfl⟩ := due
    rw [Executor.enter, submit, if_pos accepting]
    exact recorded.accepts auditId
  | registered auditId n => exact recorded.registers due.1 due.2
  | watched n => exact recorded.watches due
  | ended n => exact recorded.ends due
  | reported n => exact recorded.reports n

/-- Whether something is told next or not, the executor knows what the entries say. -/
lemma Recorded.follow {o : Option Entry} (recorded : executor.Recorded es)
    (due : ∀ e, o = some e → executor.Due es e) : (o.elim executor executor.enter).Recorded (es ++ o.toList) := by
  cases o with
  | none => rwa [Option.toList_none, List.append_nil]
  | some e => exact recorded.enter (due e rfl)

lemma length_enter {e : Entry} (unaccepted : ∀ auditId n, e ≠ .accepted auditId n) :
    (executor.enter e).jobs.length = executor.jobs.length := by
  cases e with
  | accepted auditId n => exact absurd rfl (unaccepted auditId n)
  | registered => rfl
  | watched n => rw [Executor.enter, watch, jobs_report, changeJob, List.length_map]
  | ended n => rw [Executor.enter, finish, changeJob, List.length_map]
  | reported n => rw [Executor.enter, jobs_report]

end Recorded

end Executor

/-! ## The entries of a request -/

/-- True of the calls that tell the executor nothing. -/
def Call.Quiet : Call → Prop
  | .submit _ => False
  | .register _ _ => False
  | .watch _ => False
  | _ => True

lemma Call.StaysWith.quiet {auditId : String} {c : Call} (stays : c.StaysWith auditId) : c.Quiet := by
  cases c with
  | submit | register | watch => exact stays.elim
  | _ => trivial

lemma Call.Quiet.entry? {c : Call} (quiet : c.Quiet) (reply : c.Reply) : Exchange.entry? ⟨c, reply⟩ = none := by
  cases c with
  | submit | register | watch => exact quiet.elim
  | _ => rfl

/-- A call changes the executor as its entry does. -/
lemma World.executor_perform (world : World) (c : Call) : (world.perform c).2.executor =
    (Exchange.entry? ⟨c, (world.perform c).1⟩).elim world.executor world.executor.enter := by
  cases c with
  | submit auditId =>
    by_cases accepting : world.executor.accepting = true
    · simp [perform, Executor.submit, accepting, Exchange.entry?, Executor.enter]
    · simp [perform, Executor.submit, accepting, Exchange.entry?]
  | _ => rfl

/-- What a request for a scan still has to tell the executor. -/
inductive Engagement where
  | free
  /-- The executor has taken the scan, which is to be registered. -/
  | taken (number : Nat)
  /-- The scan is registered, and is to be watched. -/
  | registered (number : Nat)

/-- What a request has to tell after a call and its reply. -/
def Engagement.next : Engagement → Exchange → Engagement
  | free, ⟨.submit _, some number⟩ => taken number
  | taken number, _ => registered number
  | _, _ => free

namespace Scan

/-- What a request for a scan may call as long as it has to tell something. -/
def engagementAllows (auditId : String) : Engagement → Call → Prop
  | .free, c => c = .submit auditId ∨ c.Quiet
  | .taken number, c => c = .register auditId number
  | .registered number, c => c = .watch number

/-- The contract of a request that tells the executor everything. -/
def engagement (auditId : String) : Contract Engagement where
  allows := engagementAllows auditId
  next := Engagement.next

/-- A request for a scan has told everything when it ends. -/
lemma engaged_start (auditId : String) :
    (start auditId).run.Keeps (engagement auditId) (fun _ s => s = .free) .free := by
  refine starting_bind ⟨.inr trivial, ?_⟩
  rintro (_ | audit) -
  · exact rfl
  show Program.Keeps _ _ (ExceptT.run (if audit.isRunning then _ else _)) Engagement.free
  split
  · exact rfl
  refine starting_bind (starting_clear (fun _ => .free) (.inr trivial) (fun _ => rfl) (fun _ _ => .inr trivial)
    (fun _ _ _ => rfl) (fun _ _ _ => rfl) ?_)
  refine starting_bind ⟨.inr trivial, fun reply _ => starting_bind (starting_accomplish (fun _ _ => ?_) fun _ _ => rfl)⟩
  refine starting_bind ⟨.inl rfl, ?_⟩
  rintro (_ | number) -
  · refine starting_bind ⟨.inr trivial, fun now _ => starting_bind ⟨.inr trivial, fun reply _ => ?_⟩⟩
    exact starting_bind (starting_accomplish (fun _ _ => rfl) fun _ _ => rfl)
  · exact starting_bind ⟨rfl, fun _ _ => starting_bind ⟨rfl, fun _ _ => rfl⟩⟩

end Scan

/-- Every scan that was accepted was registered and is watched. -/
def Settled (es : List Entry) : Prop :=
  ∀ auditId, registeredOf auditId es = acceptedOf auditId es ∧ ∀ n ∈ acceptedOf auditId es, .watched n ∈ es

/-- What the request that is served for an audit has still to tell is all that was not told. -/
def Engaged (es : List Entry) (owner : String) : Engagement → Prop
  | .free => Settled es
  | .taken number => .watched number ∉ es ∧ ∀ auditId,
    acceptedOf auditId es = registeredOf auditId es ++ (if owner = auditId then [number] else []) ∧
    ∀ n ∈ registeredOf auditId es, .watched n ∈ es
  | .registered number => .accepted owner number ∈ es ∧ ∀ auditId,
    registeredOf auditId es = acceptedOf auditId es ∧ ∀ n ∈ acceptedOf auditId es, n = number ∨ .watched n ∈ es

section Engaged

variable {es : List Entry} {owner : String} {s : Engagement}

/-- An entry that tells only of an end leaves what there is to tell. -/
lemma Engaged.told {e : Entry} (engaged : Engaged es owner s) (unaccepted : ∀ auditId n, e ≠ .accepted auditId n)
    (unregistered : ∀ auditId n, e ≠ .registered auditId n) (unwatched : ∀ n, e ≠ .watched n) :
    Engaged (es ++ [e]) owner s := by
  have accepted {auditId : String} {n : Nat} : .accepted auditId n ∈ es ++ [e] ↔ .accepted auditId n ∈ es := by
    simp [(unaccepted auditId n).symm]
  have watched {n : Nat} : .watched n ∈ es ++ [e] ↔ .watched n ∈ es := by simp [(unwatched n).symm]
  cases s <;>
    simpa only [Engaged, Settled, accepted, watched, acceptedOf_concat_other (unaccepted _),
      registeredOf_concat_other (unregistered _)] using engaged

lemma Engagement.next_quiet {c : Call} (quiet : c.Quiet) (reply : c.Reply) : free.next ⟨c, reply⟩ = free := by
  cases c with
  | submit | register | watch => exact quiet.elim
  | _ => rfl

lemma Engaged.accepts {number : Nat} (settled : Settled es) (new : .watched number ∉ es) :
    Engaged (es ++ [.accepted owner number]) owner (.taken number) := by
  refine ⟨by simpa using new, fun auditId => ?_⟩
  obtain ⟨registered, watched⟩ := settled auditId
  rw [acceptedOf_concat_accepted, registeredOf_concat_other (by simp), registered]
  exact ⟨rfl, fun n accepted => List.mem_append_left _ (watched n accepted)⟩

/-- The scan that is to be registered was accepted. -/
lemma Engaged.accepted {number : Nat} (engaged : Engaged es owner (.taken number)) :
    .accepted owner number ∈ es := by
  rw [← mem_acceptedOf, (engaged.2 owner).1, if_pos rfl]
  exact List.mem_append_right _ List.mem_cons_self

lemma Engaged.registers {number : Nat} (engaged : Engaged es owner (.taken number)) :
    Engaged (es ++ [.registered owner number]) owner (.registered number) := by
  refine ⟨List.mem_append_left _ engaged.accepted, fun auditId => ?_⟩
  obtain ⟨accepted, watched⟩ := engaged.2 auditId
  rw [acceptedOf_concat_other (by simp), registeredOf_concat_registered]
  refine ⟨accepted.symm, fun n member => ?_⟩
  rw [accepted, List.mem_append] at member
  obtain old | new := member
  · exact .inr (List.mem_append_left _ (watched n old))
  · split at new
    · exact .inl (List.mem_singleton.mp new)
    · cases new

lemma Engaged.watches {number : Nat} (engaged : Engaged es owner (.registered number)) :
    Settled (es ++ [.watched number]) := by
  intro auditId
  obtain ⟨registered, watched⟩ := engaged.2 auditId
  rw [acceptedOf_concat_other (by simp), registeredOf_concat_other (by simp)]
  refine ⟨registered, fun n accepted => ?_⟩
  obtain rfl | before := watched n accepted
  · exact List.mem_append_right _ List.mem_cons_self
  · exact List.mem_append_left _ before

/-- What a request has still to tell after a call is all that was not told. -/
lemma Engaged.next {e : Exchange} (engaged : Engaged es owner s) (allowed : Scan.engagementAllows owner s e.call)
    (new : ∀ number, e.entry? = some (.accepted owner number) → .watched number ∉ es) :
    Engaged (es ++ e.entry?.toList) owner (s.next e) := by
  rcases e with ⟨c, reply⟩
  cases s with
  | free =>
    obtain rfl | quiet := allowed
    · cases reply with
      | none => exact (List.append_nil es).symm ▸ engaged
      | some number => exact .accepts engaged (new number rfl)
    · rw [quiet.entry?, Engagement.next_quiet quiet]
      exact (List.append_nil es).symm ▸ engaged
  | taken number =>
    obtain rfl := allowed
    exact engaged.registers
  | registered number =>
    obtain rfl := allowed
    exact engaged.watches

/-- What a request calls, it may tell. -/
lemma Engaged.due {world : World} {c : Call} {e : Entry} (engaged : Engaged es owner s)
    (recorded : world.executor.Recorded es) (allowed : Scan.engagementAllows owner s c)
    (enters : Exchange.entry? ⟨c, (world.perform c).1⟩ = some e) : world.executor.Due es e := by
  cases s with
  | free =>
    obtain rfl | quiet := allowed
    · by_cases accepting : world.executor.accepting = true
      · simp only [World.perform, Executor.submit, accepting, if_true, Exchange.entry?, Option.some.injEq] at enters
        subst enters
        exact ⟨accepting, rfl⟩
      · simp [World.perform, Executor.submit, accepting, Exchange.entry?] at enters
    · rw [quiet.entry?] at enters
      cases enters
  | taken number =>
    obtain rfl := allowed
    obtain rfl := Option.some.inj enters
    exact ⟨engaged.accepted, engaged.1⟩
  | registered number =>
    obtain rfl := allowed
    obtain rfl := Option.some.inj enters
    exact recorded.lt_of_accepted engaged.1

end Engaged

end RepoAudit
