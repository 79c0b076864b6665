import Mathlib.Data.List.Induction
import RepoAudit.Proofs.Scan.Book
import RepoAudit.Proofs.Traffic.Basic

/-!
# What the executor knows of the traffic

The entries that the executor gets are read off the history. `Booked` says that the executor knows what they say,
that every scan that was accepted and has not ended is live, and that the request that is served tells the rest.
Each step keeps it, whatever is written or fails to be written.
-/

namespace RepoAudit

/-- The entry that is made by what happens. -/
def Happening.entry? : Happening → Option Entry
  | served _ exchange => exchange.entry?
  | ended number _ => some (.ended number)
  | reported number => some (.reported number)
  | _ => none

/-- What makes an entry. -/
lemma Happening.of_entry? {h : Happening} {e : Entry} (makes : h.entry? = some e) : match e with
    | .accepted auditId n => ∃ k, h = .served k ⟨.submit auditId, some n⟩
    | .registered auditId n => ∃ k, h = .served k ⟨.register auditId n, ()⟩
    | .watched n => ∃ k, h = .served k ⟨.watch n, ()⟩
    | .ended n => ∃ result, h = .ended n result
    | .reported n => h = .reported n := by
  cases h with
  | served k exchange =>
    rcases exchange with ⟨c, reply⟩
    cases c with
    | submit auditId =>
      cases reply with
      | none => cases makes
      | some n =>
        obtain rfl := Option.some.inj makes
        exact ⟨k, rfl⟩
    | register | watch =>
      obtain rfl := Option.some.inj makes
      exact ⟨k, rfl⟩
    | _ => cases makes
  | ended n result =>
    obtain rfl := Option.some.inj makes
    exact ⟨result, rfl⟩
  | reported n =>
    obtain rfl := Option.some.inj makes
    rfl
  | _ => cases makes

namespace Traffic

/-- The entries of a history. -/
def book (hs : List Happening) : List Entry := hs.filterMap Happening.entry?

lemma book_concat (hs : List Happening) (h : Happening) : book (hs ++ [h]) = book hs ++ h.entry?.toList := by
  rw [book, List.filterMap_append]
  cases entry : h.entry? <;> simp [book, entry]

lemma book_append (hs more : List Happening) : book (hs ++ more) = book hs ++ book more := List.filterMap_append

lemma mem_book_accepted {hs : List Happening} {auditId : String} {n : Nat} :
    .accepted auditId n ∈ book hs ↔ ∃ k, .served k ⟨.submit auditId, some n⟩ ∈ hs := by
  rw [book, List.mem_filterMap]
  constructor
  · rintro ⟨h, happened, accepts⟩
    obtain ⟨k, rfl⟩ := Happening.of_entry? accepts
    exact ⟨k, happened⟩
  · rintro ⟨k, happened⟩
    exact ⟨_, happened, rfl⟩

lemma mem_book_ended {hs : List Happening} {n : Nat} :
    .ended n ∈ book hs ↔ ∃ result, .ended n result ∈ hs := by
  rw [book, List.mem_filterMap]
  constructor
  · rintro ⟨h, happened, ends⟩
    obtain ⟨result, rfl⟩ := Happening.of_entry? ends
    exact ⟨result, happened⟩
  · rintro ⟨result, happened⟩
    exact ⟨_, happened, rfl⟩

/-- After the scan of an audit that was accepted last, none of the audit was accepted. -/
lemma split_of_last {hs : List Happening} {auditId : String} {n : Nat}
    (last : (acceptedOf auditId (book hs)).getLast? = some n) : ∃ first k late,
      hs = first ++ .served k ⟨.submit auditId, some n⟩ :: late ∧
      ∀ j m, .served j ⟨.submit auditId, some m⟩ ∉ late := by
  induction hs using List.reverseRecOn with
  | nil => cases last
  | append_singleton hs h ih =>
    by_cases accepts : ∃ k m, h = .served k ⟨.submit auditId, some m⟩
    · obtain ⟨k, m, rfl⟩ := accepts
      have entry : Happening.entry? (.served k ⟨.submit auditId, some m⟩) = some (.accepted auditId m) := rfl
      rw [book_concat, entry, Option.toList_some, acceptedOf_concat_accepted, if_pos rfl, List.getLast?_concat] at last
      obtain rfl := Option.some.inj last
      exact ⟨hs, k, [], rfl, by simp⟩
    · have before : (acceptedOf auditId (book hs)).getLast? = some n := by
        rw [book_concat] at last
        cases entry : h.entry? with
        | none => simpa [entry] using last
        | some e =>
          rw [entry, Option.toList_some, acceptedOf_concat_other ?_] at last
          · exact last
          · rintro m rfl
            obtain ⟨k, is⟩ := Happening.of_entry? entry
            exact accepts ⟨k, m, is⟩
      obtain ⟨first, k, late, rfl, none⟩ := ih before
      refine ⟨first, k, late ++ [h], by simp, fun j m happened => ?_⟩
      obtain old | new := List.mem_append.mp happened
      · exact none j m old
      · exact accepts ⟨j, m, (List.mem_singleton.mp new).symm⟩

/-- The scans that are live after what is told: one more when it is accepted. -/
def joined (engine : Engine) (live : List LiveScan) : Option Entry → List LiveScan
  | some (.accepted auditId n) => live ++ [⟨n, auditId, Scan.run engine auditId⟩]
  | _ => live

lemma joined_other {engine : Engine} {live : List LiveScan} {o : Option Entry}
    (unaccepted : ∀ auditId n, o ≠ some (.accepted auditId n)) : joined engine live o = live := by
  unfold joined
  split
  · exact absurd rfl (unaccepted _ _)
  · rfl

lemma liveAfter_eq_joined (t : Traffic) (e : Exchange) : t.liveAfter e = joined t.engine t.live e.entry? := by
  rcases e with ⟨c, reply⟩
  cases c with
  | submit auditId => cases reply <;> rfl
  | _ => rfl

/-- The live scans are those that were accepted and have not ended. -/
structure Manned (es : List Entry) (executor : Executor) (live : List LiveScan) : Prop where
  keeps : ∀ scan ∈ live, scan.program.Keeps (confinement scan.auditId) (fun _ _ => True) ()
  bounded : ∀ n ∈ live.map (·.number), n < executor.jobs.length
  distinct : (live.map (·.number)).Nodup
  alive : ∀ auditId n, .accepted auditId n ∈ es → .ended n ∈ es ∨ n ∈ live.map (·.number)

section Manned

variable {es : List Entry} {executor executor' : Executor} {live before after : List LiveScan} {n : Nat}
variable {auditId : String}

lemma Manned.told {o : Option Entry} (manned : Manned es executor live)
    (unaccepted : ∀ auditId m, o ≠ some (.accepted auditId m))
    (length : executor'.jobs.length = executor.jobs.length) : Manned (es ++ o.toList) executor' live := by
  refine ⟨manned.keeps, length.symm ▸ manned.bounded, manned.distinct, fun owner m accepted => ?_⟩
  have before : .accepted owner m ∈ es := by
    obtain before | last := List.mem_append.mp accepted
    · exact before
    · exact absurd (Option.mem_toList.mp last) (unaccepted owner m)
  exact (manned.alive owner m before).imp_left (List.mem_append_left _)

/-- A scan that is accepted becomes live under a new number. -/
lemma Manned.accepts (manned : Manned es executor live) {engine : Engine}
    (length : executor'.jobs.length = executor.jobs.length + 1) :
    Manned (es ++ [.accepted auditId executor.jobs.length]) executor'
      (live ++ [⟨executor.jobs.length, auditId, Scan.run engine auditId⟩]) := by
  refine ⟨fun scan member => ?_, ?_, ?_, fun owner m accepted => ?_⟩
  · obtain old | new := List.mem_append.mp member
    · exact manned.keeps scan old
    · rw [List.mem_singleton.mp new]
      exact Scan.confined_run
  · rw [List.map_append, length]
    refine List.forall_mem_append.mpr ⟨fun m member => Nat.lt_succ_of_lt (manned.bounded m member), ?_⟩
    simp
  · rw [List.map_append, List.nodup_append]
    refine ⟨manned.distinct, List.nodup_singleton _, fun m old m' new => ?_⟩
    rw [List.map_singleton, List.mem_singleton] at new
    exact new ▸ Nat.ne_of_lt (manned.bounded m old)
  · rw [List.map_append]
    obtain old | new := List.mem_append.mp accepted
    · exact (manned.alive owner m old).imp (List.mem_append_left _) (List.mem_append_left _)
    · obtain ⟨rfl, rfl⟩ := Entry.accepted.inj (List.mem_singleton.mp new)
      exact .inr (List.mem_append_right _ List.mem_cons_self)

/-- A scan that is accepted becomes live, and nothing else does. -/
lemma Manned.follow {o : Option Entry} {engine : Engine} (manned : Manned es executor live)
    (due : ∀ e, o = some e → executor.Due es e) :
    Manned (es ++ o.toList) (o.elim executor executor.enter) (joined engine live o) := by
  by_cases accepts : ∃ auditId n, o = some (.accepted auditId n)
  · obtain ⟨auditId, n, rfl⟩ := accepts
    obtain ⟨accepting, rfl⟩ := due _ rfl
    refine manned.accepts ?_
    simp [Executor.enter, Executor.submit, accepting]
  · have unaccepted (auditId : String) (n : Nat) : o ≠ some (.accepted auditId n) := fun is =>
      accepts ⟨auditId, n, is⟩
    rw [joined_other unaccepted]
    refine manned.told unaccepted ?_
    cases o with
    | none => rfl
    | some e => exact Executor.length_enter fun owner m is => unaccepted owner m (congrArg some is)

/-- A scan that makes a call goes on. -/
lemma Manned.goes {c : Call} {next : c.Reply → Program (Except StoreError (Option AuditRecord))} (reply : c.Reply)
    (manned : Manned es executor (before ++ ⟨n, auditId, .call c next⟩ :: after)) :
    Manned es executor (before ++ ⟨n, auditId, next reply⟩ :: after) := by
  have keeps := manned.keeps
  simp only [List.forall_mem_append, List.forall_mem_cons] at keeps
  obtain ⟨first, caller, rest⟩ := keeps
  refine ⟨?_, by simpa using manned.bounded, by simpa using manned.distinct, by simpa using manned.alive⟩
  simp only [List.forall_mem_append, List.forall_mem_cons]
  exact ⟨first, caller.2 reply trivial, rest⟩

lemma Manned.ends {result : Except StoreError (Option AuditRecord)}
    (manned : Manned es executor (before ++ ⟨n, auditId, .done result⟩ :: after))
    (length : executor'.jobs.length = executor.jobs.length) :
    Manned (es ++ [.ended n]) executor' (before ++ after) := by
  have fewer : List.Sublist (before ++ after) (before ++ ⟨n, auditId, .done result⟩ :: after) :=
    (List.Sublist.refl before).append (List.sublist_cons_self _ _)
  refine ⟨fun scan member => manned.keeps scan (fewer.subset member), fun m member => ?_,
    manned.distinct.sublist (fewer.map _), fun owner m accepted => ?_⟩
  · rw [length]
    exact manned.bounded m ((fewer.map _).subset member)
  · have old : .accepted owner m ∈ es := by simpa using accepted
    have still := manned.alive owner m old
    simp only [List.map_append, List.map_cons, List.mem_append, List.mem_cons] at still ⊢
    obtain ended | first | rfl | rest := still
    · exact .inl (.inl ended)
    · exact .inr (.inl first)
    · exact .inl (.inr (.inl rfl))
    · exact .inr (.inr rest)

end Manned

/-- The request that is served, if there is one, tells all that was not told. -/
def Telling (es : List Entry) : Option Serving → Prop
  | none => Settled es
  | some s => ∃ e, s.program.Keeps (Scan.engagement s.auditId) (fun _ e => e = .free) e ∧ Engaged es s.auditId e

/-- An end and its report leave what is still to be told. -/
lemma Telling.told {es : List Entry} {serving : Option Serving} {e : Entry} (telling : Telling es serving)
    (unaccepted : ∀ auditId n, e ≠ .accepted auditId n) (unregistered : ∀ auditId n, e ≠ .registered auditId n)
    (unwatched : ∀ n, e ≠ .watched n) : Telling (es ++ [e]) serving := by
  cases serving with
  | none =>
    have engaged : Engaged es "" .free := telling
    exact engaged.told unaccepted unregistered unwatched
  | some s =>
    obtain ⟨state, keeps, engaged⟩ := telling
    exact ⟨state, keeps, engaged.told unaccepted unregistered unwatched⟩

/-- What the executor knows, the scans that are live, and what is still to be told. -/
structure Booked (hs : List Happening) (t : Traffic) : Prop where
  recorded : t.world.executor.Recorded (book hs)
  manned : Manned (book hs) t.world.executor t.live
  telling : Telling (book hs) t.serving

/-- An executor that was told nothing yet, and nothing goes on. -/
structure Blank (t : Traffic) : Prop where
  jobs : t.world.executor.jobs = []
  latest : t.world.executor.latest = []
  live : t.live = []
  serving : t.serving = none

lemma Blank.booked {t : Traffic} (blank : Blank t) : Booked [] t := by
  refine ⟨⟨?_, ?_, ?_, ?_, ?_⟩, ⟨?_, ?_, ?_, ?_⟩, ?_⟩
  · simp [blank.jobs]
  · simp [blank.jobs, book]
  · simp [book]
  · simp [book]
  · simp [blank.latest, book, registeredOf]
  · simp [blank.live]
  · simp [blank.live]
  · simp [blank.live]
  · simp [book]
  · rw [blank.serving]
    intro auditId
    simp [book, registeredOf, acceptedOf]

section Steps

variable {hs : List Happening} {h : Happening} {t₀ t t' : Traffic}

lemma Booked.serving_calls {k : Nat} {auditId : String} {c : Call}
    {next : c.Reply → Program (Except StoreError Scan.Acceptance)} (booked : Booked hs t)
    (serving : t.serving = some ⟨k, auditId, .call c next⟩) :
    Booked (hs ++ [.served k ⟨c, (t.world.perform c).1⟩])
      { t with
        world := (t.world.perform c).2
        live := t.liveAfter ⟨c, (t.world.perform c).1⟩
        serving := some ⟨k, auditId, next (t.world.perform c).1⟩ } := by
  have telling := booked.telling
  rw [serving] at telling
  obtain ⟨s, ⟨allowed, goes⟩, engaged⟩ := telling
  have due (e : Entry) := engaged.due (e := e) booked.recorded allowed
  have more : book (hs ++ [.served k ⟨c, (t.world.perform c).1⟩]) =
      book hs ++ (Exchange.entry? ⟨c, (t.world.perform c).1⟩).toList := book_concat _ _
  rw [liveAfter_eq_joined]
  refine ⟨?_, ?_, s.next ⟨c, (t.world.perform c).1⟩, goes _ trivial, ?_⟩
  · rw [more, World.executor_perform]
    exact booked.recorded.follow due
  · rw [more, World.executor_perform]
    exact booked.manned.follow due
  · rw [more]
    refine engaged.next allowed fun number accepted watched => ?_
    -- The executor has not heard of the number before.
    obtain ⟨-, rfl⟩ := due _ accepted
    exact Nat.lt_irrefl _ (booked.recorded.bounded _ (.inr watched))

lemma Booked.scan_calls {before after : List LiveScan} {n : Nat} {auditId : String} {c : Call}
    {next : c.Reply → Program (Except StoreError (Option AuditRecord))} (booked : Booked hs t)
    (live : t.live = before ++ ⟨n, auditId, .call c next⟩ :: after) :
    Booked (hs ++ [.scanned n ⟨c, (t.world.perform c).1⟩])
      { t with
        world := (t.world.perform c).2
        live := before ++ ⟨n, auditId, next (t.world.perform c).1⟩ :: after } := by
  have manned := live ▸ booked.manned
  have stays : c.StaysWith auditId := (manned.keeps ⟨n, auditId, .call c next⟩ (by simp)).1
  have same : book (hs ++ [.scanned n ⟨c, (t.world.perform c).1⟩]) = book hs := by
    simp [book_concat, Happening.entry?]
  have executor : (t.world.perform c).2.executor = t.world.executor := by
    rw [World.executor_perform, stays.quiet.entry?]
    rfl
  refine ⟨?_, ?_, same ▸ booked.telling⟩
  · rw [same, executor]
    exact booked.recorded
  · rw [same, executor]
    exact manned.goes _

lemma Booked.ends {before after : List LiveScan} {n : Nat} {auditId : String}
    {result : Except StoreError (Option AuditRecord)} (booked : Booked hs t)
    (live : t.live = before ++ ⟨n, auditId, .done result⟩ :: after) :
    Booked (hs ++ [.ended n result])
      { t with
        world := { t.world with executor := t.world.executor.finish n }
        live := before ++ after } := by
  have manned := live ▸ booked.manned
  have more : book (hs ++ [.ended n result]) = book hs ++ [.ended n] := book_concat _ _
  refine ⟨?_, ?_, ?_⟩
  · rw [more]
    exact booked.recorded.ends (manned.bounded n (by simp))
  · rw [more]
    exact manned.ends (Executor.length_enter (e := .ended n) (by simp))
  · rw [more]
    exact booked.telling.told (by simp) (by simp) (by simp)

lemma Booked.reports (booked : Booked hs t) (n : Nat) :
    Booked (hs ++ [.reported n])
      { t with world := { t.world with executor := t.world.executor.report n } } := by
  have more : book (hs ++ [.reported n]) = book hs ++ [.reported n] := book_concat _ _
  refine ⟨?_, ?_, ?_⟩
  · rw [more]
    exact booked.recorded.reports n
  · rw [more]
    exact booked.manned.told (o := some (.reported n)) (by simp) (Executor.length_enter (e := .reported n) (by simp))
  · rw [more]
    exact booked.telling.told (by simp) (by simp) (by simp)

/-- A step of which the executor hears nothing, and which no scan makes. -/
lemma Booked.rests (booked : Booked hs t) (unheard : h.entry? = none)
    (jobs : t'.world.executor.jobs = t.world.executor.jobs)
    (latest : t'.world.executor.latest = t.world.executor.latest) (live : t'.live = t.live)
    (telling : Telling (book hs) t'.serving) : Booked (hs ++ [h]) t' := by
  have same : book (hs ++ [h]) = book hs := by simp [book_concat, unheard]
  obtain ⟨⟨job, owner, bounded, known, last⟩, manned, -⟩ := booked
  rw [← jobs] at job owner bounded
  rw [← latest] at last
  refine ⟨?_, ?_, same ▸ telling⟩
  · rw [same]
    exact ⟨job, owner, bounded, known, last⟩
  · rw [same, live]
    exact ⟨manned.keeps, jobs.symm ▸ manned.bounded, manned.distinct, manned.alive⟩

/-- What the executor knows is what the entries say, after every step. -/
lemma Booked.step (booked : Booked hs t) (step : Step t h t') : Booked (hs ++ [h]) t' := by
  have telling := booked.telling
  cases step with
  | asked auditId waits =>
    rw [waits] at telling
    exact booked.rests rfl rfl rfl rfl ⟨.free, Scan.engaged_start auditId, telling⟩
  | served serving => exact booked.serving_calls serving
  | answered serving =>
    rw [serving] at telling
    obtain ⟨_, rfl, engaged⟩ := telling
    exact booked.rests rfl rfl rfl rfl engaged
  | scanned live => exact booked.scan_calls live
  | ended live => exact booked.ends live
  | reported n => exact booked.reports n
  | did errand => exact booked.rests rfl rfl rfl rfl telling
  | shifted now host accepting => exact booked.rests rfl rfl rfl rfl telling

lemma Booked.runs {more : List Happening} (booked : Booked hs t) (runs : Runs t more t') : Booked (hs ++ more) t' := by
  induction runs with
  | none => rwa [List.append_nil]
  | more _ step ih =>
    rw [← List.append_assoc]
    exact ih.step step

section Latest

variable {auditId : String} {n : Nat}

/-- Between requests, the scan of an audit that was accepted last is known, unless its end was called back. -/
lemma Booked.latest?_eq_some (booked : Booked hs t) (waits : t.serving = none) :
    t.world.executor.latest? auditId = some n ↔
      (acceptedOf auditId (book hs)).getLast? = some n ∧ ¬ CalledBack (book hs) n := by
  have settled := booked.telling
  rw [waits] at settled
  rw [booked.recorded.latest?_eq_some, (settled auditId).1]

/-- Nothing is known when all ends were called back. -/
lemma Booked.latest_eq_nil (booked : Booked hs t)
    (called : ∀ auditId n, .accepted auditId n ∈ book hs → CalledBack (book hs) n) :
    t.world.executor.latest = [] := by
  refine List.eq_nil_iff_forall_not_mem.mpr ?_
  rintro ⟨auditId, n⟩ listed
  obtain ⟨last, uncalled⟩ := (booked.recorded.latest auditId n).mp listed
  exact uncalled (called auditId n (booked.recorded.accepted_of_last last))

/-- A request registers the scan that was accepted last. -/
lemma Booked.last_of_registers {k : Nat} (booked : Booked hs t)
    (step : Step t (.served k ⟨.register auditId n, ()⟩) t') : (acceptedOf auditId (book hs)).getLast? = some n := by
  obtain ⟨owner, next, serving, -, -⟩ := step.served_inv
  have telling := booked.telling
  rw [serving] at telling
  obtain ⟨s, ⟨allowed, -⟩, engaged⟩ := telling
  cases s with
  | taken number =>
    obtain ⟨rfl, rfl⟩ := Call.register.inj allowed
    rw [(engaged.2 _).1, if_pos rfl, List.getLast?_concat]
  | free =>
    obtain same | quiet := allowed
    · cases same
    · exact quiet.elim
  | registered => cases allowed

/-- A scan that is known and has not ended stays known, until a newer scan of its audit takes its place. -/
lemma Booked.stays (booked : Booked hs t) (step : Step t h t') (known : t.world.executor.latest? auditId = some n)
    (unended : .ended n ∉ book hs) : t'.world.executor.latest? auditId = some n ∨
      ∃ k m, h = .served k ⟨.register auditId m, ()⟩ ∧ (acceptedOf auditId (book hs)).getLast? = some m := by
  have booked' := booked.step step
  rw [booked.recorded.latest?_eq_some] at known
  rw [booked'.recorded.latest?_eq_some, book_concat]
  by_cases registers : ∃ m, h.entry? = some (.registered auditId m)
  · obtain ⟨m, registers⟩ := registers
    obtain ⟨k, rfl⟩ := Happening.of_entry? registers
    exact .inr ⟨k, m, rfl, booked.last_of_registers step⟩
  · left
    cases told : h.entry? with
    | none => simpa using known
    | some e =>
      rw [told] at registers
      rw [Option.toList_some, calledBack_concat]
      refine ⟨?_, fun called => called.elim known.2 fun ends => unended ends.1⟩
      rw [registeredOf_concat_other fun m is => registers ⟨m, congrArg some is⟩]
      exact known.1

end Latest

end Steps

end Traffic

end RepoAudit
