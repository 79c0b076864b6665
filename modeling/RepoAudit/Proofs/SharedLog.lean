import Mathlib.Algebra.BigOperators.Fin
import Mathlib.Algebra.Order.BigOperators.Group.Finset
import Mathlib.Data.List.Chain
import Mathlib.Data.List.Infix
import RepoAudit.Proofs.Scan.Tenure
import RepoAudit.Proofs.Store.Effect

/-!
# Threads that share a log

Any number of threads add steps to one log. A call checks the status, takes the time, waits for the lock, and under it
appends an entry, copies the entries and publishes the copy. A call that reads the log copies the entries under the same
lock. Each of these is a step of its own, so `SharedLog.Runs` goes through every order in which the threads can take
them. Who has the lock knows how the entries stand to what was published last (`SharedLog.Stands`), and nobody else can
change that.
-/

namespace RepoAudit

/-- What a thread asks a log to add. -/
structure LogRequest where
  step : String
  status : String
  message : String
  deriving DecidableEq

namespace LogRequest

/-- True of a status that a step can have. -/
def isKnown (request : LogRequest) : Bool := (StepStatus.ofName? request.status).isSome

/-- The entry of the request at a time. -/
def entry (request : LogRequest) (now : Instant) : LogEntry := ⟨request.step, request.status, request.message, now.text⟩

/-- Adds what is asked for to a log that nobody shares. -/
def add (request : LogRequest) (log : ScanLog) (now : Instant) : Except ScanLog.UnknownStatus (LogEntry × ScanLog) :=
  log.add request.step request.status request.message now

lemma add_of_isKnown {request : LogRequest} (known : request.isKnown = true) (log : ScanLog) (now : Instant) :
    request.add log now = .ok (request.entry now, ⟨log.entries ++ [request.entry now]⟩) := by
  obtain ⟨status, is⟩ := Option.isSome_iff_exists.mp known
  have same : status.name = request.status := by simpa using List.find?_some is
  simp only [add, ScanLog.add, is, entry, same]

lemma add_of_not_isKnown {request : LogRequest} (unknown : request.isKnown = false) (log : ScanLog) (now : Instant) :
    request.add log now = .error ⟨request.status⟩ := by
  simp only [add, ScanLog.add, Option.isSome_eq_false_iff.mp unknown |> Option.isNone_iff_eq_none.mp]

end LogRequest

/-- What was asked for with an entry. -/
def LogEntry.request (entry : LogEntry) : LogRequest := ⟨entry.step, entry.status, entry.message⟩

namespace SharedLog

/-- Where a thread is. -/
inductive Place where
  | idle
  | called (request : LogRequest)
  /-- The status is known. -/
  | checked (request : LogRequest)
  /-- The entry waits for the lock. -/
  | stamped (entry : LogEntry)
  | adding (entry : LogEntry)
  | added (entry : LogEntry)
  | copied (entry : LogEntry) (snapshot : List LogEntry)
  | published (entry : LogEntry)
  /-- Waits for the lock to read. -/
  | asking
  | reading
  | read (entries : List LogEntry)

/-- True of a thread that has the lock. -/
def Place.hasLock : Place → Bool
  | adding _ | added _ | copied _ _ | published _ | reading | read _ => true
  | _ => false

/-- The request that is under way: neither refused nor published. -/
def Place.request? : Place → Option LogRequest
  | called request | checked request => some request
  | stamped entry | adding entry | added entry | copied entry _ => some entry.request
  | _ => none

/-- What the call of a listener makes of the store. It does not fail. -/
abbrev Listener := List LogEntry → Ledger → Ledger → Prop

end SharedLog

open SharedLog in
/-- A log with its lock and the threads that use it, beside the store of audits. -/
structure SharedLog (n : Nat) where
  entries : List LogEntry
  holder : Option (Fin n)
  place : Fin n → Place
  ledger : Ledger

namespace SharedLog

variable {n : Nat}

/-- A log that nobody has used yet. -/
structure IsFresh (s : SharedLog n) : Prop where
  entries : s.entries = []
  holder : s.holder = none
  place : ∀ thread, s.place thread = .idle

/-- A thread goes on. -/
def goes (s : SharedLog n) (thread : Fin n) (place : Place) : SharedLog n :=
  { s with place := Function.update s.place thread place }

/-- A thread takes the lock. -/
def locked (s : SharedLog n) (thread : Fin n) : SharedLog n := { s with holder := some thread }

/-- The lock is given back. -/
def unlocked (s : SharedLog n) : SharedLog n := { s with holder := none }

/-- The log with an entry at its end. -/
def extended (s : SharedLog n) (entry : LogEntry) : SharedLog n := { s with entries := s.entries ++ [entry] }

/-- The log beside another state of the store. -/
def beside (s : SharedLog n) (ledger : Ledger) : SharedLog n := { s with ledger }

/-- What can be seen of a step. -/
inductive Event (n : Nat) where
  | called (thread : Fin n) (request : LogRequest)
  | refused (thread : Fin n) (error : ScanLog.UnknownStatus)
  /-- A step within a call. -/
  | moved (thread : Fin n)
  /-- The listener is called. -/
  | published (thread : Fin n) (snapshot : List LogEntry)
  | returned (thread : Fin n) (entry : LogEntry)
  | asked (thread : Fin n)
  | told (thread : Fin n) (entries : List LogEntry)
  /-- The store is changed by others. -/
  | changed (before after : Ledger)

/-- One step of one thread, or a change of the store. -/
inductive Step (listener : Listener) : SharedLog n → Event n → SharedLog n → Prop
  | call {s : SharedLog n} {thread : Fin n} (request : LogRequest) : s.place thread = .idle →
    Step listener s (.called thread request) (s.goes thread (.called request))
  | refuse {s : SharedLog n} {thread : Fin n} {request : LogRequest} : s.place thread = .called request →
    request.isKnown = false → Step listener s (.refused thread ⟨request.status⟩) (s.goes thread .idle)
  | check {s : SharedLog n} {thread : Fin n} {request : LogRequest} : s.place thread = .called request →
    request.isKnown = true → Step listener s (.moved thread) (s.goes thread (.checked request))
  | stamp {s : SharedLog n} {thread : Fin n} {request : LogRequest} (now : Instant) :
    s.place thread = .checked request →
    Step listener s (.moved thread) (s.goes thread (.stamped (request.entry now)))
  | lock {s : SharedLog n} {thread : Fin n} {entry : LogEntry} : s.place thread = .stamped entry → s.holder = none →
    Step listener s (.moved thread) ((s.locked thread).goes thread (.adding entry))
  | append {s : SharedLog n} {thread : Fin n} {entry : LogEntry} : s.place thread = .adding entry →
    Step listener s (.moved thread) ((s.extended entry).goes thread (.added entry))
  | copy {s : SharedLog n} {thread : Fin n} {entry : LogEntry} : s.place thread = .added entry →
    Step listener s (.moved thread) (s.goes thread (.copied entry s.entries))
  | publish {s : SharedLog n} {thread : Fin n} {entry : LogEntry} {snapshot : List LogEntry} {ledger : Ledger} :
    s.place thread = .copied entry snapshot → listener snapshot s.ledger ledger →
    Step listener s (.published thread snapshot) ((s.beside ledger).goes thread (.published entry))
  | leave {s : SharedLog n} {thread : Fin n} {entry : LogEntry} : s.place thread = .published entry →
    Step listener s (.returned thread entry) (s.unlocked.goes thread .idle)
  | ask {s : SharedLog n} {thread : Fin n} : s.place thread = .idle →
    Step listener s (.asked thread) (s.goes thread .asking)
  | lockToRead {s : SharedLog n} {thread : Fin n} : s.place thread = .asking → s.holder = none →
    Step listener s (.moved thread) ((s.locked thread).goes thread .reading)
  | read {s : SharedLog n} {thread : Fin n} : s.place thread = .reading →
    Step listener s (.moved thread) (s.goes thread (.read s.entries))
  | tell {s : SharedLog n} {thread : Fin n} {entries : List LogEntry} : s.place thread = .read entries →
    Step listener s (.told thread entries) (s.unlocked.goes thread .idle)
  | change {s : SharedLog n} (ledger : Ledger) : Step listener s (.changed s.ledger ledger) (s.beside ledger)

/-- Any number of steps, with what was seen of them. -/
inductive Runs (listener : Listener) : SharedLog n → List (Event n) → SharedLog n → Prop
  | nil (s : SharedLog n) : Runs listener s [] s
  | snoc {s s' s'' : SharedLog n} {hs : List (Event n)} (h : Event n) :
    Runs listener s hs s' → Step listener s' h s'' → Runs listener s (hs ++ [h]) s''

/-! ### What was seen -/

/-- The snapshots that the listener was called with. -/
def snapshots (hs : List (Event n)) : List (List LogEntry) :=
  hs.filterMap fun
    | .published _ snapshot => some snapshot
    | _ => none

/-- The snapshot that was published last; before the first one, nothing. -/
def lastSnapshot (hs : List (Event n)) : List LogEntry := (snapshots hs).getLastD []

/-- What a thread asked for, in its order. -/
def requests (thread : Fin n) (hs : List (Event n)) : List LogRequest :=
  hs.filterMap fun
    | .called other request => if other = thread then some request else none
    | _ => none

/-- The entries that were published, the last ones of the snapshots, with the threads that published them. -/
def published (hs : List (Event n)) : List (Fin n × LogEntry) :=
  hs.filterMap fun
    | .published thread snapshot => snapshot.getLast?.map (thread, ·)
    | _ => none

/-- The entries that a thread has published. -/
def publishedBy (thread : Fin n) (hs : List (Event n)) : List LogEntry :=
  ((published hs).filter (·.1 = thread)).map (·.2)

/-- The errors that a thread was given. -/
def refusals (thread : Fin n) (hs : List (Event n)) : List ScanLog.UnknownStatus :=
  hs.filterMap fun
    | .refused other error => if other = thread then some error else none
    | _ => none

/-- The second list is what comes of the first when a step with a known status is added, and has one more entry. -/
def Adds (before after : List LogEntry) : Prop :=
  ∃ (request : LogRequest) (now : Instant) (entry : LogEntry),
    request.add ⟨before⟩ now = .ok (entry, ⟨after⟩) ∧ after = before ++ [entry]

/-! ### Who has the lock -/

/-- How the entries stand to what was published last, where a thread has the lock. -/
def Stands (entries last : List LogEntry) : Place → Prop
  | .adding _ | .published _ | .reading => entries = last
  | .added entry => entries = last ++ [entry]
  | .copied entry snapshot => entries = last ++ [entry] ∧ snapshot = entries
  | .read told => entries = last ∧ told = entries
  | _ => True

/-- At most one thread has the lock, and between calls the entries are what was published last. -/
structure Guarded (s : SharedLog n) (hs : List (Event n)) : Prop where
  lock : ∀ thread, (s.place thread).hasLock = true ↔ s.holder = some thread
  stands : ∀ thread, Stands s.entries (lastSnapshot hs) (s.place thread)
  free : s.holder = none → s.entries = lastSnapshot hs

section Steps

variable {listener : Listener} {s s' : SharedLog n} {hs : List (Event n)} {h : Event n} {thread : Fin n}
variable {place : Place}

@[simp] lemma place_goes_self : (s.goes thread place).place thread = place := Function.update_self ..

lemma place_goes_of_ne {other : Fin n} (apart : other ≠ thread) : (s.goes thread place).place other = s.place other :=
  Function.update_of_ne apart ..

lemma stands_of_not_hasLock {entries last : List LogEntry} (lacks : place.hasLock = false) :
    Stands entries last place := by
  cases place with
  | idle | called _ | checked _ | stamped _ | asking => trivial
  | adding _ | added _ | copied _ _ | published _ | reading | read _ => cases lacks

/-- A thread without the lock goes on and does not take it. -/
lemma Guarded.outside (guarded : Guarded s hs) (same : lastSnapshot (hs ++ [h]) = lastSnapshot hs)
    (lacked : (s.place thread).hasLock = false) (lacks : place.hasLock = false) :
    Guarded (s.goes thread place) (hs ++ [h]) := by
  refine ⟨fun other => ?_, fun other => ?_, fun free => same ▸ guarded.free free⟩
  · by_cases is : other = thread
    · subst is
      rw [place_goes_self, lacks, ← lacked]
      exact guarded.lock other
    · rw [place_goes_of_ne is]
      exact guarded.lock other
  · rw [same]
    by_cases is : other = thread
    · subst is
      rw [place_goes_self]
      exact stands_of_not_hasLock lacks
    · rw [place_goes_of_ne is]
      exact guarded.stands other

/-- A thread goes on that has the lock, takes it or gives it back; the others neither have it nor get it. -/
lemma Guarded.inside {entries : List LogEntry} {holder : Option (Fin n)} {ledger : Ledger} (guarded : Guarded s hs)
    (had : s.holder = none ∨ s.holder = some thread) (has : holder = if place.hasLock then some thread else none)
    (stands : Stands entries (lastSnapshot (hs ++ [h])) place)
    (free : place.hasLock = false → entries = lastSnapshot (hs ++ [h])) :
    Guarded (goes { s with entries, holder, ledger } thread place) (hs ++ [h]) := by
  have lacks {other : Fin n} (apart : other ≠ thread) : (s.place other).hasLock = false := by
    rw [Bool.eq_false_iff, Ne, guarded.lock]
    intro is
    obtain none | some := had
    · rw [none] at is
      cases is
    · exact apart (Option.some.inj (is.symm.trans some))
  refine ⟨fun other => ?_, fun other => ?_, fun is => free ?_⟩
  · by_cases is : other = thread
    · subst is
      rw [place_goes_self]
      show _ ↔ holder = some other
      cases hasLock : place.hasLock <;> simp [has, hasLock]
    · rw [place_goes_of_ne is]
      show (s.place other).hasLock = true ↔ holder = some other
      rw [lacks is, has]
      split <;> simp [Ne.symm is]
  · by_cases is : other = thread
    · subst is
      rw [place_goes_self]
      exact stands
    · rw [place_goes_of_ne is]
      exact stands_of_not_hasLock (lacks is)
  · replace is : holder = none := is
    cases hasLock : place.hasLock with
    | false => rfl
    | true =>
      rw [has, hasLock] at is
      cases is

lemma snapshots_append (hs more : List (Event n)) : snapshots (hs ++ more) = snapshots hs ++ snapshots more :=
  List.filterMap_append

lemma published_append (hs more : List (Event n)) : published (hs ++ more) = published hs ++ published more :=
  List.filterMap_append

lemma lastSnapshot_published (hs : List (Event n)) (thread : Fin n) (snapshot : List LogEntry) :
    lastSnapshot (hs ++ [.published thread snapshot]) = snapshot := by
  rw [lastSnapshot, snapshots_append]
  exact List.getLastD_concat

/-- Only the call of the listener publishes. -/
lemma lastSnapshot_of_none {h : Event n} (none : snapshots [h] = []) (hs : List (Event n)) :
    lastSnapshot (hs ++ [h]) = lastSnapshot hs := by
  rw [lastSnapshot, snapshots_append, none, List.append_nil, lastSnapshot]

lemma Guarded.step (guarded : Guarded s hs) (step : Step listener s h s') : Guarded s' (hs ++ [h]) := by
  have stands {thread : Fin n} {place : Place} (isAt : s.place thread = place) :
      Stands s.entries (lastSnapshot hs) place := isAt ▸ guarded.stands thread
  have held {thread : Fin n} {place : Place} (isAt : s.place thread = place) (hasLock : place.hasLock = true) :
      s.holder = some thread := (guarded.lock thread).mp (isAt ▸ hasLock)
  cases step with
  | call _ isAt | check isAt _ | stamp _ isAt | refuse isAt _ | ask isAt =>
    exact guarded.outside (lastSnapshot_of_none rfl hs) (by rw [isAt]; rfl) rfl
  | lock isAt free | lockToRead isAt free =>
    exact guarded.inside (.inl free) rfl ((guarded.free free).trans (lastSnapshot_of_none rfl hs).symm) (nomatch ·)
  | append isAt =>
    refine guarded.inside (.inr (held isAt rfl)) (held isAt rfl) ?_ (nomatch ·)
    rw [lastSnapshot_of_none rfl]
    exact congrArg (· ++ _) (stands isAt)
  | copy isAt =>
    refine guarded.inside (.inr (held isAt rfl)) (held isAt rfl) ?_ (nomatch ·)
    rw [lastSnapshot_of_none rfl]
    exact ⟨stands isAt, rfl⟩
  | publish isAt listens =>
    refine guarded.inside (.inr (held isAt rfl)) (held isAt rfl) ?_ (nomatch ·)
    rw [lastSnapshot_published]
    exact (stands isAt).2.symm
  | leave isAt =>
    refine guarded.inside (.inr (held isAt rfl)) rfl trivial fun _ => ?_
    rw [lastSnapshot_of_none rfl]
    exact stands isAt
  | read isAt =>
    refine guarded.inside (.inr (held isAt rfl)) (held isAt rfl) ?_ (nomatch ·)
    rw [lastSnapshot_of_none rfl]
    exact ⟨stands isAt, rfl⟩
  | tell isAt =>
    refine guarded.inside (.inr (held isAt rfl)) rfl trivial fun _ => ?_
    rw [lastSnapshot_of_none rfl]
    exact (stands isAt).1
  | change ledger =>
    refine ⟨guarded.lock, ?_, ?_⟩ <;> rw [lastSnapshot_of_none rfl]
    · exact guarded.stands
    · exact guarded.free

lemma IsFresh.guarded (fresh : s.IsFresh) : Guarded s [] := by
  refine ⟨fun thread => ?_, fun thread => ?_, fun _ => fresh.entries⟩ <;> rw [fresh.place]
  · simp [fresh.holder, Place.hasLock]
  · trivial

lemma guarded_of_runs (fresh : s.IsFresh) (runs : Runs listener s hs s') : Guarded s' hs := by
  induction runs with
  | nil => exact fresh.guarded
  | snoc _ _ step ih => exact ih.step step

/-! ### What the snapshots are -/

/-- An entry of a request with a known status. -/
def IsEntry (entry : LogEntry) : Prop :=
  ∃ (request : LogRequest) (now : Instant), request.isKnown = true ∧ entry = request.entry now

/-- After the check the status is known. -/
def Checked : Place → Prop
  | .checked request => request.isKnown = true
  | .stamped entry | .adding entry | .added entry | .copied entry _ => IsEntry entry
  | _ => True

lemma checked_goes (checked : ∀ thread, Checked (s.place thread)) (here : Checked place) (other : Fin n) :
    Checked ((s.goes thread place).place other) := by
  by_cases is : other = thread
  · subst is
    rw [place_goes_self]
    exact here
  · rw [place_goes_of_ne is]
    exact checked other

lemma checked_step (checked : ∀ thread, Checked (s.place thread)) (step : Step listener s h s') :
    ∀ thread, Checked (s'.place thread) := by
  have here {thread : Fin n} {place : Place} (isAt : s.place thread = place) : Checked place := isAt ▸ checked thread
  cases step with
  | check isAt known => exact checked_goes checked known
  | stamp now isAt => exact checked_goes checked ⟨_, now, here isAt, rfl⟩
  | lock isAt _ | append isAt | copy isAt =>
    have isEntry : IsEntry _ := here isAt
    exact checked_goes (s := s) checked isEntry
  | change ledger => exact checked
  | _ => exact checked_goes (s := s) checked trivial

lemma checked_of_runs (fresh : s.IsFresh) (runs : Runs listener s hs s') : ∀ thread, Checked (s'.place thread) := by
  induction runs with
  | nil =>
    intro thread
    rw [fresh.place]
    trivial
  | snoc _ _ step ih => exact checked_step ih step

lemma Adds.of_isEntry {entry : LogEntry} (isEntry : IsEntry entry) (entries : List LogEntry) :
    Adds entries (entries ++ [entry]) := by
  obtain ⟨request, now, known, rfl⟩ := isEntry
  exact ⟨request, now, _, request.add_of_isKnown known ⟨entries⟩ now, rfl⟩

/-- What is published is the copy that the thread has. -/
lemma Step.publishes (step : Step listener s h s') : snapshots [h] = [] ∨
    ∃ thread entry snapshot, s.place thread = .copied entry snapshot ∧ h = .published thread snapshot := by
  cases step with
  | publish isAt _ => exact .inr ⟨_, _, _, isAt, rfl⟩
  | _ => exact .inl rfl

/-- What is published is what was published before and one entry of a request. -/
lemma published_snapshot (fresh : s.IsFresh) (runs : Runs listener s hs s') {entry : LogEntry}
    {snapshot : List LogEntry} (isAt : s'.place thread = .copied entry snapshot) :
    snapshot = lastSnapshot hs ++ [entry] ∧ IsEntry entry := by
  have stands := (guarded_of_runs fresh runs).stands thread
  have isEntry := checked_of_runs fresh runs thread
  rw [isAt] at stands isEntry
  exact ⟨stands.2.trans stands.1, isEntry⟩

/-- Each snapshot has one more entry than the one before it. -/
lemma isChain_snapshots (fresh : s.IsFresh) (runs : Runs listener s hs s') :
    List.IsChain Adds ([] :: snapshots hs) := by
  induction runs with
  | nil => exact .singleton _
  | @snoc s' s'' hs h runs step ih =>
    obtain none | ⟨thread, entry, snapshot, isAt, rfl⟩ := step.publishes
    · rwa [snapshots_append, none, List.append_nil]
    · obtain ⟨rfl, isEntry⟩ := published_snapshot fresh runs isAt
      rw [snapshots_append, ← List.cons_append, List.isChain_append]
      refine ⟨ih, .singleton _, fun last isLast next isNext => ?_⟩
      rw [List.getLast?_cons, ← List.getLastD_eq_getLast?] at isLast
      obtain rfl := Option.some.inj isLast
      obtain rfl := Option.some.inj isNext
      exact .of_isEntry isEntry _

/-- The last snapshot is what the threads have published, in one order. -/
lemma map_published (fresh : s.IsFresh) (runs : Runs listener s hs s') :
    (published hs).map (·.2) = lastSnapshot hs := by
  induction runs with
  | nil => rfl
  | @snoc s' s'' hs h runs step ih =>
    rw [published_append, List.map_append, ih]
    obtain none | ⟨thread, entry, snapshot, isAt, rfl⟩ := step.publishes
    · rw [lastSnapshot_of_none none]
      cases step with
      | publish isAt _ => cases none
      | _ => exact List.append_nil _
    · obtain ⟨rfl, -⟩ := published_snapshot fresh runs isAt
      rw [lastSnapshot_published]
      simp [published]

/-! ### The account of a thread -/

/-- The requests with a known status. -/
def known (asked : List LogRequest) : List LogRequest := asked.filter LogRequest.isKnown

/-- The errors of the other requests. -/
def errors (asked : List LogRequest) : List ScanLog.UnknownStatus :=
  (asked.filter (!LogRequest.isKnown ·)).map (⟨LogRequest.status ·⟩)

/-- The request of a thread that is under way, if there is one. -/
def underWay (s : SharedLog n) (thread : Fin n) : List LogRequest := (s.place thread).request?.toList

/-- Every request of a thread with a known status is published or under way, in the order of the requests, and every
other one is refused or under way. -/
structure Accounts (thread : Fin n) (s : SharedLog n) (hs : List (Event n)) : Prop where
  once : known (requests thread hs) = (publishedBy thread hs).map LogEntry.request ++ known (s.underWay thread)
  refused : errors (requests thread hs) = refusals thread hs ++ errors (s.underWay thread)

lemma known_append (asked more : List LogRequest) : known (asked ++ more) = known asked ++ known more :=
  List.filter_append ..

lemma errors_append (asked more : List LogRequest) : errors (asked ++ more) = errors asked ++ errors more := by
  rw [errors, List.filter_append, List.map_append, errors, errors]

lemma underWay_goes_self : (s.goes thread place).underWay thread = place.request?.toList := by
  rw [underWay, place_goes_self]

lemma underWay_goes_of_ne {other : Fin n} (apart : thread ≠ other) :
    (s.goes other place).underWay thread = s.underWay thread := by
  rw [underWay, place_goes_of_ne apart, underWay]

lemma underWay_goes {other : Fin n} (same : place.request? = (s.place other).request?) (thread : Fin n) :
    (s.goes other place).underWay thread = s.underWay thread := by
  by_cases is : thread = other
  · subst is
    rw [underWay_goes_self, same, underWay]
  · exact underWay_goes_of_ne is

/-- Nothing of a thread is seen in a step, and what it has under way stays. -/
structure Quiet (thread : Fin n) (s : SharedLog n) (h : Event n) (s' : SharedLog n) : Prop where
  requests : requests thread [h] = []
  publishedBy : publishedBy thread [h] = []
  refusals : refusals thread [h] = []
  underWay : s'.underWay thread = s.underWay thread

/-- What a step is for a thread: nothing, or a call of its own, or the end of one that is under way. -/
inductive Turn (thread : Fin n) (s : SharedLog n) (s' : SharedLog n) : Event n → Prop
  | quiet {h : Event n} : Quiet thread s h s' → Turn thread s s' h
  | called (request : LogRequest) : s.underWay thread = [] → s'.underWay thread = [request] →
    Turn thread s s' (.called thread request)
  | refused {request : LogRequest} : request.isKnown = false → s.underWay thread = [request] →
    s'.underWay thread = [] → Turn thread s s' (.refused thread ⟨request.status⟩)
  | published {entry : LogEntry} {snapshot : List LogEntry} : s.place thread = .copied entry snapshot →
    s'.underWay thread = [] → Turn thread s s' (.published thread snapshot)

lemma Step.turn (step : Step listener s h s') (thread : Fin n) : Turn thread s s' h := by
  cases step with
  | @call other request isAt =>
    by_cases is : thread = other
    · subst is
      exact .called request (by rw [underWay, isAt]; rfl) underWay_goes_self
    · refine .quiet ⟨?_, rfl, rfl, underWay_goes_of_ne is⟩
      simp [requests, Ne.symm is]
  | @refuse other request isAt unknown =>
    by_cases is : thread = other
    · subst is
      exact .refused unknown (by rw [underWay, isAt]; rfl) underWay_goes_self
    · refine .quiet ⟨rfl, rfl, ?_, underWay_goes_of_ne is⟩
      simp [refusals, Ne.symm is]
  | @publish other entry snapshot ledger isAt listens =>
    by_cases is : thread = other
    · subst is
      exact .published isAt underWay_goes_self
    · refine .quiet ⟨rfl, ?_, rfl, underWay_goes_of_ne is⟩
      cases last : snapshot.getLast? <;> simp [publishedBy, published, last, Ne.symm is]
  | change ledger => exact .quiet ⟨rfl, rfl, rfl, rfl⟩
  | check isAt _ | stamp _ isAt | lock isAt _ | append isAt | copy isAt | leave isAt | ask isAt | lockToRead isAt _
  | read isAt | tell isAt =>
    exact .quiet ⟨rfl, rfl, rfl, underWay_goes (s := s) (by rw [isAt]; rfl) thread⟩

/-- What was under way or is asked for is settled by a step, or it is under way. -/
lemma Accounts.next (accounts : Accounts thread s hs)
    (once : known (s.underWay thread) ++ known (requests thread [h]) =
      (publishedBy thread [h]).map LogEntry.request ++ known (s'.underWay thread))
    (refused : errors (s.underWay thread) ++ errors (requests thread [h]) =
      refusals thread [h] ++ errors (s'.underWay thread)) : Accounts thread s' (hs ++ [h]) := by
  have asked : requests thread (hs ++ [h]) = requests thread hs ++ requests thread [h] := List.filterMap_append
  have told : refusals thread (hs ++ [h]) = refusals thread hs ++ refusals thread [h] := List.filterMap_append
  have seen : publishedBy thread (hs ++ [h]) = publishedBy thread hs ++ publishedBy thread [h] := by
    rw [publishedBy, published_append, List.filter_append, List.map_append, publishedBy, publishedBy]
  constructor
  · rw [asked, seen, known_append, accounts.once, List.map_append, List.append_assoc, List.append_assoc, once]
  · rw [asked, told, errors_append, accounts.refused, List.append_assoc, List.append_assoc, refused]

lemma accounts_of_runs (fresh : s.IsFresh) (runs : Runs listener s hs s') (thread : Fin n) :
    Accounts thread s' hs := by
  induction runs with
  | nil =>
    have none : s.underWay thread = [] := by
      rw [underWay, fresh.place]
      rfl
    constructor <;> rw [none] <;> rfl
  | @snoc s' s'' hs h runs step accounts =>
    obtain quiet | ⟨request, before, after⟩ | ⟨unknown, before, after⟩ | ⟨isAt, after⟩ := step.turn thread
    · refine accounts.next ?_ ?_
      · rw [quiet.requests, quiet.publishedBy, quiet.underWay]
        exact List.append_nil _
      · rw [quiet.requests, quiet.refusals, quiet.underWay]
        exact List.append_nil _
    · refine accounts.next ?_ ?_ <;> simp [before, after, requests, publishedBy, published, refusals, known, errors]
    · refine accounts.next ?_ ?_ <;>
        simp [before, after, requests, publishedBy, published, refusals, known, errors, unknown]
    · obtain ⟨rfl, request, now, isKnown, rfl⟩ := published_snapshot fresh runs isAt
      have before : s'.underWay thread = [request] := by
        rw [underWay, isAt]
        rfl
      refine accounts.next ?_ ?_ <;> simp [before, after, requests, publishedBy, published, refusals, known, errors,
        LogEntry.request, LogRequest.entry, isKnown]

/-! ### Calls come to an end -/

/-- True of what starts a call, and of a change of the store. -/
def Event.opens : Event n → Bool
  | called _ _ | asked _ | changed _ _ => true
  | _ => false

/-- The steps that are left of a call. -/
def Place.left : Place → Nat
  | idle => 0
  | called _ => 7
  | checked _ => 6
  | stamped _ => 5
  | adding _ => 4
  | added _ => 3
  | copied _ _ => 2
  | published _ => 1
  | asking => 3
  | reading => 2
  | read _ => 1

/-- The steps that are left of all calls. -/
def left (s : SharedLog n) : Nat := ∑ thread, (s.place thread).left

lemma left_goes {other : Fin n} (less : place.left < (s.place other).left) : (s.goes other place).left < s.left := by
  refine Finset.sum_lt_sum (fun thread _ => ?_) ⟨other, Finset.mem_univ _, ?_⟩
  · by_cases is : thread = other
    · subst is
      rw [place_goes_self]
      exact Nat.le_of_lt less
    · rw [place_goes_of_ne is]
  · rw [place_goes_self]
    exact less

lemma Step.left_lt (step : Step listener s h s') (within : h.opens = false) : s'.left < s.left := by
  cases step with
  | call _ _ | ask _ | change _ => cases within
  | refuse isAt _ | check isAt _ | stamp _ isAt | lock isAt _ | append isAt | copy isAt | publish isAt _ | leave isAt
  | lockToRead isAt _ | read isAt | tell isAt =>
    exact left_goes (s := s) (by rw [isAt]; simp [Place.left])

/-- Without new calls there is an end to the steps. -/
lemma length_add_left_le (runs : Runs listener s hs s') (within : ∀ h ∈ hs, h.opens = false) :
    hs.length + s'.left ≤ s.left := by
  induction runs with
  | nil => exact Nat.le_of_eq (Nat.zero_add _)
  | snoc h runs step ih =>
    have less := step.left_lt (within _ (List.mem_append_right _ List.mem_cons_self))
    have upTo := ih fun h inside => within h (List.mem_append_left _ inside)
    rw [List.length_append, List.length_singleton]
    omega

/-- As long as a call is under way, one of the threads can go on. -/
lemma Guarded.goes_on (guarded : Guarded s hs) (answers : ∀ snapshot ledger, ∃ after, listener snapshot ledger after)
    {busy : Fin n} (isBusy : s.place busy ≠ .idle) : ∃ h s', Step listener s h s' ∧ h.opens = false := by
  cases holds : s.holder with
  | some thread =>
    have hasLock := (guarded.lock thread).mpr holds
    cases isAt : s.place thread with
    | adding entry => exact ⟨_, _, .append isAt, rfl⟩
    | added entry => exact ⟨_, _, .copy isAt, rfl⟩
    | copied entry snapshot =>
      obtain ⟨ledger, listens⟩ := answers snapshot s.ledger
      exact ⟨_, _, .publish isAt listens, rfl⟩
    | published entry => exact ⟨_, _, .leave isAt, rfl⟩
    | reading => exact ⟨_, _, .read isAt, rfl⟩
    | read entries => exact ⟨_, _, .tell isAt, rfl⟩
    | idle | called _ | checked _ | stamped _ | asking =>
      rw [isAt] at hasLock
      cases hasLock
  | none =>
    have lacks : (s.place busy).hasLock = false := by
      rw [Bool.eq_false_iff, Ne, guarded.lock, holds]
      exact nofun
    cases isAt : s.place busy with
    | idle => exact absurd isAt isBusy
    | called request =>
      cases known : request.isKnown with
      | false => exact ⟨_, _, .refuse isAt known, rfl⟩
      | true => exact ⟨_, _, .check isAt known, rfl⟩
    | checked request => exact ⟨_, _, .stamp s.ledger.now isAt, rfl⟩
    | stamped entry => exact ⟨_, _, .lock isAt holds, rfl⟩
    | asking => exact ⟨_, _, .lockToRead isAt holds, rfl⟩
    | adding _ | added _ | copied _ _ | published _ | reading | read _ =>
      rw [isAt] at lacks
      cases lacks

/-! ### The log that is kept -/

/-- The listener of a scan: it keeps the snapshot in the audit. -/
def keeping (auditId : String) : Listener := fun snapshot ledger after =>
  ∃ reply, Ledger.Action.on
    (Ledger.updateAudit auditId [(.scanLog, Json.ofList LogEntry.toJson snapshot)]) ledger = (.ok reply, after)

/-- Others leave the log of an audit, though the audit may go. -/
def Event.LeavesLog (auditId : String) : Event n → Prop
  | changed before after => ∀ later, after.store.audit? auditId = some later →
    ∃ audit, before.store.audit? auditId = some audit ∧ later.scanLog = audit.scanLog
  | _ => True

/-- The log that an audit has after a run: what was kept last, or what it had. -/
def keptLog (audit : AuditRecord) (hs : List (Event n)) : Json :=
  if snapshots hs = [] then audit.scanLog else Json.ofList LogEntry.toJson (lastSnapshot hs)

lemma keptLog_of_none {h : Event n} (none : snapshots [h] = []) (audit : AuditRecord) (hs : List (Event n)) :
    keptLog audit (hs ++ [h]) = keptLog audit hs := by
  rw [keptLog, snapshots_append, none, List.append_nil, lastSnapshot_of_none none, keptLog]

lemma keptLog_published (audit : AuditRecord) (hs : List (Event n)) (thread : Fin n) (snapshot : List LogEntry) :
    keptLog audit (hs ++ [.published thread snapshot]) = Json.ofList LogEntry.toJson snapshot := by
  rw [keptLog, if_neg, lastSnapshot_published]
  rw [snapshots_append]
  exact List.append_ne_nil_of_right_ne_nil _ (List.cons_ne_nil _ _)

lemma keeping_keeps {auditId : String} {snapshot : List LogEntry} {ledger after : Ledger}
    (keeps : keeping auditId snapshot ledger after) {later : AuditRecord}
    (found : after.store.audit? auditId = some later) :
    later.scanLog = Json.ofList LogEntry.toJson snapshot ∧ ∃ audit, ledger.store.audit? auditId = some audit := by
  obtain ⟨reply, does⟩ := keeps
  obtain ⟨missing, same⟩ | ⟨audit, reply', disk, is, -, changed⟩ := Ledger.updateAudit_on auditId _ ledger
  · obtain ⟨-, rfl⟩ := Prod.mk.inj (does.symm.trans same)
    rw [missing] at found
    cases found
  · obtain ⟨-, rfl⟩ := Prod.mk.inj (does.symm.trans changed)
    rw [Store.audit?_putAudit, AuditRecord.change_id, Store.id_of_audit? is, if_pos rfl] at found
    obtain rfl := Option.some.inj found
    exact ⟨rfl, audit, is⟩

lemma keptLog_of_runs {auditId : String} (runs : Runs (keeping auditId) s hs s')
    (leaves : ∀ h ∈ hs, h.LeavesLog auditId) {later : AuditRecord}
    (found : s'.ledger.store.audit? auditId = some later) :
    ∃ audit, s.ledger.store.audit? auditId = some audit ∧ later.scanLog = keptLog audit hs := by
  induction runs generalizing later with
  | nil => exact ⟨later, found, rfl⟩
  | @snoc s' s'' hs h runs step ih =>
    have before {later : AuditRecord} (found : s'.ledger.store.audit? auditId = some later) :=
      ih (fun h inside => leaves h (List.mem_append_left _ inside)) found
    have here := leaves h (List.mem_append_right _ List.mem_cons_self)
    cases step with
    | publish isAt keeps =>
      obtain ⟨kept, middle, found'⟩ := keeping_keeps keeps found
      obtain ⟨audit, is, -⟩ := before found'
      exact ⟨audit, is, by rw [kept, keptLog_published]⟩
    | change ledger =>
      obtain ⟨middle, found', same⟩ := here later found
      obtain ⟨audit, is, kept⟩ := before found'
      exact ⟨audit, is, by rw [same, kept, keptLog_of_none rfl]⟩
    | _ =>
      obtain ⟨audit, is, kept⟩ := before found
      exact ⟨audit, is, by rw [kept, keptLog_of_none rfl]⟩

/-- What is kept of a later snapshot goes on from what is kept of an earlier one. -/
lemma grows_of_runs {auditId : String} {middle : SharedLog n} {before after : List (Event n)} (fresh : s.IsFresh)
    (first : Runs (keeping auditId) s before middle) (all : Runs (keeping auditId) s (before ++ after) s')
    (rest : Runs (keeping auditId) middle after s')
    (leaves : ∀ h ∈ before ++ after, h.LeavesLog auditId) {later : AuditRecord}
    (found : s'.ledger.store.audit? auditId = some later) :
    ∃ audit, middle.ledger.store.audit? auditId = some audit ∧
      ((snapshots before = [] → audit.scanLog = .array []) → Scan.Grows audit.scanLog later.scanLog) := by
  obtain ⟨audit, is, kept⟩ := keptLog_of_runs rest (fun h inside => leaves h (List.mem_append_right _ inside)) found
  refine ⟨audit, is, fun begun => ?_⟩
  obtain ⟨first', -, had⟩ := keptLog_of_runs first (fun h inside => leaves h (List.mem_append_left _ inside)) is
  have has : audit.scanLog = Json.ofList LogEntry.toJson (lastSnapshot before) := by
    by_cases none : snapshots before = []
    · rw [begun none, lastSnapshot, none]
      rfl
    · rw [had, keptLog, if_neg none]
  have gets : later.scanLog = Json.ofList LogEntry.toJson (lastSnapshot (before ++ after)) := by
    rw [kept, keptLog, lastSnapshot, lastSnapshot, snapshots_append]
    split
    · next none => rw [none, List.append_nil, has, lastSnapshot]
    · next some => rw [List.getLastD_eq_getLast?, List.getLastD_eq_getLast?, List.getLast?_append_of_ne_nil _ some]
  rw [has, gets, ← map_published fresh first, ← map_published fresh all, published_append, List.map_append]
  exact ⟨_, _, rfl, congrArg Json.array (List.map_append ..)⟩

/-! ### Every order of steps -/

/-- A thread that reads is told what was published last. -/
lemma told_of_runs (fresh : s.IsFresh) (runs : Runs listener s hs s') {before after : List (Event n)}
    {entries : List LogEntry} (is : hs = before ++ .told thread entries :: after) : entries = lastSnapshot before := by
  induction runs generalizing after with
  | nil => simp at is
  | @snoc s' s'' hs h runs step ih =>
    obtain rfl | ⟨more, last, rfl⟩ := List.eq_nil_or_concat after
    · obtain ⟨rfl, same⟩ := List.append_inj' is rfl
      obtain rfl := List.singleton_inj.mp same
      cases step with
      | tell isAt =>
        have stands := (guarded_of_runs fresh runs).stands thread
        rw [isAt] at stands
        exact stands.2.trans stands.1
    · rw [List.concat_eq_append, ← List.cons_append, ← List.append_assoc] at is
      exact ih (List.append_inj' is rfl).1

/-- A refused call fails as it would with any log and at any time. -/
lemma add_of_refused (fresh : s.IsFresh) (runs : Runs listener s hs s') {error : ScanLog.UnknownStatus}
    (refused : .refused thread error ∈ hs) :
    ∃ request ∈ requests thread hs, ∀ log now, request.add log now = .error error := by
  have isError : error ∈ errors (requests thread hs) := by
    rw [(accounts_of_runs fresh runs thread).refused]
    exact List.mem_append_left _ (List.mem_filterMap.mpr ⟨_, refused, if_pos rfl⟩)
  obtain ⟨request, asked, rfl⟩ := List.mem_map.mp isError
  obtain ⟨asked, unknown⟩ := List.mem_filter.mp asked
  exact ⟨request, asked, request.add_of_not_isKnown (by simpa using unknown)⟩

/-- What threads make of a log that they share. -/
structure Faithful (s : SharedLog n) (hs : List (Event n)) : Prop where
  /-- Each snapshot is the one before it with one entry more. -/
  grows : List.IsChain Adds ([] :: snapshots hs)
  /-- The last snapshot is what the threads have published, in one order. -/
  order : (published hs).map (·.2) = lastSnapshot hs
  /-- A thread publishes once for each request that is not refused, in the order of its requests. -/
  accounts : ∀ thread, Accounts thread s hs
  refused : ∀ thread error, .refused thread error ∈ hs →
    ∃ request ∈ requests thread hs, ∀ log now, request.add log now = .error error
  /-- Between calls the entries are the last snapshot. -/
  last : s.holder = none → s.entries = lastSnapshot hs
  told : ∀ before thread entries after, hs = before ++ .told thread entries :: after → entries = lastSnapshot before

/-- In whatever order the steps of threads come, the log loses and reorders nothing: what is published grows by an entry
for each request that is not refused. Calls that have begun come to an end, and the log that a scan keeps only
grows. -/
theorem entries_are_published_in_turn (fresh : s.IsFresh) (runs : Runs listener s hs s') :
    Faithful s' hs ∧
      ((∀ snapshot ledger, ∃ after, listener snapshot ledger after) → ∀ busy, s'.place busy ≠ .idle →
        ∃ h next, Step listener s' h next ∧ h.opens = false) ∧
      (∀ more final, Runs listener s' more final → (∀ h ∈ more, h.opens = false) → more.length ≤ s'.left) ∧
      ∀ auditId, listener = keeping auditId → (∀ h ∈ hs, h.LeavesLog auditId) →
        ∀ before middle after, hs = before ++ after → Runs listener s before middle → Runs listener middle after s' →
        ∀ later, s'.ledger.store.audit? auditId = some later →
        ∃ audit, middle.ledger.store.audit? auditId = some audit ∧
          ((snapshots before = [] → audit.scanLog = .array []) → Scan.Grows audit.scanLog later.scanLog) := by
  have guarded := guarded_of_runs fresh runs
  refine ⟨⟨isChain_snapshots fresh runs, map_published fresh runs, accounts_of_runs fresh runs,
    fun _ _ => add_of_refused fresh runs, guarded.free, fun _ _ _ _ => told_of_runs fresh runs⟩,
    fun answers busy isBusy => guarded.goes_on answers isBusy, fun more final run within => ?_, ?_⟩
  · exact Nat.le_trans (Nat.le_add_right _ _) (length_add_left_le run within)
  · rintro auditId rfl leaves before middle after rfl first rest later found
    exact grows_of_runs fresh first runs rest leaves found

end Steps

section Sample

/-- A log that two threads share, and an audit that is being scanned. -/
def sampleStart : SharedLog 2 where
  entries := []
  holder := none
  place _ := .idle
  ledger := {
    store := { audits := [{ id := "a1", ownerName := .text "acme", repoName := .text "app" }] }
    now := ⟨2024, 1, 1, 0, 0, 0, 0⟩
    ids := fun _ => "" }

def sampleTree : LogRequest := ⟨"tree", "ok", "Loaded"⟩

def sampleFiles : LogRequest := ⟨"files", "warn", "Skipped"⟩

def sampleStop : LogRequest := ⟨"files", "fatal", "Stopped"⟩

/-- The second thread is later with its time and earlier with the lock; and one of its calls is refused. -/
theorem entries_are_published_in_turn_overtaken : ∃ hs s' first second, Runs (keeping "a1") sampleStart hs s' ∧
    first.request = sampleFiles ∧ second.request = sampleTree ∧
    requests 0 hs = [sampleTree] ∧ requests 1 hs = [sampleFiles, sampleStop] ∧
    snapshots hs = [[first], [first, second]] ∧ s'.entries = [first, second] ∧ Faithful s' hs ∧
    ∃ audit, s'.ledger.store.audit? "a1" = some audit ∧
      audit.scanLog = Json.ofList LogEntry.toJson [first, second] := by
  have begin : Runs (keeping "a1") sampleStart [] sampleStart := .nil _
  have runs := (((((((((((((((((begin.snoc
    (.called 0 sampleTree) (.call _ rfl)).snoc
    (.moved 0) (.check rfl rfl)).snoc
    (.moved 0) (.stamp ⟨2024, 1, 1, 0, 0, 0, 0⟩ rfl)).snoc
    (.called 1 sampleFiles) (.call _ rfl)).snoc
    (.moved 1) (.check rfl rfl)).snoc
    (.moved 1) (.stamp ⟨2024, 1, 1, 0, 0, 1, 0⟩ rfl)).snoc
    (.moved 1) (.lock rfl rfl)).snoc
    (.moved 1) (.append rfl)).snoc
    (.moved 1) (.copy rfl)).snoc
    (.published 1 _) (.publish rfl ⟨_, rfl⟩)).snoc
    (.returned 1 _) (.leave rfl)).snoc
    (.called 1 sampleStop) (.call _ rfl)).snoc
    (.moved 0) (.lock rfl rfl)).snoc
    (.moved 0) (.append rfl)).snoc
    (.refused 1 _) (.refuse rfl rfl)).snoc
    (.moved 0) (.copy rfl)).snoc
    (.published 0 _) (.publish rfl ⟨_, rfl⟩)).snoc
    (.returned 0 _) (.leave rfl)
  have faithful := (entries_are_published_in_turn ⟨rfl, rfl, fun _ => rfl⟩ runs).1
  exact ⟨_, _, _, _, runs, rfl, rfl, rfl, rfl, rfl, rfl, faithful, _, rfl, rfl⟩

end Sample

end SharedLog

end RepoAudit
