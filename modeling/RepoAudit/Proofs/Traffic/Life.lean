import RepoAudit.Proofs.Traffic.Custody
import RepoAudit.Scan.Assembly

/-!
# Lives of a service

A service lives longer than its program: it may be ended between any two steps, and put together again over
the file of its store, by any settings. Scans and requests that were under way are gone then, and the store is
what was read. `Custody` outlives that, and every finding is found again as it was.
-/

namespace RepoAudit

/-- What can happen in the life of a service. -/
inductive Moment where
  | step (h : Happening)
  /-- The program ends, and the service is put together again over the file of its store. -/
  | restarted

namespace Moment

/-- A moment in which no write failed. -/
def Saved : Moment → Prop
  | step h => h.Saved
  | restarted => True

/-- A moment in which errands are those that the service does. -/
def Proper : Moment → Prop
  | step h => h.Proper
  | restarted => True

/-- True of an errand that changes or deletes the finding of the id. -/
def Names (id : String) : Moment → Prop
  | step h => h.Names id
  | restarted => False

/-- True of an errand that deletes the audit. -/
def Discards (auditId : String) : Moment → Prop
  | step h => h.Discards auditId
  | restarted => False

end Moment

/-- What a program leaves when it ends: its disk, and no store. -/
def Ledger.ended (ledger : Ledger) : Ledger := { ledger with store := {} }

lemma Ledger.disk_ended (ledger : Ledger) : ledger.ended.disk = ledger.disk := rfl

/-- A scanner that was put together has the store of its path, and nothing goes on in it. -/
lemma Scanner.assemble_ok {settings : Settings} {path : Path} {host : SourceHost} {ledger : Ledger}
    {scanner : Scanner} (assembled : assemble settings (some path) host ledger = .ok scanner) :
    ∃ after engine, Ledger.Action.on (Ledger.openStore (some path)) ledger = (.ok (), after) ∧
      scanner = ⟨⟨after, host, {}⟩, engine, []⟩ := by
  simp only [assemble, Option.some_or] at assembled
  rcases opened : Ledger.Action.on (Ledger.openStore (some path)) ledger with ⟨_ | ⟨⟩, after⟩
  all_goals rw [Ledger.Action.on] at opened
  all_goals rw [opened] at assembled
  · cases assembled
  · cases built : Engine.build settings.rules settings.limits with
    | error error =>
      rw [built] at assembled
      cases assembled
    | ok engine =>
      rw [built] at assembled
      by_cases workers : settings.limits.scanWorkers ≤ 0
      · simp [workers, Except.mapError, bind, Except.bind] at assembled
      · simp only [workers, Except.mapError, bind, Except.bind, if_false] at assembled
        exact ⟨after, engine, rfl, (Except.ok.inj assembled).symm⟩

namespace Traffic

/-- The service after its program has ended and its store was opened again. -/
def reopened (t : Traffic) (ledger : Ledger) (engine : Engine) (host : SourceHost) : Traffic where
  world := { ledger, host }
  engine
  asked := t.asked

/-- Moments one after the other. -/
inductive Lives : Traffic → List Moment → Traffic → Prop
  | none {t : Traffic} : Lives t [] t
  | step {t₀ t t' : Traffic} {ms : List Moment} {h : Happening} :
    Lives t₀ ms t → Step t h t' → Lives t₀ (ms ++ [.step h]) t'
  | restarted {t₀ t : Traffic} {ms : List Moment} {path : Path} {ledger : Ledger} (engine : Engine)
      (host : SourceHost) : Lives t₀ ms t → t.world.ledger.store.path = some path →
    Ledger.Action.on (Ledger.openStore (some path)) t.world.ledger.ended = (.ok (), ledger) →
    Lives t₀ (ms ++ [.restarted]) (t.reopened ledger engine host)

section Lives

variable {t₀ t t' : Traffic} {ms : List Moment} {hs : List Happening}

/-- A service that is put together again from settings lives on. -/
lemma Lives.assembled {path : Path} {settings : Settings} {host : SourceHost} {scanner : Scanner}
    (lives : Lives t₀ ms t) (located : t.world.ledger.store.path = some path)
    (assembled : Scanner.assemble settings (some path) host t.world.ledger.ended = .ok scanner) :
    Lives t₀ (ms ++ [.restarted]) { scanner with asked := t.asked } := by
  obtain ⟨ledger, engine, opened, rfl⟩ := Scanner.assemble_ok assembled
  exact lives.restarted engine host located opened

lemma Lives.runs (lives : Lives t₀ ms t) (runs : Runs t hs t') :
    Lives t₀ (ms ++ hs.map .step) t' := by
  induction runs with
  | none => simpa using lives
  | more _ step ih =>
    rw [List.map_append, ← List.append_assoc]
    exact ih.step step

end Lives

/-- A service that does nothing yet, over a store whose findings are kept as they are to be. -/
structure Orderly (t : Traffic) : Prop where
  idle : Idle t
  kept : Kept t

lemma Orderly.custody {t : Traffic} (orderly : Orderly t) : Custody [] t := by
  refine ⟨orderly.idle.sound, orderly.kept, fun s serving => ?_⟩
  rw [orderly.idle.serving] at serving
  cases serving

section Restart

variable {hs : List Happening} {t : Traffic} {path : Path} {ledger : Ledger} {engine : Engine}
variable {host : SourceHost}

/-- What opening the store of a service again gives. -/
lemma Custody.opened (custody : Custody hs t) (located : t.world.ledger.store.path = some path)
    (opened : Ledger.Action.on (Ledger.openStore (some path)) t.world.ledger.ended =
      (.ok (), ledger)) :
    ledger.ids = t.world.ledger.ids ∧ ledger.drawn = t.world.ledger.drawn ∧
    ledger.store.findings.Perm t.world.ledger.store.findings ∧ ledger.store.Plain ∧
    (∀ audit ∈ ledger.store.audits, audit.isRunning = false ∧
      ∃ old ∈ t.world.ledger.store.audits, old.id = audit.id) ∧ ledger.Mirrored := by
  obtain ⟨kept, mirror, recalls⟩ := custody.kept.mirrored path located
  have reads : Ledger.readStore t.world.ledger.ended.disk path = .ok kept := mirror
  have saved : Saved (Ledger.Action.on (Ledger.openStore (some path)) t.world.ledger.ended).1 := by
    rw [opened]
    exact fun error same => nomatch same
  obtain ⟨disk, opens, files⟩ := Ledger.openStore_on reads saved
  have is := opened.symm.trans opens
  rw [Prod.mk.injEq] at is
  obtain ⟨-, rfl⟩ := is
  have plain := Ledger.plain_closeRunning t.world.ledger.now kept recalls.plain
  refine ⟨rfl, rfl, recalls.findings, plain, fun audit stored => ?_, ?_⟩
  · refine ⟨Ledger.isRunning_closeRunning _ _ stored, ?_⟩
    obtain ⟨old, present, rfl⟩ := Ledger.mem_audits_closeRunning _ _ stored
    obtain ⟨first, was, same⟩ := recalls.audits old present
    exact ⟨first, was, same.trans (Ledger.id_closed _ old).symm⟩
  · obtain ⟨rfl, same⟩ | written := files
    · intro path' located'
      obtain rfl : path = path' := by
        have there : kept.path = some path' := located'
        rw [recalls.path, located] at there
        exact Option.some.inj there
      refine ⟨kept, reads, ?_⟩
      show kept.Recalls (Ledger.closeRunning t.world.ledger.ended.now kept)
      rw [same]
      exact Ledger.recalls_self recalls.plain
    · refine written.mirrored plain ?_
      exact (recalls.findings.map _).nodup_iff.mpr custody.kept.keyed

/-- A restart leaves every finding. -/
lemma Custody.finding?_reopened (custody : Custody hs t) (located : t.world.ledger.store.path = some path)
    (opened : Ledger.Action.on (Ledger.openStore (some path)) t.world.ledger.ended =
      (.ok (), ledger)) (id : String) : (t.reopened ledger engine host).finding? id = t.finding? id := by
  obtain ⟨-, -, same, -⟩ := custody.opened located opened
  exact find?_perm FindingRecord.id custody.kept.keyed same id

/-- After a restart the service is orderly again. -/
lemma Custody.reopens (custody : Custody hs t) (located : t.world.ledger.store.path = some path)
    (opened : Ledger.Action.on (Ledger.openStore (some path)) t.world.ledger.ended =
      (.ok (), ledger)) : Orderly (t.reopened ledger engine host) := by
  have findings (id : String) : (t.reopened ledger engine host).finding? id = t.finding? id :=
    custody.finding?_reopened located opened id
  obtain ⟨ids, drawn, same, plain, audits, mirrored⟩ := custody.opened located opened
  have tidy := custody.sound.tidy
  have idle : Idle (t.reopened ledger engine host) := by
    refine ⟨?_, fun n fresh => ?_, rfl, rfl, fun auditId audit found => ?_⟩
    · rw [reopened, ids]
      exact tidy.injective
    · have fresh : ledger.drawn < n := fresh
      rw [drawn] at fresh
      have missing := tidy.unused n fresh
      show ledger.store.audit? (ledger.ids n) = none
      rw [ids, Store.audit?, List.find?_eq_none]
      intro audit stored same
      obtain ⟨-, old, present, id⟩ := audits audit stored
      rw [Traffic.audit?, Store.audit?, List.find?_eq_none] at missing
      exact missing old present (by rw [id]; exact same)
    · exact (audits audit (Store.mem_of_audit? found)).1
  refine ⟨idle, ?_, fun n fresh => ?_, plain, mirrored⟩
  · exact (same.map _).nodup_iff.mpr custody.kept.keyed
  · have fresh : ledger.drawn < n := fresh
    rw [drawn] at fresh
    rw [findings]
    show t.finding? (ledger.ids n) = none
    rw [ids]
    exact custody.kept.unused n fresh

end Restart

/-- A service over an empty store is orderly, whatever its file is, as long as no records are read from it. -/
lemma orderly_of_empty {t : Traffic} (injective : Function.Injective t.world.ledger.ids)
    (audits : t.world.ledger.store.audits = []) (findings : t.world.ledger.store.findings = [])
    (file : ∀ path, t.world.ledger.store.path = some path →
      Ledger.readStore t.world.ledger.disk path = .ok { path := some path })
    (live : t.live = []) (serving : t.serving = none) : Orderly t := by
  have no_audit (id : String) : t.audit? id = none := by rw [Traffic.audit?, Store.audit?, audits]; rfl
  have no_finding (id : String) : t.finding? id = none := by
    rw [Traffic.finding?, Store.finding?, findings]
    rfl
  refine ⟨⟨injective, fun n _ => no_audit _, live, serving, fun id audit found => ?_⟩,
    ⟨?_, fun n _ => no_finding _, ⟨?_, ?_⟩, fun path located => ?_⟩⟩
  · rw [no_audit] at found
    cases found
  · rw [Store.Keyed, findings]
    exact List.nodup_nil
  · simp [audits]
  · simp [findings]
  · refine ⟨_, file path located, located.symm, ?_, ?_, ⟨?_, ?_⟩⟩
    · rw [findings]
    · simp
    · simp
    · simp

/-- A state that a service can come to from an orderly one, when no write fails. -/
def Reachable (t : Traffic) : Prop :=
  ∃ t₀ ms, Orderly t₀ ∧ Lives t₀ ms t ∧ ∀ m ∈ ms, m.Saved ∧ m.Proper

lemma Custody.lives {t t' : Traffic} {hs : List Happening} {ms : List Moment} (custody : Custody hs t)
    (lives : Lives t ms t') (proper : ∀ m ∈ ms, m.Saved ∧ m.Proper) : ∃ more, Custody more t' := by
  induction lives with
  | none => exact ⟨hs, custody⟩
  | step _ step ih =>
    obtain ⟨more, custody'⟩ := ih fun m member => proper m (List.mem_append_left _ member)
    obtain ⟨saved, proper'⟩ := proper _ (List.mem_append_right _ List.mem_cons_self)
    exact ⟨_, custody'.step step saved proper'⟩
  | restarted engine host _ located opened ih =>
    obtain ⟨more, custody'⟩ := ih fun m member => proper m (List.mem_append_left _ member)
    exact ⟨[], (custody'.reopens located opened).custody⟩

/-- The invariant holds in every state that a service can come to. -/
lemma Reachable.custody {t : Traffic} (reachable : Reachable t) : ∃ hs, Custody hs t := by
  obtain ⟨t₀, ms, orderly, lives, proper⟩ := reachable
  exact orderly.custody.lives lives proper

end Traffic

end RepoAudit
