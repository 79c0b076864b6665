import Mathlib.Logic.Relation
import RepoAudit.Proofs.Scan.Account

/-!
# Pools of workers

The files of a tree may be fetched by several workers at a time. A pool (`Scan.Pool`) has files that wait, files that
a worker is at, and results; workers take files and finish them in any order (`Scan.Pool.Step`). The results are
gathered in the order of the files, so what a pool comes to is what one worker comes to that takes the files one after
the other (`Scan.Pool.gathered_eq`), and every pool comes to it (`Scan.Pool.gathered_of_rests`). The findings that a
scan makes in files, and the lines about the files that it was not given, follow the tree then.
-/

namespace RepoAudit.Scan

/-- A file to fetch, with its place among the files. -/
abbrev Job := String × Nat

/-- Files that no worker has taken, files that workers are at, and results of others. -/
structure Pool where
  waiting : List Job
  fetching : List Job := []
  done : List (Job × Except String (Stage (Option (List Finding)))) := []

namespace Pool

/-- A pool that nobody works at yet. -/
def begun (paths : List String) : Pool := { waiting := paths.zipIdx }

/-- A worker that is free takes a file, or one is answered and finishes the file that it is at. -/
inductive Step (engine : Engine) (reply : String → Except String String) (workers : Nat) : Pool → Pool → Prop
  | takes (before : List Job) {after fetching : List Job} {job : Job}
      {done : List (Job × Except String (Stage (Option (List Finding))))} :
    fetching.length < workers →
    Step engine reply workers ⟨before ++ job :: after, fetching, done⟩ ⟨before ++ after, job :: fetching, done⟩
  | finishes {waiting : List Job} (before : List Job) {after : List Job} {job : Job}
      {done : List (Job × Except String (Stage (Option (List Finding))))} :
    Step engine reply workers ⟨waiting, before ++ job :: after, done⟩
      ⟨waiting, before ++ after, (job, fileStage engine job.1 (reply job.1)) :: done⟩

/-- A pool that came from one that nobody had worked at. -/
def Reaches (engine : Engine) (reply : String → Except String String) (workers : Nat) (paths : List String)
    (pool : Pool) : Prop :=
  Relation.ReflTransGen (Step engine reply workers) (begun paths) pool

/-- The results of jobs, in the order of the jobs. It is waited for each of them in turn, and the first failure ends
it. -/
def gather (done : List (Job × Except String (Stage (Option (List Finding))))) :
    List Job → Option (Except String (List (Stage (Option (List Finding)))))
  | [] => some (.ok [])
  | job :: jobs =>
    match done.lookup job with
    | none => none
    | some (.error reason) => some (.error reason)
    | some (.ok stage) => (gather done jobs).map fun stages => stages.map (stage :: ·)

/-- What is gathered of the files, once no more has to be waited for. -/
def gathered (paths : List String) (pool : Pool) : Option (Except String (List (Stage (Option (List Finding))))) :=
  gather pool.done paths.zipIdx

section Pools

variable {engine : Engine} {reply : String → Except String String} {workers : Nat} {paths : List String}
variable {pool next : Pool}

/-- Each file is at one place, and each result is that of its file. -/
structure Fits (engine : Engine) (reply : String → Except String String) (paths : List String) (pool : Pool) :
    Prop where
  jobs : (pool.waiting ++ pool.fetching ++ pool.done.map (·.1)).Perm paths.zipIdx
  results : ∀ result ∈ pool.done, result.2 = fileStage engine result.1.1 (reply result.1.1)

lemma fits_begun : Fits engine reply paths (begun paths) := ⟨by simp [begun], by simp [begun]⟩

lemma Fits.step (fits : Fits engine reply paths pool) (step : Step engine reply workers pool next) :
    Fits engine reply paths next := by
  cases step with
  | @takes before after fetching job done free =>
    refine ⟨List.Perm.trans ?_ fits.jobs, fits.results⟩
    simp only [List.append_assoc, List.cons_append]
    exact List.perm_middle.append_left before
  | @finishes waiting before after job done =>
    refine ⟨List.Perm.trans ?_ fits.jobs, List.forall_mem_cons.mpr ⟨rfl, fits.results⟩⟩
    simp only [List.append_assoc, List.map_cons, List.cons_append]
    exact (List.perm_middle.append_left before).append_left waiting

/-- Workers that come and go leave everything at its place. -/
lemma Reaches.fits (reaches : Reaches engine reply workers paths pool) : Fits engine reply paths pool := by
  induction reaches with
  | refl => exact fits_begun
  | tail _ step ih => exact ih.step step

/-- A pool at which nothing can happen any more has finished all files. -/
lemma finished_of_rests (some : 0 < workers) (rests : ∀ next, ¬Step engine reply workers pool next) :
    pool.waiting = [] ∧ pool.fetching = [] := by
  obtain ⟨waiting, fetching, done⟩ := pool
  cases fetching with
  | cons job after => exact absurd (.finishes []) (rests _)
  | nil =>
    cases waiting with
    | cons job after => exact absurd (.takes [] some) (rests _)
    | nil => exact ⟨rfl, rfl⟩

/-- How much is left to happen at a pool. -/
def weight (pool : Pool) : Nat := 2 * pool.waiting.length + pool.fetching.length

lemma Step.weight_lt (step : Step engine reply workers pool next) : next.weight < pool.weight := by
  cases step with
  | takes free =>
    simp only [weight, List.length_append, List.length_cons]
    omega
  | finishes =>
    simp only [weight, List.length_append, List.length_cons]
    omega

/-- No pool goes on for ever. -/
lemma not_forever : ¬∃ course : Nat → Pool, ∀ n, Step engine reply workers (course n) (course (n + 1)) := by
  rintro ⟨course, steps⟩
  have sinks (n : Nat) : (course n).weight + n ≤ (course 0).weight := by
    induction n with
    | zero => exact Nat.le_refl _
    | succ n ih => have := (steps n).weight_lt; omega
  have := sinks ((course 0).weight + 1)
  omega

lemma lookup_eq {done : List (Job × Except String (Stage (Option (List Finding))))} {job : Job}
    {result : Except String (Stage (Option (List Finding)))}
    (results : ∀ result ∈ done, result.2 = fileStage engine result.1.1 (reply result.1.1))
    (found : done.lookup job = some result) : result = fileStage engine job.1 (reply job.1) := by
  obtain ⟨before, after, rfl, -⟩ := List.lookup_eq_some_iff.mp found
  exact results (job, result) (by simp)

/-- What was gathered is what comes of the jobs one after the other. -/
lemma gather_eq {done : List (Job × Except String (Stage (Option (List Finding))))}
    (results : ∀ result ∈ done, result.2 = fileStage engine result.1.1 (reply result.1.1)) {jobs : List Job}
    {outcome : Except String (List (Stage (Option (List Finding))))} (gathers : gather done jobs = some outcome) :
    outcome = jobs.mapM fun job => fileStage engine job.1 (reply job.1) := by
  induction jobs generalizing outcome with
  | nil => exact (Option.some.inj gathers).symm
  | cons job jobs ih =>
    rw [gather] at gathers
    rw [List.mapM_cons]
    split at gathers
    · cases gathers
    · next reason found =>
      rw [← lookup_eq results found, ← Option.some.inj gathers]
      rfl
    · next stage found =>
      obtain ⟨rest, others, rfl⟩ := Option.map_eq_some_iff.mp gathers
      rw [← lookup_eq results found, ← ih others]
      cases rest <;> rfl

lemma isSome_gather {done : List (Job × Except String (Stage (Option (List Finding))))} {jobs : List Job}
    (all : ∀ job ∈ jobs, job ∈ done.map (·.1)) : (gather done jobs).isSome = true := by
  induction jobs with
  | nil => rfl
  | cons job jobs ih =>
    obtain ⟨present, all⟩ := List.forall_mem_cons.mp all
    rw [gather]
    split
    · next missing =>
      obtain ⟨result, member, is⟩ := List.mem_map.mp present
      have other := List.lookup_eq_none_iff.mp missing result member
      simp [is] at other
    · rfl
    · simpa using ih all

/-- What a pool comes to is what comes of the files one after the other. -/
lemma Reaches.gathered_eq {outcome : Except String (List (Stage (Option (List Finding))))}
    (reaches : Reaches engine reply workers paths pool) (gathers : pool.gathered paths = some outcome) :
    outcome = scanAll engine (paths.map fun path => (path, reply path)) := by
  rw [gather_eq reaches.fits.results gathers, scanAll, List.mapM_map, ← List.zipIdx_map_fst 0 paths, List.mapM_map,
    List.zipIdx_map_fst]
  rfl

lemma Reaches.gathered_of_rests (some : 0 < workers) (reaches : Reaches engine reply workers paths pool)
    (rests : ∀ next, ¬Step engine reply workers pool next) : (pool.gathered paths).isSome = true := by
  obtain ⟨waiting, fetching⟩ := finished_of_rests some rests
  have jobs := reaches.fits.jobs
  rw [waiting, fetching, List.nil_append, List.nil_append] at jobs
  exact isSome_gather fun job member => jobs.mem_iff.mpr member

end Pools

end Pool

/-- Runs a sequence: the second program goes on in the world that the first one leaves. -/
lemma run_bind {α β : Type} (program : Program α) (next : α → Program β) (world : World) :
    (program.bind next).run world = (next (program.run world).1).run (program.run world).2 := by
  induction program generalizing world with
  | done value => rfl
  | call c rest ih => exact ih _ _

section Sequence

variable {engine : Engine} {owner name : String} {reply : String → Except String String} {log : ScanLog} {world : World}

/-- A part of a scan after another one that leaves the log and the world. -/
lemma run_after {α β : Type} {part : Part α} {next : α → Part β} {value : α}
    (goes : (part.run.run log).run world = ((.ok value, log), world)) :
    ((part >>= next).run.run log).run world = ((next value).run.run log).run world := by
  refine (run_bind (part.run.run log) _ world).trans ?_
  rw [goes]
  rfl

/-- A part of a scan that is left out, since the one before it fails. -/
lemma run_without {α β : Type} {part : Part α} {next : α → Part β} {interruption : Interruption}
    (fails : (part.run.run log).run world = ((.error interruption, log), world)) :
    ((part >>= next).run.run log).run world = ((.error interruption, log), world) := by
  refine (run_bind (part.run.run log) _ world).trans ?_
  rw [fails]
  rfl

/-- One after the other, the files come to this in a world whose host answers so. -/
lemma run_scanFiles (workers : 0 < engine.limits.fetchWorkers) (host : world.host.file owner name = reply)
    (targets : List TreeEntry) :
    ((scanFiles engine owner name targets).run.run log).run world =
      (((scanAll engine (targets.map fun entry => (entry.path, reply entry.path))).mapError .other, log), world) := by
  have manned : ¬(!targets.isEmpty && decide (engine.limits.fetchWorkers ≤ 0)) = true := by
    simp [workers]
  rw [scanFiles, if_neg manned]
  change ((targets.mapM fun entry => do
    let content ← ask (.file owner name entry.path)
    demand (fileStage engine entry.path content) : Part _).run.run log).run world = _
  clear manned
  induction targets with
  | nil => rfl
  | cons entry targets ih =>
    -- The first file is asked for, which changes nothing; then the others.
    have asks : ((ask (.file owner name entry.path)).run.run log).run world =
        ((.ok (reply entry.path), log), world) := by
      rw [← host]
      rfl
    have first : ((do
        let content ← ask (.file owner name entry.path)
        demand (fileStage engine entry.path content) : Part _).run.run log).run world =
        ((demand (fileStage engine entry.path (reply entry.path))).run.run log).run world := run_after asks
    rw [List.mapM_cons, List.map_cons, scanAll, List.mapM_cons, ← scanAll]
    cases this : fileStage engine entry.path (reply entry.path) with
    | error reason =>
      rw [this] at first
      exact run_without first
    | ok stage =>
      rw [this] at first
      refine (run_after first).trans ?_
      cases others : scanAll engine (targets.map fun entry => (entry.path, reply entry.path)) with
      | error reason =>
        rw [others] at ih
        exact run_without ih
      | ok stages =>
        rw [others] at ih
        exact run_after ih

end Sequence

/-- The reply about a file of the repository is the one that its path has. -/
def Steady (owner name : String) (reply : String → Except String String) : Exchange → Prop
  | ⟨.file asked of path, content⟩ => asked = owner → of = name → content = reply path
  | _ => True

/-- What the files that the host gives add to the findings, in their order. -/
def patternFindings (found : String → List Char → List Finding) (reply : String → Except String String)
    (paths : List String) : List Finding :=
  paths.flatMap fun path =>
    match reply path with
    | .ok content => found path content.toList
    | .error _ => []

/-- The stage of a file whose scan does not fail. -/
def stageOf (found : String → List Char → List Finding) (reply : String → Except String String) (path : String) :
    Stage (Option (List Finding)) :=
  match reply path with
  | .error reason => ⟨none, "fetch_file", .warn, "Skipped " ++ path ++ ": " ++ reason⟩
  | .ok content => ⟨some (found path content.toList), "fetch_file", .ok, "Scanned " ++ path⟩

section Unfailing

variable {engine : Engine} {found : String → List Char → List Finding} {reply : String → Except String String}

lemma scanAll_eq (scans : ∀ path content, engine.scanFile path content = .ok (found path content))
    (paths : List String) :
    scanAll engine (paths.map fun path => (path, reply path)) = .ok (paths.map (stageOf found reply)) := by
  induction paths with
  | nil => rfl
  | cons path paths ih =>
    rw [scanAll] at ih ⊢
    rw [List.map_cons, List.mapM_cons, ih]
    cases given : reply path with
    | error reason => simp [fileStage, stageOf, given]; rfl
    | ok content => simp [fileStage, stageOf, given, scans]; rfl

lemma flatten_scanned (paths : List String) :
    (scanned (paths.map (stageOf found reply))).flatten = patternFindings found reply paths := by
  induction paths with
  | nil => rfl
  | cons path paths ih =>
    rw [patternFindings, List.flatMap_cons, ← patternFindings, ← ih]
    cases given : reply path <;> simp [scanned, stageOf, given]

lemma length_scanned_stageOf (found : String → List Char → List Finding) (paths : List String) :
    (scanned (paths.map (stageOf found reply))).length = paths.countP fun path => (reply path).isOk := by
  induction paths with
  | nil => rfl
  | cons path paths ih =>
    cases given : reply path with
    | error reason => simpa [scanned, stageOf, given, Except.isOk, Except.toBool] using ih
    | ok content => simpa [scanned, stageOf, given, Except.isOk, Except.toBool] using ih

/-- A file that the host does not give is as one that is not there. -/
lemma patternFindings_update (paths : List String) (path reason : String) :
    patternFindings found (Function.update reply path (.error reason)) paths =
      patternFindings found reply (paths.filter (· ≠ path)) := by
  induction paths with
  | nil => rfl
  | cons other paths ih =>
    rw [patternFindings, List.flatMap_cons, ← patternFindings, ih]
    by_cases same : other = path
    · simp [same, patternFindings]
    · simp [same, patternFindings]

end Unfailing

/-- What a scan makes of the files of a tree: the lines about those that the host did not give, how many it scanned,
and the findings in them, with what else is found and no finding twice. All of it is in the order of the tree. -/
structure Merges (engine : Engine) (found : String → List Char → List Finding) (reply : String → Except String String)
    (auditId : String) (entries : List TreeEntry) (paths : List String) (log : ScanLog) (es : List Exchange) :
    Prop where
  skipped : Line.about "fetch_file" log.lines = Answers.skipped (paths.map fun path => (path, reply path))
  counted : log.messages "pattern_scan" =
    ["Scanned " ++ toString (paths.countP fun path => (reply path).isOk) ++ " files, found " ++
      toString (Tree.sensitiveFiles engine.rules entries ++ Tree.layout engine.rules entries ++
        patternFindings found reply paths).length ++ " issues"]
  kept : log.marks.getLast? = some ("complete", "ok") → ∃ more,
    (if Tree.hasRootManifest entries then
      (manifestStage engine entries (reply Tree.manifestName)).map (·.value) else .ok []) = .ok more ∧
    List.Forall₂ (KeptAs auditId)
      (Finding.distinct (Tree.sensitiveFiles engine.rules entries ++ Tree.layout engine.rules entries ++
        patternFindings found reply paths ++ more))
      (es.filterMap Exchange.added?)

section Merges

variable {engine : Engine} {found : String → List Char → List Finding} {reply : String → Except String String}
variable {auditId owner name : String} {answers : Answers} {log : ScanLog} {es : List Exchange}
variable {stages : List (Stage (Option (List Finding)))}

/-- All that the host answered about files is what their paths have. -/
lemma Answers.files_eq (steady : ∀ e ∈ answers.exchanges owner name, Steady owner name reply e)
    (asked : answers.files.map (·.1) = answers.targets engine) :
    answers.files = (answers.targets engine).map fun path => (path, reply path) := by
  rw [← asked, List.map_map]
  refine (List.map_id' _).symm.trans (List.map_congr_left fun file member => ?_)
  have replied := steady ⟨.file owner name file.1, file.2⟩ (by
    simp only [exchanges, List.mem_append, List.mem_map]
    exact .inl (.inr ⟨file, member, rfl⟩)) rfl rfl
  exact Prod.ext rfl replied

/-- With steady answers and a scan that does not fail, the stages are known. -/
lemma Answers.Scanned.stages_eq (scanned : answers.Scanned engine stages)
    (steady : ∀ e ∈ answers.exchanges owner name, Steady owner name reply e)
    (scans : ∀ path content, engine.scanFile path content = .ok (found path content)) :
    stages = (answers.targets engine).map (stageOf found reply) := by
  have all := scanned.scans
  rw [Answers.files_eq steady scanned.asked, scanAll_eq scans] at all
  exact (Except.ok.inj all).symm

/-- The findings in the manifest, if there is one. -/
lemma Answers.Analyzed.more_eq {last : Option (Stage (List Finding))} (analyzed : answers.Analyzed engine last)
    (steady : ∀ e ∈ answers.exchanges owner name, Steady owner name reply e) :
    (if Tree.hasRootManifest answers.entries then
      (manifestStage engine answers.entries (reply Tree.manifestName)).map (·.value) else .ok []) =
      .ok ((last.map (·.value)).getD []) := by
  have asked := analyzed.asked
  have analyzes := analyzed.analyzes
  cases given : answers.manifest with
  | none =>
    rw [given] at asked analyzes
    cases last with
    | none => rw [← asked]; rfl
    | some stage => cases analyzes
  | some content =>
    rw [given] at asked analyzes
    have replied : content = reply Tree.manifestName :=
      steady ⟨.file owner name Tree.manifestName, content⟩ (by simp [exchanges, given]) rfl rfl
    cases last with
    | none => cases analyzes
    | some stage =>
      have stages : manifestStage engine answers.entries content = .ok stage := Option.some.inj analyzes
      rw [← asked, ← replied, stages]
      rfl

/-- The lines about files, in a log that goes on with others. -/
lemma merges {rest : List Line} (scanned : answers.Scanned engine stages)
    (steady : ∀ e ∈ answers.exchanges owner name, Steady owner name reply e)
    (scans : ∀ path content, engine.scanFile path content = .ok (found path content))
    (lines : log.lines = answers.earlyLines engine owner name ++ answers.fileLines engine stages ++ rest)
    (others : ∀ line ∈ rest, line.1 ≠ "fetch_file" ∧ line.1 ≠ "pattern_scan")
    (kept : log.marks.getLast? = some ("complete", "ok") → ∃ more,
      (if Tree.hasRootManifest answers.entries then
        (manifestStage engine answers.entries (reply Tree.manifestName)).map (·.value) else .ok []) = .ok more ∧
      List.Forall₂ (KeptAs auditId) (Finding.distinct (answers.detected engine stages ++ more))
        (es.filterMap Exchange.added?)) :
    Merges engine found reply auditId answers.entries (answers.targets engine) log es := by
  have files := Answers.files_eq steady scanned.asked
  have detected : answers.detected engine stages = Tree.sensitiveFiles engine.rules answers.entries ++
      Tree.layout engine.rules answers.entries ++ patternFindings found reply (answers.targets engine) := by
    rw [Answers.detected, scanned.stages_eq steady scans, flatten_scanned]
  obtain ⟨-, uncounted, -⟩ := answers.messages_earlyLines engine owner name
  obtain ⟨-, counted, -⟩ := Answers.messages_fileLines scanned.scans
  refine ⟨?_, ?_, detected ▸ kept⟩
  · rw [lines, ← files, Line.about_append, Line.about_append, answers.about_earlyLines,
      Answers.about_fileLines scanned.scans, Line.about_of_ne fun line member => (others line member).1,
      List.nil_append, List.append_nil]
  · rw [ScanLog.messages, lines, ← detected, ← length_scanned_stageOf found,
      ← scanned.stages_eq steady scans, Line.messages_append, Line.messages_append, uncounted, counted, Line.messages,
      Line.about_of_ne fun line member => (others line member).2]
    rfl

end Merges

/-- Where the host's answer about a file depends on nothing but its path, a scan hears nothing else. -/
lemma steady_runAmid (engine : Engine) (auditId : String) {around : List Exchange → World → World} (world : World)
    {owner name : String} {reply : String → Except String String}
    (steady : ∀ es world, (around es world).host.file owner name = reply) :
    ∀ e ∈ ((run engine auditId).runAmid around [] world).2.1, Steady owner name reply e := by
  have keeps : (run engine auditId).Keeps (manner (fun _ => True) auditId) (Ended auditId) [] := ended_run trivial
  refine keeps.exchanges (fun _ _ => rfl) (replies_manner auditId) (fun es world c _ => ?_) (by simp)
  cases c with
  | file owner name path =>
    rintro rfl rfl
    exact congrFun (steady es world) path
  | _ => trivial

/-- The host is asked for one tree only. -/
lemma Answers.tree_eq {answers : Answers} {owner name ref : String} {tree : Except String (List TreeEntry)}
    (told : ⟨.tree owner name ref, tree⟩ ∈ answers.exchanges owner name) : answers.tree = tree := by
  have same : ref = answers.snapshot.defaultBranch ∧ tree = answers.tree := by
    simpa [Answers.exchanges] using told
  exact same.2.symm

/-- However its workers take turns, a pool comes to an end and has what one worker gives that takes the files one
after the other; and that a file is not given changes nothing for the others. -/
structure Pool.Agrees (engine : Engine) (found : String → List Char → List Finding)
    (reply : String → Except String String) (workers : Nat) (owner name : String) (targets : List TreeEntry) :
    Prop where
  ends : ¬∃ course : Nat → Pool, ∀ n, Step engine reply workers (course n) (course (n + 1))
  gathers {pool : Pool} : Reaches engine reply workers (targets.map (·.path)) pool →
    (∀ next, ¬Step engine reply workers pool next) → (pool.gathered (targets.map (·.path))).isSome = true
  agrees {pool : Pool} {outcome : Except String (List (Stage (Option (List Finding))))} :
    Reaches engine reply workers (targets.map (·.path)) pool →
    pool.gathered (targets.map (·.path)) = some outcome → ∃ stages, outcome = .ok stages ∧
      stages = (targets.map (·.path)).map (stageOf found reply) ∧
      (scanned stages).flatten = patternFindings found reply (targets.map (·.path)) ∧
      ∀ (log : ScanLog) (world : World), world.host.file owner name = reply →
        ((scanFiles engine owner name targets).run.run log).run world = ((.ok stages, log), world)
  others (path reason : String) :
    (∀ other, other ≠ path → stageOf found (Function.update reply path (.error reason)) other =
      stageOf found reply other) ∧
    patternFindings found (Function.update reply path (.error reason)) (targets.map (·.path)) =
      patternFindings found reply ((targets.map (·.path)).filter (· ≠ path))

lemma Pool.agrees {engine : Engine} {found : String → List Char → List Finding}
    {reply : String → Except String String} {workers : Nat} (some : 0 < workers)
    (scans : ∀ path content, engine.scanFile path content = .ok (found path content))
    (manned : 0 < engine.limits.fetchWorkers) (owner name : String) (targets : List TreeEntry) :
    Agrees engine found reply workers owner name targets := by
  refine ⟨not_forever, fun reaches rests => reaches.gathered_of_rests some rests, fun reaches gathers => ?_,
    fun path reason => ⟨fun other different => ?_, patternFindings_update _ _ _⟩⟩
  · obtain rfl := reaches.gathered_eq gathers
    refine ⟨_, scanAll_eq scans _, rfl, flatten_scanned _, fun log world host => ?_⟩
    have goes : ((scanFiles engine owner name targets).run.run log).run world = _ := run_scanFiles manned host targets
    have all : scanAll engine (targets.map fun entry => (entry.path, reply entry.path)) =
        .ok ((targets.map (·.path)).map (stageOf found reply)) := by
      rw [← scanAll_eq scans, List.map_map]
      rfl
    rw [all] at goes
    exact goes
  · rw [stageOf, Function.update_of_ne different, ← stageOf]

/-- Several workers come to the same as one that takes the files one after the other, in whatever order they fetch the
files and whichever of them the host does not give; and what a scan makes of the files follows the tree. This is so
where the host's answer about a file depends on nothing but its path, and no family fails. -/
theorem pools_scan_as_one_worker {engine : Engine} {found : String → List Char → List Finding}
    {reply : String → Except String String} {auditId : String} {audit : AuditRecord}
    {around : List Exchange → World → World} {world after : World} {es : List Exchange}
    {result : Except StoreError (Option AuditRecord)}
    (scans : ∀ path content, engine.scanFile path content = .ok (found path content))
    (manned : 0 < engine.limits.fetchWorkers)
    (present : world.ledger.store.audit? auditId = some audit)
    (apart : ∀ es world, (around es world).ledger.store.audit? auditId = world.ledger.store.audit? auditId)
    (steady : ∀ es world, (around es world).host.file audit.ownerName.display audit.repoName.display = reply)
    (runs : (run engine auditId).runAmid around [] world = (result, es, after)) (saved : ∀ e ∈ es, e.Saved) :
    (∀ (answers : String → Except String String) (workers : Nat), 0 < workers → ∀ targets,
      Pool.Agrees engine found answers workers audit.ownerName.display audit.repoName.display targets) ∧
    ∀ ref tree, ⟨.tree audit.ownerName.display audit.repoName.display ref, tree⟩ ∈ es →
      ∃ (final : AuditRecord) (log : ScanLog), after.ledger.store.audit? auditId = some final ∧
        final.scanLog = Json.ofList LogEntry.toJson log.entries ∧
        Merges engine found reply auditId (treeStage tree).value
          ((Engine.selectFiles engine.rules engine.limits (treeStage tree).value).map (·.path)) log es := by
  refine ⟨fun answers workers some targets => Pool.agrees some scans manned _ _ targets, fun ref tree told => ?_⟩
  obtain ⟨p, concluded, final, stored, heard⟩ := concluded_amid present apart (by rw [runs]; exact saved)
  have replied := steady_runAmid engine auditId world steady
  rw [runs] at final stored heard replied
  dsimp only at final stored heard replied
  replace told : ⟨.tree audit.ownerName.display audit.repoName.display ref, tree⟩ ∈ p.heard := by
    rw [heard]
    exact List.mem_filter.mpr ⟨told, rfl⟩
  have asks {answers : Answers}
      (asked : p.heard = answers.exchanges audit.ownerName.display audit.repoName.display) :
      (∀ e ∈ answers.exchanges audit.ownerName.display audit.repoName.display,
        Steady audit.ownerName.display audit.repoName.display reply e) ∧ answers.tree = tree := by
    rw [asked] at told heard
    refine ⟨fun e member => ?_, Answers.tree_eq told⟩
    rw [heard] at member
    exact replied e (List.mem_filter.mp member).1
  cases concluded with
  | @finished answers stages last unique kept log now scanned analyzed is lines kepts =>
    obtain ⟨steadily, rfl⟩ := asks rfl
    refine ⟨_, log, final, rfl, merges scanned steadily scans (lines.trans (List.append_assoc _ _ _)) ?_ fun _ => ?_⟩
    · intro line member
      obtain manifest | complete := List.mem_append.mp member
      · simp [analyzed.step_of_mem_last manifest]
      · obtain rfl := List.mem_singleton.mp complete
        simp [completeLine]
    · exact ⟨_, analyzed.more_eq steadily, by rw [← is, ← stored]; exact kepts⟩
  | @unreachable host reason log now lines => simp at told
  | @interrupted answers before reason log now stumbles lines =>
    obtain ⟨steadily, rfl⟩ := asks rfl
    have unfinished : log.marks.getLast? ≠ some ("complete", "ok") := by
      rw [ScanLog.marks, lines]
      simp [Line.mark]
    cases stumbles with
    | noWorkers _ nobody => exact absurd manned (by omega)
    | @file _ path content _ _ _ fails =>
      cases content with
      | error reason => cases fails
      | ok content => simp [fileStage, scans] at fails
    | manifest scanned _ _ _ =>
      refine ⟨_, log, final, rfl, merges scanned steadily scans lines ?_ fun complete => absurd complete unfinished⟩
      simp

section Sample

/-- What the sample's family finds in a file. -/
def sampleFound (path : String) (content : List Char) : List Finding :=
  (oneFamily.scanFile path content).toOption.getD []

lemma oneFamily_scans (path : String) (content : List Char) :
    oneFamily.scanFile path content = .ok (sampleFound path content) := by
  have builtin : oneFamily.IsBuiltin := ⟨{}, 2, [.largeFile], rfl⟩
  obtain ⟨stage, made⟩ := fileStage_builtin builtin path (.ok (String.ofList content))
  obtain ⟨findings, scans, -⟩ := exists_of_bind_ok made
  rw [String.toList_ofList] at scans
  rw [sampleFound, scans]
  rfl

/-- True of a question about the tree of the sample's repository. -/
def asksTree : Exchange → Bool
  | ⟨.tree owner name _, _⟩ => owner == "owner" && name == "name"
  | _ => false

lemma exists_of_asksTree {e : Exchange} (asks : asksTree e = true) :
    ∃ ref tree, e = ⟨.tree "owner" "name" ref, tree⟩ := by
  unfold asksTree at asks
  split at asks
  · next owner name ref tree =>
    obtain ⟨asked, of⟩ := Bool.and_eq_true_iff.mp asks
    obtain rfl := eq_of_beq asked
    obtain rfl := eq_of_beq of
    exact ⟨ref, tree, rfl⟩
  · cases asks

/-- The host stays the one that gives little. -/
def sparingAround (_ : List Exchange) (world : World) : World := { world with host := sparingHost }

/-- Two workers come to the same when the second file is finished first, and the scan of the sample merges what it is
given. -/
theorem pools_scan_as_one_worker_backwards :
    (∃ pool, Pool.Reaches oneFamily (sparingHost.file "owner" "name") 2 ["a.js", "b.js"] pool ∧
      pool.done.map (·.1) = [("a.js", 0), ("b.js", 1)] ∧ pool.gathered ["a.js", "b.js"] =
        some (.ok (["a.js", "b.js"].map (stageOf sampleFound (sparingHost.file "owner" "name"))))) ∧
    ∃ entries paths log, Merges oneFamily sampleFound (sparingHost.file "owner" "name") "i" entries paths log
      ((run oneFamily "i").runAmid sparingAround [] sparingWorld).2.1 := by
  have saved : ∀ e ∈ ((run oneFamily "i").runAmid sparingAround [] sparingWorld).2.1, e.Saved := by decide +kernel
  have asked : ((run oneFamily "i").runAmid sparingAround [] sparingWorld).2.1.any asksTree = true := by
    decide +kernel
  obtain ⟨e, told, asks⟩ := List.any_eq_true.mp asked
  obtain ⟨ref, tree, rfl⟩ := exists_of_asksTree asks
  have parts {α β γ : Type} (p : α × β × γ) : p = (p.1, p.2.1, p.2.2) := rfl
  have present : sparingWorld.ledger.store.audit? "i" = some unscanned := rfl
  have steady : ∀ es world, (sparingAround es world).host.file unscanned.ownerName.display
      unscanned.repoName.display = sparingHost.file "owner" "name" := fun _ _ => rfl
  have apart : ∀ es world, (sparingAround es world).ledger.store.audit? "i" = world.ledger.store.audit? "i" :=
    fun _ _ => rfl
  obtain ⟨pools, merged⟩ := pools_scan_as_one_worker oneFamily_scans (by decide) present apart steady
    (parts ((run oneFamily "i").runAmid sparingAround [] sparingWorld)) saved
  obtain ⟨final, log, -, -, merges⟩ := merged ref tree told
  refine ⟨?_, _, _, log, merges⟩
  have agrees := pools (sparingHost.file "owner" "name") 2 (by decide) [{ path := "a.js" }, { path := "b.js" }]
  have reaches : Pool.Reaches oneFamily (sparingHost.file "owner" "name") 2 ["a.js", "b.js"] ⟨[], [],
      [(("a.js", 0), fileStage oneFamily "a.js" (.error "gone")),
        (("b.js", 1), fileStage oneFamily "b.js" (.error "gone"))]⟩ := by
    -- The first worker takes the first file and the second one the second; then the second one finishes.
    refine .head (.takes [] (by decide)) (.head (.takes [] (by decide)) ?_)
    exact .head (.finishes []) (.head (.finishes []) .refl)
  refine ⟨_, reaches, rfl, ?_⟩
  have gathers : Pool.gathered ["a.js", "b.js"] ⟨[], [],
      [(("a.js", 0), fileStage oneFamily "a.js" (.error "gone")),
        (("b.js", 1), fileStage oneFamily "b.js" (.error "gone"))]⟩ = some (.ok _) := rfl
  obtain ⟨stages, is, rfl, -⟩ := agrees.agrees reaches gathers
  rw [gathers, is]
  rfl

end Sample

end RepoAudit.Scan
