import RepoAudit.Proofs.Finding.Distinct
import RepoAudit.Proofs.Rule.Title
import RepoAudit.Proofs.Scan.Tolerance

/-!
# What a scan finds is distinct

A scan keeps one of the findings that share a title and a file. With rules of the catalog, and when no two files of
the tree have one path, nothing is lost by that except where a path holds two private keys by its name: every other
finding is the only one of its signature.
-/

namespace RepoAudit

/-- Every title opens with one of the words. -/
def Among (found : List Finding) (heads : List (List Char)) : Prop :=
  ∀ finding ∈ found, ∃ head ∈ heads, finding.OpensWith head

section Among

variable {found others : List Finding} {heads heads' : List (List Char)}

lemma Headed.among (headed : Headed found heads) : Among found heads :=
  exists_of_mem_sublistForall₂ headed

lemma Among.append (one : Among found heads) (other : Among others heads') :
    Among (found ++ others) (heads ++ heads') := by
  intro finding listed
  rcases List.mem_append.mp listed with listed | listed
  · obtain ⟨head, known, opens⟩ := one finding listed
    exact ⟨head, List.mem_append_left _ known, opens⟩
  · obtain ⟨head, known, opens⟩ := other finding listed
    exact ⟨head, List.mem_append_right _ known, opens⟩

/-- Findings whose titles open with words of two parts of a table. -/
lemma Among.differs (one : Among found heads) (other : Among others heads')
    (apart : ∀ a ∈ heads, ∀ b ∈ heads', Apart a b) : ∀ f ∈ found, ∀ g ∈ others, f.Differs g := by
  intro f listed g listed'
  obtain ⟨a, known, opens⟩ := one f listed
  obtain ⟨b, known', opens'⟩ := other g listed'
  exact Finding.differs_of_title (opens.ne opens' (apart a known b known'))

lemma Headed.pairwise (headed : Headed found heads) (apart : heads.Pairwise Apart) : found.Pairwise Finding.Differs :=
  pairwise_of_sublistForall₂ headed apart fun opens opens' apart => Finding.differs_of_title (opens.ne opens' apart)

end Among

/-- An engine with rules of the catalog and with built-in families, each at most once. -/
structure Engine.OfCatalog (engine : Engine) : Prop where
  trims : engine.rules.Trims
  families : ∃ context, ∃ chosen : List BuiltinFamily, chosen.Sublist BuiltinFamily.all ∧
    engine.families = chosen.map (·.toFamily engine.rules context)

/-- The engine of settings is one of the catalog. -/
lemma Engine.ofCatalog_build {settings : RuleSettings} {limits : Limits} {engine : Engine}
    (builds : Engine.build settings limits = .ok engine) : engine.OfCatalog := by
  obtain ⟨derives, chosen, among, families⟩ := Engine.build_ok builds
  exact ⟨Ruleset.trims_build derives, limits.snippetContext, chosen, among, families⟩

namespace Scan

section Parts

variable {engine : Engine} {tree : List TreeEntry}

/-- The findings of a stage of a file. -/
def Stage.found (stage : Stage (Option (List Finding))) : List Finding := stage.value.getD []

lemma flatten_scanned_found (stages : List (Stage (Option (List Finding)))) :
    (scanned stages).flatten = (stages.map Stage.found).flatten := by
  induction stages with
  | nil => rfl
  | cons stage stages ih =>
    unfold scanned at ih ⊢
    cases is : stage.value with
    | none =>
      rw [List.filterMap_cons_none is, ih]
      simp [Stage.found, is]
    | some found =>
      rw [List.filterMap_cons_some is, List.flatten_cons, ih]
      simp [Stage.found, is]

/-- What is found in a file. -/
lemma headed_fileStage (catalog : engine.OfCatalog) {path : String} {reply : Except String String}
    {stage : Stage (Option (List Finding))} (scans : fileStage engine path reply = .ok stage) :
    Headed stage.found fileHeads ∧ ∀ finding ∈ stage.found, finding.filePath = some path := by
  cases reply with
  | error reason =>
    cases scans
    exact ⟨.nil, fun finding found => nomatch found⟩
  | ok content =>
    obtain ⟨findings, scan, is⟩ := exists_of_bind_ok scans
    obtain rfl := Except.ok.inj is
    obtain ⟨context, chosen, sub, families⟩ := catalog.families
    have evaluates : engine.scanFile path content.toList =
        .ok (chosen.map fun family => family.evaluate engine.rules context (.of path content.toList)).flatten := by
      rw [Engine.scanFile, families]
      exact BuiltinFamily.scanFile_builtin engine.rules engine.limits chosen path content.toList
    obtain rfl := Except.ok.inj (evaluates.symm.trans scan)
    exact ⟨sublistForall₂_mono (BuiltinFamily.headed_flatten catalog.trims chosen) (sub.flatMap _),
      fun finding found => BuiltinFamily.filePath_flatten found⟩

/-- What is found in files of different paths. -/
lemma differs_scanned (catalog : engine.OfCatalog) {files : List (String × Except String String)}
    {stages : List (Stage (Option (List Finding)))} (scans : scanAll engine files = .ok stages)
    (paths : (files.map (·.1)).Nodup) (within : fileHeads.Pairwise Apart) :
    (scanned stages).flatten.Pairwise Finding.Differs ∧ Among (scanned stages).flatten fileHeads ∧
      ∀ finding ∈ (scanned stages).flatten, ∃ path ∈ files.map (·.1), finding.filePath = some path := by
  rw [flatten_scanned_found]
  replace scans := forall₂_of_mapM scans
  induction scans with
  | nil => exact ⟨.nil, fun finding found => (nomatch found), fun finding found => nomatch found⟩
  | @cons file stage files stages scan _ ih =>
    obtain ⟨headed, ofFile⟩ := headed_fileStage catalog scan
    obtain ⟨other, paths⟩ := List.nodup_cons.mp paths
    obtain ⟨pairs, among, ofFiles⟩ := ih paths
    rw [List.map_cons, List.flatten_cons]
    refine ⟨List.pairwise_append.mpr ⟨headed.pairwise within, pairs, fun one found later found' => ?_⟩, ?_, ?_⟩
    · -- Of the files after this one, none has its path.
      obtain ⟨path, asked, ofPath⟩ := ofFiles later found'
      refine Finding.differs_of_filePath ?_
      rw [ofFile one found, ofPath]
      rintro ⟨⟩
      exact other asked
    · intro finding found
      rcases List.mem_append.mp found with found | found
      · exact headed.among finding found
      · exact among finding found
    · intro finding found
      rcases List.mem_append.mp found with found | found
      · exact ⟨file.1, .head _, ofFile finding found⟩
      · obtain ⟨path, asked, ofPath⟩ := ofFiles finding found
        exact ⟨path, .tail _ asked, ofPath⟩

/-- What is found in a manifest. -/
lemma headed_manifestStage (catalog : engine.OfCatalog) {reply : Except String String} {stage : Stage (List Finding)}
    (analyzes : manifestStage engine tree reply = .ok stage) : Headed stage.value Manifest.titles := by
  cases reply with
  | error reason =>
    cases analyzes
    exact .nil
  | ok text =>
    unfold manifestStage at analyzes
    dsimp only at analyzes
    cases is : Manifest.analyze engine.rules tree text with
    | ok report =>
      rw [is] at analyzes
      cases analyzes
      exact Manifest.headed_analyze catalog.trims is
    | error failure =>
      rw [is] at analyzes
      dsimp only at analyzes
      split at analyzes
      · cases analyzes
      · cases analyzes
        exact .nil

end Parts

section Answers

variable {engine : Engine} {answers : Answers} {stages : List (Stage (Option (List Finding)))}
  {last : Option (Stage (List Finding))}

lemma Answers.Analyzed.headed (catalog : engine.OfCatalog) (analyzed : answers.Analyzed engine last) :
    Headed ((last.map (·.value)).getD []) Manifest.titles := by
  cases last with
  | none => exact .nil
  | some stage =>
    obtain ⟨reply, -, analyzes⟩ := Option.map_eq_some_iff.mp analyzed.analyzes
    exact headed_manifestStage catalog analyzes

/-- The paths of the files that are to be scanned differ when those of the tree do. -/
lemma Answers.nodup_targets (engine : Engine) (answers : Answers) (paths : (Tree.filePaths answers.entries).Nodup) :
    (answers.targets engine).Nodup := by
  refine List.Nodup.sublist (List.Sublist.map _ ((List.take_sublist _ _).trans ?_)) paths
  refine List.monotone_filter_right _ fun entry scans => ?_
  simp only [Engine.shouldScan, Bool.and_eq_true] at scans
  exact scans.1.1

/-- What a scan finds apart from sensitive files. -/
def Answers.furtherFound (engine : Engine) (answers : Answers) (stages : List (Stage (Option (List Finding))))
    (last : Option (Stage (List Finding))) : List Finding :=
  Tree.layout engine.rules answers.entries ++ (scanned stages).flatten ++ (last.map (·.value)).getD []

lemma differs_further (catalog : engine.OfCatalog) (scanned : answers.Scanned engine stages)
    (analyzed : answers.Analyzed engine last) (paths : (Tree.filePaths answers.entries).Nodup) :
    (answers.furtherFound engine stages last).Pairwise Finding.Differs ∧
      Among (answers.furtherFound engine stages last) (Tree.layoutTitles ++ fileHeads ++ Manifest.titles) := by
  obtain ⟨outside, inManifest, fromManifest⟩ := List.pairwise_append.mp heads_apart
  obtain ⟨inLayout, inFiles, fromLayout⟩ := List.pairwise_append.mp outside
  obtain ⟨pairs, among, -⟩ :=
    differs_scanned catalog scanned.scans (scanned.asked ▸ answers.nodup_targets engine paths) inFiles
  have layout := Tree.headed_layout engine.rules answers.entries
  have manifest := analyzed.headed catalog
  exact ⟨List.pairwise_append.mpr
    ⟨List.pairwise_append.mpr ⟨layout.pairwise inLayout, pairs, layout.among.differs among fromLayout⟩,
      manifest.pairwise inManifest, (layout.among.append among).differs manifest.among fromManifest⟩,
    (layout.among.append among).append manifest.among⟩

/-- Sensitive files have the titles of the catalog, and two of one title are private keys. -/
lemma sensitive_found (catalog : engine.OfCatalog) (tree : List TreeEntry) :
    Among (Tree.sensitiveFiles engine.rules tree) (Catalog.sensitiveFiles.map (·.title.toList)) ∧
      (Tree.sensitiveFiles engine.rules tree).Pairwise fun one other =>
        one.signature = other.signature → one.title = privateKeyTitle := by
  have follows : List.SublistForall₂ (fun finding file => finding.title = file.title)
      (Tree.sensitiveFiles engine.rules tree) (Catalog.sensitiveFiles.map id) := by
    unfold Tree.sensitiveFiles
    rw [catalog.trims.sensitiveFiles]
    refine sublistForall₂_filterMap (fun file finding is => ?_) _
    obtain ⟨path, -, rfl⟩ := Option.map_eq_some_iff.mp is
    rfl
  rw [List.map_id] at follows
  constructor
  · intro finding found
    obtain ⟨file, known, same⟩ := exists_of_mem_sublistForall₂ follows finding found
    exact ⟨_, List.mem_map_of_mem known, same ▸ List.prefix_rfl⟩
  · refine pairwise_of_sublistForall₂ follows sensitive_titles fun {one other file file'} is is' key same => ?_
    have titles : one.title = other.title := congrArg Prod.fst same
    rw [is]
    exact key (by rw [← is, ← is', titles])

/-- Where two findings of one signature can stand. -/
lemma of_same_signature {first rest : List Finding} {title : String}
    (within : first.Pairwise fun one other => one.signature = other.signature → one.title = title)
    (across : ∀ f ∈ first, ∀ g ∈ rest, f.Differs g) (pairs : rest.Pairwise Finding.Differs) {i j : Nat}
    {one other : Finding} (order : i < j) (stands : (first ++ rest)[i]? = some one)
    (stands' : (first ++ rest)[j]? = some other) (same : one.signature = other.signature) :
    j < first.length ∧ one.title = title := by
  rcases Nat.lt_or_ge j first.length with inside | beyond
  · rw [List.getElem?_append_left inside] at stands'
    rw [List.getElem?_append_left (by omega)] at stands
    obtain ⟨within', rfl⟩ := List.getElem?_eq_some_iff.mp stands
    obtain ⟨_, rfl⟩ := List.getElem?_eq_some_iff.mp stands'
    exact ⟨inside, List.pairwise_iff_getElem.mp within i j within' inside order same⟩
  · rw [List.getElem?_append_right beyond] at stands'
    rcases Nat.lt_or_ge i first.length with inside | beyond'
    · rw [List.getElem?_append_left inside] at stands
      exact absurd same (across one (List.mem_of_getElem? stands) other (List.mem_of_getElem? stands'))
    · rw [List.getElem?_append_right beyond'] at stands
      obtain ⟨within', rfl⟩ := List.getElem?_eq_some_iff.mp stands
      obtain ⟨within, rfl⟩ := List.getElem?_eq_some_iff.mp stands'
      exact absurd same (List.pairwise_iff_getElem.mp pairs _ _ within' within (by omega))

/-- Of all that a scan finds before it leaves out what it found twice, two findings have one title and one file only
when both are sensitive files that are private keys by their names. So nothing else is left out. -/
theorem repeated_findings_are_private_keys {settings : RuleSettings} {limits : Limits}
    (builds : Engine.build settings limits = .ok engine) (scanned : answers.Scanned engine stages)
    (analyzed : answers.Analyzed engine last) (paths : (Tree.filePaths answers.entries).Nodup) :
    let sensitive := Tree.sensitiveFiles engine.rules answers.entries
    let found := answers.detected engine stages ++ (last.map (·.value)).getD []
    (∀ i j one other, i ≠ j → found[i]? = some one → found[j]? = some other → one.signature = other.signature →
      i < sensitive.length ∧ j < sensitive.length ∧ one.title = privateKeyTitle ∧ other.title = privateKeyTitle) ∧
      Finding.distinct found = Finding.distinct sensitive ++ found.drop sensitive.length := by
  intro sensitive found
  have catalog := Engine.ofCatalog_build builds
  obtain ⟨pairs, among⟩ := differs_further catalog scanned analyzed paths
  obtain ⟨titled, within⟩ := sensitive_found catalog answers.entries
  have across := titled.differs among (by simpa using sensitive_apart)
  have split : found = sensitive ++ answers.furtherFound engine stages last := by
    simp [found, sensitive, Answers.detected, Answers.furtherFound]
  constructor
  · intro i j one other different stands stands' same
    rw [split] at stands stands'
    have titles : one.title = other.title := congrArg Prod.fst same
    rcases Nat.lt_or_gt_of_ne different with order | order
    · obtain ⟨inside, key⟩ := of_same_signature within across pairs order stands stands' same
      exact ⟨order.trans inside, inside, key, titles ▸ key⟩
    · obtain ⟨inside, key⟩ := of_same_signature within across pairs order stands' stands same.symm
      exact ⟨inside, order.trans inside, titles ▸ key, key⟩
  · rw [split, Finding.distinct_append across pairs, List.drop_left]

/-- A host with a file in a folder, both of which have the name of a private key, and with a file of dangerous code. -/
def keyAnswers : Answers where
  host := "host"
  snapshot := {}
  languages := .ok []
  tree := .ok [⟨"keys/id_rsa/id_ed25519", "file", none⟩, ⟨"a.js", "file", none⟩]
  files := [("a.js", .ok "eval(x)")]

lemma keyAnswers_found : ∃ engine stages,
    Engine.build {} {} = .ok engine ∧ keyAnswers.Scanned engine stages ∧ keyAnswers.Analyzed engine none ∧
      (keyAnswers.detected engine stages).map Finding.signature =
        [(privateKeyTitle, some "keys/id_rsa/id_ed25519"), (privateKeyTitle, some "keys/id_rsa/id_ed25519"),
          ("Missing .gitignore File", none), ("No CI/CD Pipeline Configured", none),
          ("Use of eval() in a.js", some "a.js")] :=
  ⟨_, _, rfl, ⟨rfl, rfl⟩, ⟨rfl, rfl⟩, by decide +kernel⟩

theorem repeated_findings_are_private_keys_twice : ∃ engine stages one other rest,
    Engine.build {} {} = .ok engine ∧ keyAnswers.Scanned engine stages ∧ keyAnswers.Analyzed engine none ∧
      (Tree.filePaths keyAnswers.entries).Nodup ∧ keyAnswers.detected engine stages = one :: other :: rest ∧
      one.signature = other.signature ∧ one.title = privateKeyTitle ∧
      1 < (Tree.sensitiveFiles engine.rules keyAnswers.entries).length ∧
      Finding.distinct (one :: other :: rest) =
        Finding.distinct (Tree.sensitiveFiles engine.rules keyAnswers.entries) ++
          (one :: other :: rest).drop (Tree.sensitiveFiles engine.rules keyAnswers.entries).length := by
  obtain ⟨engine, stages, builds, scanned, analyzed, signatures⟩ := keyAnswers_found
  have paths : (Tree.filePaths keyAnswers.entries).Nodup := by decide
  obtain ⟨places, kept⟩ := repeated_findings_are_private_keys builds scanned analyzed paths
  obtain ⟨one, _, is, first, signatures⟩ := List.map_eq_cons_iff.mp signatures
  obtain ⟨other, rest, rfl, second, -⟩ := List.map_eq_cons_iff.mp signatures
  simp only [Option.map_none, Option.getD_none, List.append_nil, is] at places kept
  have same : one.signature = other.signature := first.trans second.symm
  obtain ⟨-, inside, key, -⟩ := places 0 1 one other (by decide) rfl rfl same
  exact ⟨engine, stages, one, other, rest, builds, scanned, analyzed, paths, is, same, key, inside, kept⟩

end Answers

end Scan

end RepoAudit
