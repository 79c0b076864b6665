import RepoAudit.Proofs.Traffic.Request
import Mathlib.Data.List.Induction

/-!
# Intervals

What the invariant says about whole histories: the intervals of an audit never overlap, the audit is marked as
running just inside them, a scan writes its audit inside its own interval only, and the log that is stored is
the beginning of what the latest accepted scan publishes.
-/

namespace RepoAudit.Traffic

variable {hs : List Happening} {h : Happening} {t₀ t t' : Traffic} {auditId : String}

/-- A step leaves the engine and the source of ids, and may draw more of them. -/
lemma Step.later (step : Step t h t') (saved : h.Saved) : Later t t' := by
  cases step with
  | served serving | scanned live =>
    obtain ⟨ids, drawn⟩ := World.perform_ids saved
    exact ⟨ids, drawn, rfl⟩
  | did errand =>
    have does := errand.does t.world.ledger
    refine ⟨?_, ?_, rfl⟩
    · change (Ledger.Action.on errand.action t.world.ledger).2.ids = _
      exact does.ids
    · change _ ≤ (Ledger.Action.on errand.action t.world.ledger).2.drawn
      exact does.drawn
  | _ => exact ⟨rfl, Nat.le_refl _, rfl⟩

/-- An audit that is lost stays lost: a step changes only audits that are there, and makes one under an id
that was not drawn before. -/
lemma Lost.step (lost : Lost t auditId) (step : Step t h t') (saved : h.Saved) : Lost t' auditId := by
  refine lost.later (step.later saved) ?_
  have missing : t.world.ledger.store.audit? auditId = none := lost.1
  cases step with
  | served serving | scanned live =>
    obtain ⟨-, same⟩ | ⟨id, changes, audit, found, -, effect⟩ := World.perform_audits saved
    · exact (same auditId).trans missing
    · refine (effect auditId).trans ?_
      rw [if_neg, missing]
      rintro rfl
      rw [missing] at found
      cases found
  | did errand =>
    have does := errand.does t.world.ledger
    exact does.missing missing fun made => lost.2 _ (Nat.lt_succ_self _) made
  | _ => exact missing

/-- An audit that is lost stays lost in every run. -/
lemma Lost.runs (lost : Lost t auditId) (runs : Runs t hs t') (saved : ∀ h ∈ hs, h.Saved) :
    Lost t' auditId := by
  induction runs with
  | none => exact lost
  | more _ step ih =>
    exact (ih fun h happened => saved h (List.mem_append_left _ happened)).step step
      (saved _ (List.mem_append_right _ List.mem_cons_self))

/-- The invariant holds on after more steps. -/
lemma Sound.runs {more : List Happening} (sound : Sound hs t) (runs : Runs t more t')
    (saved : ∀ h ∈ more, h.Saved) : Sound (hs ++ more) t' := by
  induction runs with
  | none => simpa using sound
  | more _ step ih =>
    rw [← List.append_assoc]
    exact (ih fun h happened => saved h (List.mem_append_left _ happened)).step step
      (saved _ (List.mem_append_right _ List.mem_cons_self))

/-- Of the requests that marked an audit, there is a newest one. -/
lemma exists_newest (begun : ∃ k base, Begun hs auditId k base) : ∃ k, Newest hs auditId k := by
  induction hs using List.reverseRecOn with
  | nil =>
    obtain ⟨k, base, begun⟩ := begun
    simp [Begun] at begun
  | append_singleton hs h ih =>
    by_cases last : ∃ k base, h = .served k ⟨.updateAudit auditId Scan.beginning, .ok (some base)⟩
    · obtain ⟨k, base, is⟩ := last
      have here : ∃ base, Begun (hs ++ [h]) auditId k base := ⟨base, begun_concat.mpr (.inr is)⟩
      have after {i base'} (begun : Begun (hs ++ [h]) auditId i base') :
          Begun hs auditId i base' ∨ i = k := by
        refine (begun_concat.mp begun).imp_right fun same => ?_
        rw [is, Happening.served.injEq] at same
        exact same.1.symm
      by_cases earlier : ∃ j base', Begun hs auditId j base'
      · obtain ⟨j, ⟨base', begun'⟩, newest⟩ := ih earlier
        obtain older | newer := Nat.le_total j k
        · refine ⟨k, here, fun i base'' begunI => ?_⟩
          obtain old | rfl := after begunI
          · exact Nat.le_trans (newest i base'' old) older
          · exact Nat.le_refl _
        · refine ⟨j, ⟨base', begun'.later⟩, fun i base'' begunI => ?_⟩
          obtain old | rfl := after begunI
          · exact newest i base'' old
          · exact newer
      · refine ⟨k, here, fun i base'' begunI => ?_⟩
        obtain old | rfl := after begunI
        · exact absurd ⟨i, base'', old⟩ earlier
        · exact Nat.le_refl _
    · have same {k base} : Begun (hs ++ [h]) auditId k base ↔ Begun hs auditId k base := by
        rw [begun_concat]
        exact or_iff_left fun is => last ⟨k, base, is⟩
      obtain ⟨k, base, begun⟩ := begun
      obtain ⟨j, newest⟩ := ih ⟨k, base, same.mp begun⟩
      exact ⟨j, by simpa [Newest, same] using newest⟩

section Accepted

variable {k n : Nat} {base : AuditRecord}

/-- A scan calls what it may call while it holds its audit. -/
lemma Sound.scan_allowed {e : Exchange} (sound : Sound hs t) (step : Step t (.scanned n e) t')
    (begun : Begun hs auditId k base) (admitted : Admitted hs auditId k n) :
    Scan.tenureAllows auditId (progress base n hs) e.call := by
  obtain ⟨owner, next, live, -, -⟩ := step.scanned_inv
  obtain ⟨⟨j, admitted'⟩, -⟩ := sound.tidy.live _ live
  obtain rfl : owner = auditId := (sound.tidy.one _ _ _ _ _ admitted' admitted).1
  have course := (sound.regular owner).course k n base begun admitted
  exact (course.program sound.tidy live).1

/-- A step adds to the log of a scan or leaves it. -/
lemma Sound.log_grows (sound : Sound hs t) (step : Step t h t')
    (begun : Begun hs auditId k base) (admitted : Admitted hs auditId k n) :
    Scan.Grows (progress base n hs).audit.scanLog (progress base n (hs ++ [h])).audit.scanLog := by
  have course := (sound.regular auditId).course k n base begun admitted
  by_cases call : ∃ e, h = .scanned n e
  · obtain ⟨e, rfl⟩ := call
    rw [progress_concat_scanned]
    exact tenure_grows (sound.scan_allowed step begun admitted) course.logged
  · obtain ⟨entries, log⟩ := course.logged
    rw [progress_concat_other fun e is => call ⟨e, is⟩]
    exact ⟨entries, [], log, by rw [log, List.append_nil]⟩

/-- A run adds to the log of a scan or leaves it. -/
lemma Sound.log_grows_runs {more : List Happening} (sound : Sound hs t) (runs : Runs t more t')
    (saved : ∀ h ∈ more, h.Saved) (begun : Begun hs auditId k base)
    (admitted : Admitted hs auditId k n) :
    Scan.Grows (progress base n hs).audit.scanLog
      (progress base n (hs ++ more)).audit.scanLog := by
  induction runs with
  | none =>
    obtain ⟨entries, log⟩ := ((sound.regular auditId).course k n base begun admitted).logged
    exact ⟨entries, [], log, by rw [List.append_nil, List.append_nil, log]⟩
  | @more t₁ t₂ steps h first step ih =>
    have saved' : ∀ h ∈ steps, h.Saved := fun h happened => saved h (List.mem_append_left _ happened)
    obtain ⟨entries, rest, before, after⟩ := ih saved'
    have begun' : Begun (hs ++ steps) auditId k base := List.mem_append_left _ begun
    have admitted' : Admitted (hs ++ steps) auditId k n := List.mem_append_left _ admitted
    obtain ⟨entries', rest', before', after'⟩ := (sound.runs first saved').log_grows step begun' admitted'
    obtain rfl : entries ++ rest = entries' := by simpa [after] using before'
    exact ⟨entries, rest ++ rest', before, by rw [← List.append_assoc, after', List.append_assoc]⟩

/-- The stored log of an audit is the beginning of what its latest accepted scan publishes, now and later. -/
lemma Sound.log_begins {more : List Happening} {audit : AuditRecord} (sound : Sound hs t)
    (found : t.audit? auditId = some audit) (runs : Runs t more t') (saved : ∀ h ∈ more, h.Saved)
    (begun : Begun hs auditId k base) (admitted : Admitted hs auditId k n)
    (latest : ∀ j m base', Begun hs auditId j base' → Admitted hs auditId j m → j ≤ k) :
    Scan.Grows audit.scanLog (progress base n (hs ++ more)).audit.scanLog := by
  have regular := sound.regular auditId
  obtain ⟨j, newest⟩ := exists_newest ⟨k, base, begun⟩
  by_cases taken : ∃ m, Admitted hs auditId j m
  · obtain ⟨m, admitted'⟩ := taken
    obtain ⟨base', begun'⟩ := newest.1
    obtain rfl : j = k :=
      Nat.le_antisymm (latest j m base' begun' admitted') (newest.2 k base begun)
    rw [(regular.course j n base begun admitted).stored newest audit found]
    exact sound.log_grows_runs runs saved begun admitted
  · -- The newest request got no scan, or none yet, so what is stored is the empty log that it left.
    have empty := regular.cleared j newest (fun m admitted' => taken ⟨m, admitted'⟩) audit found
    obtain ⟨entries, log⟩ := ((sound.runs runs saved).regular auditId).course k n base
      (List.mem_append_left _ begun) (List.mem_append_left _ admitted) |>.logged
    exact ⟨[], entries, empty, log⟩

end Accepted

/-- A scan that writes an audit which is still there later does so inside the interval of its request. -/
lemma Sound.inside {e : Exchange} {n : Nat} {t₁ : Traffic} {after : List Happening}
    (sound : Sound hs t) (step : Step t (.scanned n e) t₁) (saved : Happening.Saved (.scanned n e))
    (writes : e.call.WritesTo auditId) (later : Runs t₁ after t') (saved' : ∀ h ∈ after, h.Saved)
    (present : t'.audit? auditId ≠ none) : ∃ k, Admitted hs auditId k n ∧ Open hs auditId k := by
  have unlost : ¬ Lost t auditId := fun lost =>
    present ((lost.step step saved).runs later saved').1
  obtain ⟨owner, next, live, -, -⟩ := step.scanned_inv
  obtain ⟨-, stays, -⟩ := sound.tidy.live _ live
  obtain rfl : auditId = owner := by
    rcases e with ⟨c, reply⟩
    cases c with
    | updateAudit id changes => exact Eq.trans (Eq.symm writes) stays
    | createFinding id draft => exact Eq.trans (Eq.symm writes) stays
    | _ => exact writes.elim
  exact sound.holder live writes unlost

/-- One scan of an audit at a time, and no stale writes. Whatever requests, scans, reports and errands come in
whatever order, for an audit that is there: at no moment were two of its intervals open, it is marked as
running just when one is open now, every write of a scan to it came inside the interval of the scan's own
request, and its log is the beginning of what the latest accepted scan has published at any later moment. -/
theorem scans_take_turns {audit : AuditRecord} (idle : Idle t₀) (runs : Runs t₀ hs t)
    (saved : ∀ h ∈ hs, h.Saved) (found : t.audit? auditId = some audit) :
    (∀ before after, hs = before ++ after →
      ∀ j k, Open before auditId j → Open before auditId k → j = k) ∧
    (audit.isRunning = true ↔ ∃ k, Open hs auditId k) ∧
    (∀ before n e after, hs = before ++ .scanned n e :: after → e.call.WritesTo auditId →
      ∃ k, Admitted before auditId k n ∧ Open before auditId k) ∧
    ∀ k n base, Begun hs auditId k base → Admitted hs auditId k n →
      (∀ j m base', Begun hs auditId j base' → Admitted hs auditId j m → j ≤ k) →
      ∀ more t', Runs t more t' → (∀ h ∈ more, h.Saved) → ∃ entries rest,
        audit.scanLog = .array entries ∧
        (progress base n (hs ++ more)).audit.scanLog = .array (entries ++ rest) := by
  have sound := idle.sound_runs runs saved
  refine ⟨?_, ?_, ?_, ?_⟩
  · rintro before after rfl j k one other
    obtain ⟨t₁, first, -⟩ := runs.cut
    have sound' := idle.sound_runs first fun h happened => saved h (List.mem_append_left _ happened)
    exact (sound'.regular auditId).unique one other
  · rw [← (sound.regular auditId).status]
    simp [found]
  · rintro before n e after rfl writes
    obtain ⟨t₁, t₂, first, step, rest⟩ := runs.split
    have sound' := idle.sound_runs first fun h happened => saved h (by simp [happened])
    refine sound'.inside step (saved _ (by simp)) writes rest (fun h happened => saved h ?_) ?_
    · simp [happened]
    · rw [found]
      exact Option.some_ne_none _
  · intro k n base begun admitted latest more t' later saved'
    exact sound.log_begins found later saved' begun admitted latest

/-- A service with one audit, of which one finding was detected and one was entered. Its host cannot be
reached. -/
def sample : Traffic where
  world := {
    ledger := {
      store := {
        audits := [{ id := "i", ownerName := .text "owner", repoName := .text "name" }]
        findings := [
          { id := "ii", auditId := .text "i", category := .text "security", severity := .text "low"
            title := .text "detected", description := .text "", businessImpact := .text ""
            fixSteps := .text "" },
          { id := "iii", auditId := .text "i", category := .text "security", severity := .text "low"
            title := .text "entered", description := .text "", businessImpact := .text ""
            fixSteps := .text "", autoDetected := .bool false }] }
      now := ⟨2024, 1, 1, 0, 0, 0, 0⟩
      ids := fun n => String.ofList (List.replicate n 'i')
      drawn := 3 }
    host := {
      name := "host"
      repository := fun _ _ => .error "unreachable"
      languages := fun _ _ => .error "unreachable"
      tree := fun _ _ _ => .error "unreachable"
      file := fun _ _ _ => .error "unreachable" } }
  engine := ⟨{}, {}, []⟩

lemma sample_idle : Idle sample := by
  refine ⟨?_, ?_, rfl, rfl, ?_⟩
  · intro m n same
    have := congrArg String.length same
    simpa [sample] using this
  · intro n fresh
    have long : 3 < n := fresh
    have other : (String.ofList (List.replicate n 'i')) ≠ "i" := by
      intro same
      have length := congrArg List.length (congrArg String.toList same)
      rw [String.toList_ofList, List.length_replicate] at length
      rw [length] at long
      revert long
      decide
    simpa [sample, Traffic.audit?, Store.audit?] using other.symm
  · intro auditId audit found
    have member := List.mem_of_find?_eq_some found
    simp [sample] at member
    subst member
    rfl

/-- The service when a scan of its audit has just been asked for. -/
def sampleAsked : Traffic :=
  { sample with serving := some ⟨0, "i", (Scan.start "i").run⟩, asked := 1 }

lemma sample_runs (n : Nat) :
    Runs sample (.asked 0 "i" :: (sampleAsked.turns n).1) (sampleAsked.turns n).2 :=
  (runs_turns n sampleAsked).cons (.asked "i" rfl)

/-- In the middle of a scan, the interval of its request is open. -/
theorem scans_take_turns_midway :
    (((sampleAsked.turns 12).2.audit? "i").map (·.isRunning) = some true) ∧
    ∃ k, Open (.asked 0 "i" :: (sampleAsked.turns 12).1) "i" k := by
  refine ⟨by decide, ?_⟩
  exact (scans_take_turns sample_idle (sample_runs 12) (by decide) rfl).2.1.mp (by decide)

end RepoAudit.Traffic
