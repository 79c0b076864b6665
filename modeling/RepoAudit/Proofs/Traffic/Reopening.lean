import RepoAudit.Proofs.Traffic.Use

/-!
# Stores that are opened again

Whatever a store was used for, its file holds it: opened again, it has the same audits and the same findings. Only
what tells how a scan ends is new, where the scan of an audit was running.
-/

namespace RepoAudit.Traffic

/-- The file of a store that was used can be opened at any time, and gives the audits and the findings that the
store has. Every finding is as it was. Every audit is as it was, apart from its status, the time of its scan and its
summary where its scan was running. -/
theorem stores_are_opened_again {t : Traffic} {path : Path} {fresh : Ledger} (used : Used t)
    (located : t.world.ledger.store.path = some path) (same : fresh.disk = t.world.ledger.disk) :
    ∃ again, Ledger.Action.on (Ledger.openStore (some path)) fresh = (.ok (), again) ∧
      (again.store.audits.map (·.id)).Perm (t.world.ledger.store.audits.map (·.id)) ∧
      (again.store.findings.map (·.id)).Perm (t.world.ledger.store.findings.map (·.id)) ∧
      (∀ id, again.store.finding? id = t.finding? id) ∧
      ∀ id audit, t.audit? id = some audit → ∃ other, again.store.audit? id = some other ∧
        audit.Agrees (if audit.isRunning then [.status, .scannedAt, .executiveSummary] else []) other := by
  obtain ⟨-, -, intact, restorable⟩ := used.consistent.ledger
  obtain ⟨kept, disk, restores, opens, -⟩ := restorable.opens intact located same
  refine ⟨_, opens, ?_, restores.findings.map _, restores.finding? intact, fun id audit found => ?_⟩
  · rw [Ledger.ids_closeRunning]
    exact restores.ids
  · obtain ⟨other, found', agrees⟩ := restores.audit? intact found
    refine ⟨Ledger.closed fresh.now other, ?_, Ledger.agrees_closed fresh.now agrees⟩
    rw [Ledger.audit?_closeRunning, found', Option.map_some]

section Sample

/-- A path in the root. -/
def samplePath : Path := ⟨true, ["store.json"]⟩

/-- The sample before it was used, with a file that is not there yet. -/
def sampleFiled : Traffic :=
  { sampleVacant with world := { sampleVacant.world with ledger :=
    { sampleVacant.world.ledger with store := { path := some samplePath } } } }

/-- An audit and a finding of it were made, and a scan of the audit was asked for. -/
def sampleAskedFor : Traffic :=
  { sampleFiled with
    world := stocked sampleFiled.world, serving := some ⟨0, "i", (Scan.start "i").run⟩, asked := 1 }

/-- The audit is marked. -/
def sampleMarked : Traffic := (turns 3 sampleAskedFor).2

lemma sampleFiled_vacant : Vacant sampleFiled where
  injective := sample_idle.injective
  audits := rfl
  findings := rfl
  file := fun path located => by
    obtain rfl := Option.some.inj located
    rfl
  live := rfl
  serving := rfl
  host := fun _ _ _ told => nomatch told

lemma sampleMarked_used : Used sampleMarked := by
  have host : sampleFiled.world.host.Typed := sampleFiled_vacant.host
  have made : Uses sampleFiled { sampleFiled with world := stocked sampleFiled.world } :=
    uses_stocked host (by decide +kernel) (by decide +kernel)
  have asked : Uses { sampleFiled with world := stocked sampleFiled.world } sampleAskedFor :=
    .single (.step (.asked "i" rfl) trivial trivial ((host_stocked sampleFiled.world).symm ▸ host))
  have host' : sampleAskedFor.world.host.Typed := (host_stocked sampleFiled.world).symm ▸ host
  have steps : Uses sampleAskedFor sampleMarked := uses_turns 3 sampleAskedFor host' (by decide +kernel)
  exact ⟨sampleFiled, sampleFiled_vacant, (made.trans asked).trans steps⟩

/-- A program ends while a scan is running: the store that is opened again has the finding, and the audit, which is
as it was apart from what tells how the scan ended. -/
theorem stores_are_opened_again_marked :
    ∃ audit again other, sampleMarked.audit? "i" = some audit ∧ audit.isRunning = true ∧
      Ledger.Action.on (Ledger.openStore (some samplePath)) sampleMarked.world.ledger.ended = (.ok (), again) ∧
      (again.store.finding? "ii").isSome = true ∧ again.store.audit? "i" = some other ∧
      audit.Agrees [.status, .scannedAt, .executiveSummary] other := by
  have marked : (sampleMarked.audit? "i").any (·.isRunning) = true := by decide +kernel
  have filed : (sampleMarked.finding? "ii").isSome = true := by decide +kernel
  obtain ⟨audit, found, running⟩ := (Option.any_eq_true _ _).mp marked
  have located : sampleMarked.world.ledger.store.path = some samplePath := by decide +kernel
  obtain ⟨again, opens, -, -, findings, audits⟩ :=
    stores_are_opened_again sampleMarked_used located (Ledger.disk_ended sampleMarked.world.ledger)
  obtain ⟨other, found', agrees⟩ := audits "i" audit found
  rw [if_pos running] at agrees
  exact ⟨audit, again, other, found, running, opens, (findings "ii").symm ▸ filed, found', agrees⟩

end Sample

end RepoAudit.Traffic
