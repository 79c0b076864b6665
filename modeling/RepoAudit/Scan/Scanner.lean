import RepoAudit.Scan.Run
import RepoAudit.Scan.Start

/-!
# Scanners

A scanner is a world with the scans that have been accepted and have not ended. Requests for scans are
served one at a time; accepted scans go on between them.
-/

namespace RepoAudit

/-- A scan that has not ended. -/
structure LiveScan where
  number : Nat
  auditId : String
  program : Program (Except StoreError (Option AuditRecord))

/-- A world with an engine and the scans that have not ended. -/
structure Scanner where
  world : World
  engine : Engine
  live : List LiveScan := []

namespace Scanner

/-- Does an operation on the store. -/
def onStore {α : Type} (scanner : Scanner) (action : Ledger.Action α) :
    Except StoreError α × Scanner :=
  let (result, world) := scanner.world.onLedger action
  (result, { scanner with world })

/-- Changes the world. -/
def onWorld (scanner : Scanner) (change : World → World) : Scanner :=
  { scanner with world := change scanner.world }

/-- The number of the next scan that is accepted. -/
def nextNumber (scanner : Scanner) : Nat := scanner.world.executor.jobs.length

/-- Asks for a scan. An accepted scan becomes live. -/
def start (scanner : Scanner) (auditId : String) : Except StoreError Scan.Acceptance × Scanner :=
  let number := scanner.nextNumber
  let (result, world) := (Scan.start auditId).run.run scanner.world
  let live :=
    match world.executor.job? number with
    | some job => scanner.live ++ [⟨number, job.auditId, Scan.run scanner.engine job.auditId⟩]
    | none => scanner.live
  (result, { scanner with world, live })

/-- The live scan of a number. -/
def live? (scanner : Scanner) (number : Nat) : Option LiveScan :=
  scanner.live.find? (·.number == number)

/-- Lets a live scan go on to its end, or to a call that has to wait. A scan that ends is reported, and
its result is given. -/
def resume (scanner : Scanner) (waits : Call → Bool) (number : Nat) :
    Option (Except StoreError (Option AuditRecord)) × Scanner :=
  match scanner.live? number with
  | none => (none, scanner)
  | some scan =>
    let (program, world) := scan.program.runUntil waits scanner.world
    match program with
    | .done result =>
      let executor := (world.executor.finish number).report number
      (some result, { scanner with
        world := { world with executor }
        live := scanner.live.filter (·.number != number) })
    | program =>
      (none, { scanner with
        world
        live := scanner.live.map fun other =>
          if other.number == number then { other with program } else other })

/-- Runs the scan of an audit at once, without asking the executor. -/
def runNow (scanner : Scanner) (auditId : String) :
    Except StoreError (Option AuditRecord) × Scanner :=
  let (result, world) := (Scan.run scanner.engine auditId).run scanner.world
  (result, { scanner with world })

end Scanner

end RepoAudit
