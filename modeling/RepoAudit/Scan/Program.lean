import RepoAudit.Host.Basic
import RepoAudit.Scan.Executor
import RepoAudit.Store.Ledger

/-!
# Programs

A program is a tree of calls: each call is one step that nothing interrupts, and the program goes on with
the reply. Programs that run at the same time take turns between their calls, so what may happen between
two calls is what another program's calls do.
-/

namespace RepoAudit

/-- A call: to the store, to the clock, to the host or to the executor. -/
inductive Call where
  | now
  | getAudit (id : String)
  | updateAudit (id : String) (changes : List (AuditField × Json))
  | createFinding (auditId : String) (draft : FindingRecord)
  | listFindings (auditId : String)
  | deleteFinding (id : String)
  | hostName
  | repository (owner name : String)
  | languages (owner name : String)
  | tree (owner name ref : String)
  | file (owner name path : String)
  | submit (auditId : String)
  | register (auditId : String) (number : Nat)
  | watch (number : Nat)

namespace Call

/-- What a call replies. -/
abbrev Reply : Call → Type
  | now => Instant
  | getAudit _ => Option AuditRecord
  | updateAudit _ _ => Except StoreError (Option AuditRecord)
  | createFinding _ _ => Except StoreError FindingRecord
  | listFindings _ => List FindingRecord
  | deleteFinding _ => Except StoreError Bool
  | hostName => String
  | repository _ _ => Except String Snapshot
  | languages _ _ => Except String (List (String × Int))
  | tree _ _ _ => Except String (List TreeEntry)
  | file _ _ _ => Except String String
  | submit _ => Option Nat
  | register _ _ => Unit
  | watch _ => Unit

end Call

/-- What calls reach: the store, the host and the executor. -/
structure World where
  ledger : Ledger
  host : SourceHost
  executor : Executor := {}

namespace World

/-- An operation on the store. -/
def onLedger {α : Type} (world : World) (action : Ledger.Action α) : Except StoreError α × World :=
  let (result, ledger) := action.run.run world.ledger
  (result, { world with ledger })

/-- A change of the executor. -/
def onExecutor (world : World) (change : Executor → Executor) : Unit × World :=
  ((), { world with executor := change world.executor })

/-- Performs a call. -/
def perform (world : World) : (call : Call) → call.Reply × World
  | .now => (world.ledger.now, world)
  | .getAudit id => (world.ledger.store.audit? id, world)
  | .updateAudit id changes => world.onLedger (Ledger.updateAudit id changes)
  | .createFinding auditId draft => world.onLedger (Ledger.createFinding auditId draft)
  | .listFindings auditId => (world.ledger.store.findingsOf auditId, world)
  | .deleteFinding id => world.onLedger (Ledger.deleteFinding id)
  | .hostName => (world.host.name, world)
  | .repository owner name => (world.host.repository owner name, world)
  | .languages owner name => (world.host.languages owner name, world)
  | .tree owner name ref => (world.host.tree owner name ref, world)
  | .file owner name path => (world.host.file owner name path, world)
  | .submit auditId =>
    let (number, executor) := world.executor.submit auditId
    (number, { world with executor })
  | .register auditId number => world.onExecutor (·.register auditId number)
  | .watch number => world.onExecutor (·.watch number)

end World

/-- A tree of calls that ends with a value. -/
inductive Program (α : Type) where
  | done (value : α)
  | call (call : Call) (next : call.Reply → Program α)

namespace Program

/-- Goes on with another program. -/
def bind {α β : Type} : Program α → (α → Program β) → Program β
  | .done value, next => next value
  | .call c rest, next => .call c fun reply => (rest reply).bind next

instance : Monad Program where
  pure := Program.done
  bind := Program.bind

/-- A single call. -/
def ask (c : Call) : Program c.Reply := .call c .done

/-- Runs a program to its end. -/
def run {α : Type} : Program α → World → α × World
  | .done value, world => (value, world)
  | .call c next, world =>
    let (reply, world) := world.perform c
    (next reply).run world

/-- Runs a program to its end, or to the first call that has to wait. -/
def runUntil {α : Type} (waits : Call → Bool) : Program α → World → Program α × World
  | .done value, world => (.done value, world)
  | .call c next, world =>
    if waits c then (.call c next, world)
    else
      let (reply, world) := world.perform c
      (next reply).runUntil waits world

/-- The calls that a program makes on its way to its end. -/
def calls {α : Type} : Program α → World → List Call
  | .done _, _ => []
  | .call c next, world =>
    let (reply, world) := world.perform c
    c :: (next reply).calls world

end Program

end RepoAudit
