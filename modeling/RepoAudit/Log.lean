import RepoAudit.Clock
import RepoAudit.Disk.Basic

/-!
# Logs

Messages that the program tells while it runs, each with a level and the name of its logger. Messages at or
above the threshold go to the console and, if there is one, to a file; a line of the file also has the time
and the thread.
-/

namespace RepoAudit

/-- The levels of messages. -/
inductive LogLevel where
  | debug
  | info
  | warning
  | error
  | critical
  deriving DecidableEq, Repr

namespace LogLevel

/-- The number of a level; a higher one is more important. -/
def number : LogLevel → Nat
  | debug => 10
  | info => 20
  | warning => 30
  | error => 40
  | critical => 50

/-- The name of a level. -/
def name : LogLevel → String
  | debug => "DEBUG"
  | info => "INFO"
  | warning => "WARNING"
  | error => "ERROR"
  | critical => "CRITICAL"

/-- All levels, the least important first. -/
def all : List LogLevel := [debug, info, warning, error, critical]

end LogLevel

/-- A message. -/
structure LogRecord where
  logger : String
  level : LogLevel
  message : String
  time : Instant
  thread : String := "MainThread"
  deriving DecidableEq, Repr

/-- Where messages go, and from which level on. -/
structure Log where
  threshold : LogLevel
  file : Option Path := none
  deriving DecidableEq, Repr

namespace Log

/-- The name of the logger of the whole program. -/
def rootName : String := "codescope"

/-- The full name of a logger; without a name of its own it is that of the whole program. -/
def loggerName : Option String → String
  | some name => if name.isEmpty then rootName else rootName ++ "." ++ name
  | none => rootName

/-- A log whose threshold depends on how much is to be told. -/
def configure (verbose : Bool) (file : Option Path) : Log := ⟨if verbose then .debug else .info, file⟩

/-- The number of places that messages go to. -/
def handlerCount (log : Log) : Nat := if log.file.isSome then 2 else 1

/-- True of the messages that are told. -/
def tells (log : Log) (record : LogRecord) : Bool := log.threshold.number ≤ record.level.number

/-- The line of a message on the console. -/
def consoleLine (record : LogRecord) : String :=
  "[" ++ rootName ++ "] " ++ record.level.name ++ " " ++ record.message ++ "\n"

/-- The time of a message, to the millisecond. -/
def timeText (t : Instant) : String :=
  Text.padded 4 t.year ++ "-" ++ Text.padded 2 t.month ++ "-" ++ Text.padded 2 t.day ++ " " ++
    Text.padded 2 t.hour ++ ":" ++ Text.padded 2 t.minute ++ ":" ++ Text.padded 2 t.second ++ "," ++
    Text.padded 3 (t.microsecond / 1000)

/-- The line of a message in a file, after the time. -/
def fileLineTail (record : LogRecord) : String :=
  " " ++ record.level.name ++ " " ++ record.thread ++ " " ++ record.logger ++ ": " ++ record.message

/-- The line of a message in a file. -/
def fileLine (record : LogRecord) : String := timeText record.time ++ fileLineTail record ++ "\n"

/-- What messages leave on the console. -/
def consoleText (log : Log) (records : List LogRecord) : String :=
  String.join ((records.filter log.tells).map consoleLine)

/-- What messages add to the file. -/
def fileText (log : Log) (records : List LogRecord) : String :=
  String.join ((records.filter log.tells).map fileLine)

/-- Makes the file if it is not there, with the directories above it. What the file holds stays. -/
def openFile (path : Path) (disk : Disk) : Except DiskError Disk :=
  match disk.makeDirectories path.parent with
  | (_, some failure) => .error failure
  | (disk, none) =>
    let full := Path.resolve disk.currentPath path
    match disk.read full with
    | .ok _ => .ok disk
    | .error _ => disk.write full []

/-- Opens the file of a log, if it has one. -/
def openOn (log : Log) (disk : Disk) : Except DiskError Disk :=
  match log.file with
  | some path => openFile path disk
  | none => .ok disk

end Log

end RepoAudit
