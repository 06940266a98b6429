import Croupier.Archive.Backup
import Croupier.Calendar
import Croupier.Journal

/-!
# Croupier.Archive.Log

The log: lines that reach the threshold go to the console and to the file `latest.log`, which is
rolled over into a backup named after the day before.
-/

namespace Croupier
namespace Archive

/-- A record with its time and the name of the logger it came through; the root logger may go
without a name. -/
structure Line where
  time : String
  logger : String
  level : Level
  text : String
  deriving DecidableEq, Repr

/-- `TIME | LEVEL | LOGGER | TEXT` -/
def Line.render (l : Line) : String :=
  l.time ++ " | " ++ l.level.name ++ " | " ++ (if l.logger = "" then "root" else l.logger) ++
    " | " ++ l.text ++ "\n"

/-- The folder as it stands, what was printed, and the least level that gets through. -/
structure Log where
  threshold : Level
  console : String
  folder : Folder

def latest : String := "latest.log"

namespace Log

inductive Event where
  | line (l : Line)
  | rollOver (time : Int)
  deriving DecidableEq, Repr

/-- Ranks up to zero never get through. -/
def admits (log : Log) (level : Level) : Bool :=
  0 < level.rank && log.threshold.rank ≤ level.rank

/-- What is in `latest.log`. -/
def current (log : Log) : String :=
  match log.folder.get? latest with
  | some (.file (.text s)) => s
  | _ => ""

def write (log : Log) (l : Line) : Log :=
  if log.admits l.level then
    { log with
      console := log.console ++ l.render
      folder := log.folder.put latest (.file (.text (log.current ++ l.render))) }
  else
    log

/-- A log in a new folder, with a line that says when it began. -/
def start (threshold : Level) (time : String) : Log :=
  let log : Log :=
    { threshold := threshold
      console := ""
      folder := Folder.empty.put latest (.file (.text "")) }
  log.write ⟨time, "", .info, "==== Bot started at " ++ time ++ " ===="⟩

/-- A log that never began. Without a level of its own it would let warnings through. -/
def unopened : Log where
  threshold := .warning
  console := ""
  folder := Folder.empty

/-- The file that covers the day before `time` is moved out of the way, and a new one begun. -/
def rollOver (log : Log) (time : Int) : Except Date.Undatable Log :=
  match Date.ofSeconds? (time - Date.secondsPerDay) with
  | .error e => .error e
  | .ok date =>
    let (_, folder) := log.folder.rotate latest (latest ++ "." ++ date.text)
    .ok { log with folder := folder.put latest (.file (.text "")) }

def step (log : Log) : Event → Except Date.Undatable Log
  | .line l => .ok (log.write l)
  | .rollOver time => log.rollOver time

/-- The events in order, up to the first that fails. -/
def run (log : Log) : List Event → Except Date.Undatable Log
  | [] => .ok log
  | event :: events =>
    match log.step event with
    | .error e => .error e
    | .ok log => log.run events

end Log
end Archive
end Croupier
