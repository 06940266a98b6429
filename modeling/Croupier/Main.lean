import Croupier.Console

/-!
# Croupier.Main

The program: it starts from the environment and a `.env` file, and keeps a table at the console.
-/

namespace Croupier

open Entropy Settings

namespace Program

/-- The variables that are looked at. -/
def variableNames : List String :=
  ["DISCORD_TOKEN", "COMMAND_PREFIX", "LOG_LEVEL", "DICEBOT_DATA_DIR"]

def readEnvironment : IO Environment := do
  let mut found := #[]
  for name in variableNames do
    if let some value ← IO.getEnv name then
      found := found.push (name, value)
  return ⟨found.toList⟩

def readDefaults : IO (Option String) := do
  try
    return some (← IO.FS.readFile Start.defaultsFile)
  catch _ =>
    return none

def readSlot (path : Files.Path) : IO Slot := do
  try
    return .file (← IO.FS.readBinFile path.text)
  catch _ =>
    return .absent

/-- A supply of bytes for one command. -/
def freshProvider : IO Provider := do
  return .stream (← IO.getRandomBytes 65536).toList

/-- Commands until the input ends. -/
partial def serve (log : Archive.Log) (bot : Bot) (table : Table) : IO Unit := do
  let line ← (← IO.getStdin).getLine
  if line.isEmpty then return
  match Console.event? bot.lead "player" (Text.trim line) with
  | none => serve log bot table
  | some event =>
    let supply := { table.source.supply with provider := ← freshProvider }
    let source := { table.source with supply := supply }
    let (turn, table) := { table with source := source }.step event
    for text in Console.printed log turn do
      IO.println text
    serve log bot table

def run : IO UInt32 := do
  let environment ← readEnvironment
  let defaults ← readDefaults
  let settled := environment.withDefaults (Environment.ofText (defaults.getD ""))
  let slot ← readSlot ((Start.dataFolder settled).child Start.settingsFile)
  let start := Start.inEmptyFolder .common environment defaults "start" slot (← freshProvider)
  IO.eprint start.log.console
  match start.outcome with
  | .ok (_, bot) =>
    serve start.log bot bot.table
    return 0
  | .error .noToken =>
    IO.eprintln noTokenMessage
    return 1
  | .error (.noLevel e) =>
    IO.eprintln e.message
    return 1
  | .error (.noSource e) =>
    IO.eprintln e.message
    return 1
  | .error _ =>
    IO.eprintln "the settings cannot be opened"
    return 1

end Program
end Croupier

def main : IO UInt32 :=
  Croupier.Program.run
