import Croupier.Archive.Log
import Croupier.Bot
import Croupier.Files.Workspace

/-!
# Croupier.Startup

From the environment to a running bot. The log is opened first, so that what goes wrong later
finds it open; then the token is looked for, and last the settings are opened.
-/

namespace Croupier

open Entropy Files Settings

/-- Named values. A name that occurs twice has its last value. -/
structure Environment where
  bindings : List (String × String)
  deriving DecidableEq, Repr

namespace Environment

def get? (env : Environment) (name : String) : Option String :=
  (env.bindings.reverse.find? fun v => v.1 == name).map (·.2)

/-- A `NAME=VALUE` line; blanks around either part do not count. -/
def ofLine? (line : List Char) : Option (String × String) :=
  match line.dropWhile (· ≠ '=') with
  | [] => none
  | _ :: value =>
    let name := Text.trim (String.ofList (line.takeWhile (· ≠ '=')))
    if name = "" ∨ name.toList.head? = some '#' then none
    else some (name, Text.trim (String.ofList value))

/-- The lines of a text. A byte order mark in front of them does not count. -/
def ofText (text : String) : Environment :=
  let cs := match text.toList with
    | '\ufeff' :: cs => cs
    | cs => cs
  ⟨(cs.splitOnP fun c => c = '\n' || c = '\r').filterMap ofLine?⟩

/-- Adds what is not set yet, be it to nothing. -/
def withDefaults (env defaults : Environment) : Environment :=
  ⟨(defaults.bindings.filter fun v => (env.get? v.1).isNone) ++ env.bindings⟩

def hasNull (s : String) : Bool :=
  s.toList.contains (Char.ofNat 0)

/-- Whether all names and their values can be passed on, which a null byte would cut short. A value
that is not the last one of its name does not matter. -/
def isPassable (env : Environment) : Bool :=
  env.bindings.all fun (name, value) =>
    !hasNull name && (!hasNull value || env.get? name ≠ some value)

end Environment

/-- Why the file of settings cannot be looked into: a folder stands in its place, or its path is
too long. -/
inductive OutOfReach where
  | folder
  | tooLong
  deriving DecidableEq, Repr

/-- What is said of the settings at a path. -/
def OutOfReach.message (path : Path) : OutOfReach → String
  | .folder => "[Errno 21] Is a directory: " ++ Text.quoted path.text
  | .tooLong => "[Errno 36] File name too long: " ++ Text.quoted path.text

/-- Why the bot does not start. -/
inductive StartFault where
  | nullByte
  | noLevel (e : Level.Misnomer)
  | noToken
  | noFolder (e : Obstruction)
  | unopenable (e : Unopenable)
  | noSource (e : NoSource)
  deriving DecidableEq, Repr

/-- What is said without a token. -/
def noTokenMessage : String :=
  "請在 .env 設定 DISCORD_TOKEN"

/-- What a start comes to, and what it leaves behind either way. -/
structure Start where
  log : Archive.Log
  workspace : Workspace
  outcome : Except StartFault (String × Bot)

namespace Start

/-- The file that may hold defaults for the environment. -/
def defaultsFile : String := ".env"

def logFolder : String := "logs"

def settingsFile : String := "config.global.json"

def dataFolder (env : Environment) : Path :=
  .ofString ((env.get? "DICEBOT_DATA_DIR").getD "data")

/-- What commands begin with. -/
def lead (env : Environment) : String :=
  (env.get? "COMMAND_PREFIX").getD "!"

def settingsPath (env : Environment) : Path :=
  (dataFolder env).child settingsFile

/-- What keeps the file of settings out of reach. -/
def outOfReach? (path : Path) (workspace : Workspace) : Option OutOfReach :=
  match path.resolve workspace.kindAt with
  | .error .tooLong => some .tooLong
  | .error _ => none
  | .ok place => if workspace.kindAt place = some .folder then some .folder else none

/-- The settings in a slot, unless they are out of reach; then the defaults stand in for them. -/
def settingsAt (host : Host) (path : Path) (slot : Slot) :
    Option OutOfReach → Except Unopenable (Store × List Record)
  | none => Store.load host slot
  | some e => .ok (⟨{}, .folder⟩, [Store.unreadable (e.message path)])

/-- The bot made from the settings. -/
def open? (host : Host) (env : Environment) (slot : Slot) (provider : Provider)
    (workspace : Workspace) : Except StartFault (Bot × List Record) :=
  let path := settingsPath env
  match settingsAt host path slot (outOfReach? path workspace) with
  | .error e => .error (.unopenable e)
  | .ok (store, records) =>
    match Bot.assemble host (lead env) store provider with
    | .error e => .error (.noSource e)
    | .ok bot => .ok (bot, records)

/-- The rest of a start, once the log is open. An empty token is none. In the folder of the
settings there is nothing but what the slot says, unless that folder was made on the way. -/
def afterLog (host : Host) (env : Environment) (time : String) (slot : Slot) (provider : Provider)
    (log : Archive.Log) (workspace : Workspace) : Start :=
  match env.get? "DISCORD_TOKEN" with
  | none | some "" => ⟨log, workspace, .error .noToken⟩
  | some token =>
    match workspace.makeFolders host.missing (dataFolder env) with
    | (some e, workspace) => ⟨log, workspace, .error (.noFolder e)⟩
    | (none, workspace) =>
      match open? host env slot provider workspace with
      | .error e => ⟨log, workspace, .error e⟩
      | .ok (bot, records) =>
        let log := records.foldl (fun log r => log.write ⟨time, "dicebot", r.level, r.text⟩) log
        ⟨log, workspace, .ok (token, bot)⟩

/-- A start in a working directory that is empty but for the file of defaults, if there is one. -/
def inEmptyFolder (host : Host) (env : Environment) (defaults : Option String) (time : String)
    (slot : Slot) (provider : Provider) : Start :=
  let workspace := Workspace.empty
  let workspace := if defaults.isSome then workspace.add ⟨.here, #[defaultsFile]⟩ .file else workspace
  let env := env.withDefaults (Environment.ofText (defaults.getD ""))
  if !env.isPassable then ⟨.unopened, workspace, .error .nullByte⟩
  else
    let workspace := workspace.add ⟨.here, #[logFolder]⟩ .folder
    match Level.ofWord (env.get? "LOG_LEVEL") with
    | .error e => ⟨.unopened, workspace, .error (.noLevel e)⟩
    | .ok level =>
      afterLog host env time slot provider (Archive.Log.start level time)
        (workspace.add ⟨.here, #[logFolder, Archive.latest]⟩ .file)

end Start
end Croupier
