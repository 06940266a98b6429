import Croupier.Journal
import Croupier.Range
import Croupier.Settings.Reader

/-!
# Croupier.Settings.Store

The settings in memory and the file they are kept in. Every change that changes something is
saved at once, memory first.
-/

namespace Croupier
namespace Settings

/-- What is found where the file should be. -/
inductive Slot where
  | absent
  | file (content : ByteArray)
  | folder

structure Store where
  settings : Settings
  slot : Slot

/-- Where the folder of the file should be. -/
inductive Site where
  | obstructed
  | folder (slot : Slot)

/-- Why a store cannot be opened: something else stands in the place of its folder, or its file
holds an infinite number or nests too deeply. -/
inductive Unopenable where
  | obstructed
  | notInteger (e : Json.NotInteger)
  | tooDeep (c : Json.Container)
  deriving DecidableEq, Repr

/-- Why an operation comes to nothing, or at least not into the file. -/
inductive Fault where
  | notInteger (e : Json.NotInteger)
  | belowOne (q : Quantity)
  | unwritable
  | slotIsFolder
  | slotIsAbsent
  | unopenable (e : Unopenable)
  deriving DecidableEq, Repr

/-- The store after an operation, what was put on record, and why it broke off, if it did. -/
structure Turn where
  store : Store
  records : List Record := []
  fault : Option Fault := none

namespace Store

/-- What is put on record when the settings are passed over. -/
def unreadable (reason : String) : Record :=
  .error ("讀取全域設定失敗：" ++ reason ++ "，使用預設值")

/-- The settings that a slot holds. What cannot be read is put on record and replaced by the
defaults. -/
def load (host : Host) (slot : Slot) : Except Unopenable (Store × List Record) :=
  match slot with
  | .absent => .ok (⟨{}, slot⟩, [])
  | .folder => .ok (⟨{}, slot⟩, [unreadable host.folderInPlace])
  | .file content =>
    match ofBytes host.nesting content with
    | .ok settings => .ok (⟨settings, slot⟩, [])
    | .error (.notInteger .infinite) => .error (.notInteger .infinite)
    | .error (.notJson (.tooDeep c)) => .error (.tooDeep c)
    | .error e => .ok (⟨{}, slot⟩, [unreadable (e.message host content)])

/-- A new folder is made where there is none, so only an obstruction is in the way. -/
def openAt (host : Host) : Site → Except Unopenable (Store × List Record)
  | .obstructed => .error .obstructed
  | .folder slot => load host slot

/-- Writes the settings down. Their text is made before the file is touched. -/
def save (s : Store) : Turn :=
  if s.settings.IsWritable then
    match s.slot with
    | .folder => { store := s, fault := some .slotIsFolder }
    | _ => {
        store := { s with slot := .file s.settings.render.toUTF8 }
        records := [.info "全域設定已儲存"] }
  else
    { store := s, fault := some .unwritable }

def isDeveloper (s : Store) (id : Int) : Bool :=
  s.settings.developers.contains id

def addDeveloper (s : Store) (id : Int) : Turn :=
  if s.isDeveloper id then { store := s }
  else
    save { s with settings := { s.settings with developers := s.settings.developers ++ [id] } }

/-- Takes out the first mention of a developer. -/
def removeDeveloper (s : Store) (id : Int) : Turn :=
  if s.isDeveloper id then
    save { s with settings := { s.settings with developers := s.settings.developers.erase id } }
  else { store := s }

def setMaxDice (s : Store) (n : Int) : Turn :=
  if n < 1 then { store := s, fault := some (.belowOne .diceCap) }
  else save { s with settings := { s.settings with maxDice := n } }

/-- Takes whatever stands for a whole number. -/
def setMaxDiceTo (s : Store) (v : Json) : Turn :=
  match v.toInt with
  | .error e => { store := s, fault := some (.notInteger e) }
  | .ok n => s.setMaxDice n

/-- What may happen to a store: operations of the bot, and changes of the file from outside. -/
inductive Event where
  | addDeveloper (id : Int)
  | removeDeveloper (id : Int)
  | setMaxDice (v : Json)
  | overwrite (content : ByteArray)
  | delete
  | reload

/-- A store that cannot be opened again stays as it is. -/
def step (host : Host) (s : Store) : Event → Turn
  | .addDeveloper id => s.addDeveloper id
  | .removeDeveloper id => s.removeDeveloper id
  | .setMaxDice v => s.setMaxDiceTo v
  | .overwrite content =>
    match s.slot with
    | .folder => { store := s, fault := some .slotIsFolder }
    | _ => { store := { s with slot := .file content } }
  | .delete =>
    match s.slot with
    | .absent => { store := s, fault := some .slotIsAbsent }
    | .folder => { store := s, fault := some .slotIsFolder }
    | .file _ => { store := { s with slot := .absent } }
  | .reload =>
    match load host s.slot with
    | .ok (s, records) => { store := s, records := records }
    | .error e => { store := s, fault := some (.unopenable e) }

end Store
end Settings
end Croupier
