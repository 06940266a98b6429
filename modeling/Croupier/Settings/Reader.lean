import Croupier.Host
import Croupier.Json.Integer
import Croupier.Json.Reader
import Croupier.Settings.Basic

/-!
# Croupier.Settings.Reader

Reading the settings from the bytes of a file. Missing fields keep their defaults. A list of
developers may also be a string (its characters) or an object (its keys).
-/

namespace Croupier
namespace Settings

/-- Why no settings can be read. -/
inductive Unreadable where
  | notText
  | notJson (e : Json.Unread)
  | notAnObject (kind : String)
  | notAList (kind : String)
  | notInteger (e : Json.NotInteger)
  deriving DecidableEq, Repr

def Unreadable.message (host : Host) (content : ByteArray) : Unreadable → String
  | .notText | .notJson _ => host.notJson content
  | .notAnObject kind => "'" ++ kind ++ "' object has no attribute 'get'"
  | .notAList kind => "'" ++ kind ++ "' object is not iterable"
  | .notInteger e => e.message

def integer (v : Json) : Except Unreadable Int :=
  match v.toInt with
  | .ok n => .ok n
  | .error e => .error (.notInteger e)

def fields : Json → Except Unreadable (List (String × Json))
  | .object fields => .ok fields
  | v => .error (.notAnObject v.kind)

/-- What there is to go through in a value. -/
def elements : Json → Except Unreadable (List Json)
  | .array items => .ok items
  | .string s => .ok (s.toList.map fun c => .string (String.singleton c))
  | .object fields => .ok ((Json.keys fields).map .string)
  | v => .error (.notAList v.kind)

/-- All values as whole numbers, or the first that is none. -/
def integers : List Json → Except Unreadable (List Int)
  | [] => .ok []
  | v :: vs =>
    match integer v with
    | .error e => .error e
    | .ok n =>
      match integers vs with
      | .error e => .error e
      | .ok ns => .ok (n :: ns)

/-- The value under a key, or what stands for it when there is none. -/
def valueOr (default : Json) (key : String) (fields : List (String × Json)) : Json :=
  (Json.get? key fields).getD default

/-- The developers are read first, then the cap, then the block size. -/
def ofJson (v : Json) : Except Unreadable Settings := do
  let top ← fields v
  let developers ← elements (valueOr (.array []) "dev_user_ids" top)
  let developers ← integers developers
  let dice ← fields (valueOr (.object []) "dice" top)
  let maxDice ← integer (valueOr (.int 100) "max_dice" dice)
  let blockSize ← integer (valueOr (.int 128) "entropy_block_size" dice)
  return { developers := developers, maxDice := maxDice, blockSize := blockSize }

def ofBytes (nesting : Nat) (content : ByteArray) : Except Unreadable Settings :=
  match String.fromUTF8? content with
  | none => .error .notText
  | some text =>
    match Json.ofString nesting text with
    | .error e => .error (.notJson e)
    | .ok v => ofJson v

end Settings
end Croupier
