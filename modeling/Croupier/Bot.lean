import Croupier.Guide
import Croupier.Office
import Croupier.Table

/-!
# Croupier.Bot

The bot as a whole: its sections, one store of settings and one source of entropy shared by them,
and how the owner of the application becomes the first developer.
-/

namespace Croupier

open Entropy Settings

inductive Section where
  | table
  | office
  | guide
  deriving DecidableEq, Repr

namespace Section

def name : Section → String
  | .table => "Dice"
  | .office => "Admin"
  | .guide => "Help"

def commands : Section → List Chat.CommandEntry
  | .table => Table.commands
  | .office => Office.commands
  | .guide => Guide.commands

/-- The order of loading. -/
def all : List Section := [.table, .office, .guide]

end Section

structure Bot where
  /-- What commands begin with. -/
  lead : String
  source : Source
  store : Store
  owner : Option Int := none
  sections : List Section := []

namespace Bot

/-- Orders are plain text, so the bot has to be allowed to read messages. -/
def readsMessages : Bool := true

/-- The block size of the source is the one in the settings. -/
def assemble (host : Host) (lead : String) (store : Store) (provider : Provider) :
    Except NoSource Bot :=
  match Source.ofProvider host.memory store.settings.blockSize provider with
  | .error e => .error e
  | .ok source => .ok { lead := lead, source := source, store := store }

/-- What the chat says about the owner of the application. -/
inductive OwnerInfo where
  | owner (id : Int)
  | noOwner
  | nothing
  | refused (reason : String)
  deriving DecidableEq, Repr

structure Turn where
  records : List Record := []
  fault : Option Settings.Fault := none
  deriving DecidableEq, Repr

def load (b : Bot) (owner : Option Int) : Bot :=
  { b with owner := owner, sections := Section.all }

/-- Takes note of the owner, who joins the developers if there are none, and loads the
sections. -/
def setUp (b : Bot) : OwnerInfo → Turn × Bot
  | .owner id =>
    if b.store.settings.developers.isEmpty then
      let turn := b.store.addDeveloper id
      let b := { b with store := turn.store }
      match turn.fault with
      | some fault => ({ records := turn.records, fault := some fault }, b)
      | none =>
        ({ records := turn.records ++ [.info ("預設開發者加入：" ++ Numeral.ofInt id)] },
          b.load (some id))
    else
      ({}, b.load (some id))
  | .noOwner | .nothing => ({}, b.load none)
  | .refused reason =>
    ({ records := [.warning ("讀取 application owner 失敗：" ++ reason)] }, b.load none)

/-- The record of having joined the chat, if the number of the bot can be written. -/
def ready? (name : String) (id : Int) : Option Record :=
  (Numeral.writing? [id] ("Logged in as " ++ name ++ " (id=" ++ Numeral.ofInt id ++ ")")).map .info

/-- The commands of the loaded sections, by name. -/
def commands (b : Bot) : List Chat.CommandEntry :=
  (b.sections.flatMap Section.commands).mergeSort fun a b => decide (a.name ≤ b.name)

def table (b : Bot) : Table :=
  { source := b.source, store := b.store }

def office (b : Bot) : Office :=
  { owner := b.owner, store := b.store }

end Bot
end Croupier
