import Croupier.Chat
import Croupier.Percentile.Grade
import Croupier.Settings.Store

/-!
# Croupier.Office

The back office, where the developers of the bot manage it. The owner of the application and the
developers on the list have the run of it. To close the bot takes a confirmation, which only the
developer who asked for it can settle. All questions that were put take clicks, the older ones like
the latest.
-/

namespace Croupier

open Settings

/-- Who calls, and how the name prints. -/
structure Caller where
  id : Int
  name : String
  deriving DecidableEq, Repr

/-- The question put to a developer before the bot is closed. -/
structure Confirmation where
  requester : Caller
  deriving DecidableEq, Repr

namespace Confirmation

inductive Choice where
  | confirm
  | cancel
  deriving DecidableEq, Repr

def choices : List Choice := [.confirm, .cancel]

def Choice.button : Choice → Chat.Button
  | .confirm => { label := "確認關閉", style := .danger }
  | .cancel => { label := "取消", style := .secondary }

/-- Seconds after which the buttons stop working. -/
def timeout : Nat := 30

end Confirmation

structure Office where
  owner : Option Int
  store : Store
  /-- The confirmations that were asked for, the first one first. -/
  questions : List Confirmation := []
  /-- How often the bot was closed. -/
  closed : Nat := 0

namespace Office

/-- A command line that the chat could not take apart. -/
inductive Misuse where
  | missingArgument
  | badArgument
  | userNotFound
  | other (message : String)
  deriving DecidableEq, Repr

inductive Command where
  | overview
  | shutdown
  | gradeSamples
  | developerOverview
  | addDeveloper (user : Int)
  | removeDeveloper (user : Int)
  | listDevelopers
  | diceOverview
  | showDice
  | setMaxDice (n : Int)
  | misusedMaxDice (misuse : Misuse)
  deriving DecidableEq, Repr

/-- A click is made on one of the questions, given by its number. -/
inductive Event where
  | command (caller : Caller) (c : Command)
  | click (number : Nat) (user : Int) (choice : Confirmation.Choice)
  | ready
  deriving DecidableEq, Repr

/-- A refusal is shown to the clicking user alone; settling replaces the question by a text
without buttons. -/
inductive Post where
  | reply (text : String)
  | send (text : String)
  | refuse (text : String)
  | settle (text : String)
  deriving DecidableEq, Repr

structure Turn where
  posts : List Post := []
  records : List Record := []
  /-- A confirmation that goes out with the reply. -/
  asked : Option Confirmation := none
  fault : Option Settings.Fault := none
  deriving DecidableEq, Repr

def isAuthorised (o : Office) (id : Int) : Bool :=
  o.owner = some id || o.store.isDeveloper id

def mention (id : Int) : String :=
  "<@" ++ Numeral.ofInt id ++ ">"

def maxDiceUsage : String :=
  "用法：`!admin dice maxdice <顆數>`"

/-- What is said of a cap that was set. -/
def capText (n : Int) : String :=
  "單一骰式顆數上限已設為 **" ++ Numeral.ofInt n ++ "**"

def say (text : String) : Turn :=
  { posts := [.reply text] }

/-- A reply with these numbers in it; there is none if one of them is too long to be written. -/
def sayOf (numbers : List Int) (text : String) : Turn :=
  match Numeral.writing? numbers text with
  | none => { fault := some .unwritable }
  | some text => say text

/-- A change of the settings, and the reply if it went through. -/
def change (o : Office) (turn : Settings.Turn) (number : Int) (text : String) : Turn × Office :=
  let answer := match turn.fault with
    | none => sayOf [number] text
    | some fault => { fault := some fault }
  ({ answer with records := turn.records }, { o with store := turn.store })

/-- What a developer's command does. A number that cannot be the cap is answered, not raised. -/
def perform (o : Office) (caller : Caller) : Command → Turn × Office
  | .shutdown =>
    let question : Confirmation := ⟨caller⟩
    ({ posts := [.reply "⚠️ 確認要關閉 Bot？（30 秒內）"], asked := some question },
      { o with questions := o.questions ++ [question] })
  | .gradeSamples =>
    match Grade.sampleLines? 50 with
    | none => ({ fault := some .unwritable }, o)
    | some lines => ({ posts := [.send ("```\n" ++ "\n".intercalate lines ++ "\n```")] }, o)
  | .addDeveloper user =>
    o.change (o.store.addDeveloper user) user ("已加入開發者：" ++ mention user)
  | .removeDeveloper user =>
    o.change (o.store.removeDeveloper user) user ("已移除開發者：" ++ mention user)
  | .showDice =>
    let settings := o.store.settings
    (sayOf [settings.maxDice, settings.blockSize]
      ("擲骰設定：max_dice=`" ++ Numeral.ofInt settings.maxDice ++
        "`，entropy_block_size=`" ++ Numeral.ofInt settings.blockSize ++ "`"), o)
  | .setMaxDice n =>
    let turn := o.store.setMaxDice n
    match turn.fault with
    | some (.belowOne q) => (say q.belowOne, o)
    | some .unwritable => (say Numeral.unwritable, { o with store := turn.store })
    | _ => o.change turn n (capText n)
  | .overview =>
    (say ("管理指令：`!admin shutdown`｜`!admin eptest`｜" ++
      "`!admin dev add/remove/list`｜`!admin dice show/maxdice`"), o)
  | .developerOverview =>
    (say "用法：`!admin dev add @user`｜`!admin dev remove @user`｜`!admin dev list`", o)
  | .diceOverview => (say "用法：`!admin dice show`｜`!admin dice maxdice <顆數>`", o)
  | .listDevelopers =>
    let ids := o.store.settings.developers
    if ids.isEmpty then (say "目前沒有開發者。", o)
    else (sayOf ids ("開發者名單：\n" ++ "\n".intercalate (ids.map mention)), o)
  | .misusedMaxDice (.other message) =>
    ({ posts := [.reply ("設定失敗：" ++ message)]
       records := [.error ("admin dice maxdice error: " ++ message)] }, o)
  | .misusedMaxDice _ => (say maxDiceUsage, o)

/-- The answer to those who may not give a command; overviews, the list of developers and words
on misuse are for everyone. -/
def Command.denial? : Command → Option String
  | .shutdown | .gradeSamples => some "你不是開發者，不能使用此指令。"
  | .addDeveloper _ | .removeDeveloper _ => some "你不是開發者，不能修改開發者名單。"
  | .showDice | .setMaxDice _ => some "你不是開發者。"
  | .overview | .developerOverview | .diceOverview | .listDevelopers | .misusedMaxDice _ => none

def execute (o : Office) (caller : Caller) (c : Command) : Turn × Office :=
  match c.denial? with
  | none => o.perform caller c
  | some denial => if o.isAuthorised caller.id then o.perform caller c else (say denial, o)

/-- The buttons keep working after they were used; the chat only takes them off the message. -/
def settle (o : Office) (question : Confirmation) (user : Int) (choice : Confirmation.Choice) :
    Turn × Office :=
  if user ≠ question.requester.id then
    ({ posts := [.refuse "只有發起者可以操作這個確認。"] }, o)
  else
    match choice with
    | .confirm =>
      ({ posts := [.settle "Leaving."]
         records := [.info ("Shutdown requested by " ++ question.requester.name)] },
        { o with closed := o.closed + 1 })
    | .cancel => ({ posts := [.settle "已取消關閉。"] }, o)

/-- A click goes to the question it is made on; where there is none, there is nothing to click. -/
def step (o : Office) : Event → Turn × Office
  | .command caller c => o.execute caller c
  | .click number user choice =>
    match o.questions[number]? with
    | none => ({}, o)
    | some question => o.settle question user choice
  | .ready => ({ records := [.info "AdminCog ready."] }, o)

/-- The events in order. -/
def run (o : Office) : List Event → List Turn × Office
  | [] => ([], o)
  | event :: events =>
    let (turn, o) := o.step event
    let (turns, o) := run o events
    (turn :: turns, o)

def commands : List Chat.CommandEntry := [
  { name := "admin" },
  { name := "admin shutdown", help := some "離開並關閉 Bot（開發者限定，需二次確認）" },
  { name := "admin eptest", help := some "列出 target=50 時各種 EP 判定結果（開發者限定）" },
  { name := "admin dev" },
  { name := "admin dev add" },
  { name := "admin dev remove" },
  { name := "admin dev list" },
  { name := "admin dice" },
  { name := "admin dice show" },
  { name := "admin dice maxdice" }]

end Office
end Croupier
