import Croupier.Chat
import Croupier.Message.Chunks
import Croupier.Reply
import Croupier.Settings.Store

/-!
# Croupier.Table

The table, where players roll. It owns the source of entropy and looks up the cap on dice in the
settings. A roll is settled before its first message goes out, so a chat that refuses a message
costs nothing but messages.
-/

namespace Croupier

open Entropy Settings

structure Table where
  source : Source
  store : Store

namespace Table

/-- A chat that takes `taken` messages of a command and then refuses. -/
structure Refusal where
  taken : Nat
  reason : String
  deriving DecidableEq, Repr

inductive Event where
  | roll (who channel args : String) (refusal : Option Refusal)
  | check (who channel args : String) (refusal : Option Refusal)
  | setMaxDice (v : Json)
  | ready

/-- What leaves a command unhandled. -/
inductive Fault where
  | draw (e : Failure)
  | settings (e : Settings.Fault)
  deriving DecidableEq, Repr

structure Turn where
  posts : List String := []
  records : List Record := []
  fault : Option Fault := none
  deriving DecidableEq, Repr

/-- The words for a command in records. -/
structure Wording where
  tag : String
  aborted : String
  undelivered : String

def diceWording : Wording := ⟨"DICE", "擲骰中止", "擲骰結果送出失敗"⟩

def checkWording : Wording := ⟨"EPD", "EP 判定中止", "EP 結果送出失敗"⟩

def fenceOpening : String := "```\n"

def fenceClosing : String := "\n```"

def fenced (text : String) : String :=
  fenceOpening ++ text ++ fenceClosing

/-- One short line goes out as it is; everything else in fenced blocks, whose fences count. -/
def diceMessages (reply : String) : List String :=
  if !reply.toList.contains '\n' && reply.length ≤ Message.limit then [reply]
  else
    (Message.split (Message.limit - (fenceOpening.length + fenceClosing.length)) reply).map fenced

def checkMessages (reply : String) : List String :=
  Message.split Message.limit reply

/-- The messages that get through, and the reason for which the next one does not. -/
def deliver (refusal : Option Refusal) (messages : List String) : List String × Option String :=
  match refusal with
  | none => (messages, none)
  | some r =>
    (messages.take r.taken, if r.taken < messages.length then some r.reason else none)

/-- `WORDS（WHO: ARGS）：REASON` -/
def trouble (words who args reason : String) : Record :=
  .error (words ++ "（" ++ who ++ ": " ++ Text.quoted args ++ "）：" ++ reason)

/-- The turn that a drawn reply makes. `passed` are the records of a line that was no order. -/
def conclude (w : Wording) (who channel args : String) (refusal : Option Refusal)
    (passed : List Record) (messages : String → List String) :
    Except Failure (Option String) → Turn
  | .error (.unavailable e) => { records := [trouble w.aborted who args e.message] }
  | .error e => { fault := some (.draw e) }
  | .ok none => { records := passed }
  | .ok (some reply) =>
    let (posts, reason) := deliver refusal (messages reply)
    { posts := posts
      records :=
        .info (w.tag ++ " by " ++ who ++ " in #" ++ channel ++ ": " ++ args) ::
          (reason.map (trouble w.undelivered who args)).toList }

def step (t : Table) : Event → Turn × Table
  | .roll who channel args refusal =>
    let cap := some t.store.settings.maxDice
    let (reply, source) := diceReply who (some args) cap t.source
    (conclude diceWording who channel args refusal (DiceOrder.ofArgs cap (some args)).records
      diceMessages reply, { t with source := source })
  | .check who channel args refusal =>
    let (reply, source) := checkReply who (some args) t.source
    (conclude checkWording who channel args refusal (CheckOrder.ofArgs (some args)).records
      checkMessages reply, { t with source := source })
  | .setMaxDice v =>
    let turn := t.store.setMaxDiceTo v
    ({ records := turn.records, fault := turn.fault.map .settings }, { t with store := turn.store })
  | .ready => ({ records := [.info "DiceCog ready."] }, t)

/-- The events in order. -/
def run (t : Table) : List Event → List Turn × Table
  | [] => ([], t)
  | event :: events =>
    let (turn, t) := t.step event
    let (turns, t) := run t events
    (turn :: turns, t)

def commands : List Chat.CommandEntry := [
  { name := "roll", aliases := ["dice"], help := some "擲骰：!roll 2d6+1 d20 攻擊哥布林" },
  { name := "ep", help := some "Eclipse Phase 百分骰判定：!ep <目標值> [說明]" }]

end Table
end Croupier
