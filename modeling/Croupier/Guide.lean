import Croupier.Chat
import Croupier.Journal
import Croupier.Text.Blank

/-!
# Croupier.Guide

The guide, a card of help with buttons that turn its pages. Only the one who asked for it may
turn them; after a while the buttons are disabled.
-/

namespace Croupier

namespace Guide

open Chat

inductive Page where
  | home
  | dice
  | admin
  deriving DecidableEq, Repr

/-- The page of that name, or the first one. -/
def Page.ofName : String → Page
  | "dice" => .dice
  | "admin" => .admin
  | _ => .home

/-- The page for what somebody asks help with, in any case of letters and with blanks around it.
ASCII letters are enough to fold: no word here has a letter that another script folds to. -/
def Page.ofSection (section? : Option String) : Page :=
  match Text.trim (String.ofList ((section?.getD "").toList.map Char.toLower)) with
  | "dice" | "roll" | "ep" => .dice
  | "admin" => .admin
  | _ => .home

def homeCard (lead : String) : Card where
  title := "📖 指令總覽"
  description := some "按下方按鈕切換分類。"
  color := 0x5865F2
  fields := [
    { name := "🎲 擲骰"
      value := "`" ++ lead ++ "roll <骰式...> [說明]`（同 `" ++ lead ++ "dice`）｜`" ++ lead ++
        "ep <目標值> [說明]`" },
    { name := "🛠️ 管理（開發者）"
      value := "`" ++ lead ++ "admin shutdown`｜`" ++ lead ++ "admin eptest`｜`" ++ lead ++
        "admin dev ...`｜`" ++ lead ++ "admin dice ...`" }]
  footer := some ("提示：例如 `" ++ lead ++ "roll 2d6+1 d20 攻擊`、`" ++ lead ++ "ep 55 駭入`")

def diceCard (lead : String) : Card where
  title := "🎲 擲骰"
  color := 0x2ECC71
  fields := [
    { name := lead ++ "roll  /  " ++ lead ++ "dice"
      value := "**用法**：\n" ++
        "- 一般：`" ++ lead ++ "roll 2d6+1`、`" ++ lead ++ "roll d20`\n" ++
        "- 多個骰式：`" ++ lead ++ "roll 1d8+2 2d6 傷害`（第一個不是骰式的字之後都是說明）\n" ++
        "**骰式**：`[顆數]d<骰面>[+/-加值]`，骰面 2~255。" },
    { name := lead ++ "ep（Eclipse Phase）"
      value := "**用法**：`" ++ lead ++ "ep 55`、`" ++ lead ++ "ep 40 閃避`\n" ++
        "**判定**：擲 00~99，小於等於目標值為成功；" ++
        "00/99 為極致成敗，11 的倍數為大成敗，差距 30 以上為優秀成功／嚴重失敗。" }]

def adminCard (lead : String) : Card where
  title := "🛠️ 管理（開發者限定）"
  color := 0xE74C3C
  fields := [
    { name := lead ++ "admin shutdown", value := "二次確認後離開並關閉 Bot。" },
    { name := lead ++ "admin eptest", value := "列出目標值 50 時各種 EP 判定的結果。" },
    { name := lead ++ "admin dev add/remove/list", value := "管理開發者名單。" },
    { name := lead ++ "admin dice show/maxdice"
      value := "查看擲骰設定、調整單一骰式的顆數上限。" }]

/-- The card of a page; `lead` is what commands begin with. -/
def Page.card (lead : String) : Page → Card
  | .home => homeCard lead
  | .dice => diceCard lead
  | .admin => adminCard lead

inductive Choice where
  | turn (page : Page)
  | close
  deriving DecidableEq, Repr

def choices : List Choice :=
  [.turn .home, .turn .dice, .turn .admin, .close]

def Choice.button (disabled : Bool) : Choice → Button
  | .turn .home => { label := "總覽", style := .secondary, disabled := disabled }
  | .turn .dice => { label := "擲骰", style := .primary, disabled := disabled }
  | .turn .admin => { label := "管理", style := .secondary, disabled := disabled }
  | .close => { label := "關閉", style := .danger, disabled := disabled }

/-- Seconds after which the buttons are disabled. -/
def timeout : Nat := 180

/-- The message a card went out with, and why it cannot be changed later, if it cannot. -/
structure Message where
  locked : Option String := none
  deriving DecidableEq, Repr

structure Panel where
  reader : Int
  lead : String
  message : Option Message
  disabled : Bool := false
  deriving DecidableEq, Repr

def Panel.buttons (p : Panel) : List Button :=
  choices.map (Choice.button p.disabled)

/-- Requests for help, clicks on the latest panel, turning it without a click, and its end. -/
inductive Event where
  | help (reader : Int) (lead : Option String) (section? : Option String)
      (message : Option Message)
  | click (user : Int) (choice : Choice)
  | show (page : Page)
  | timeout
  | ready
  deriving DecidableEq, Repr

inductive Post where
  | reply (card : Card)
  | refuse (text : String)
  | turn (card : Card) (buttons : List Button)
  | close (text : String)
  | refresh (buttons : List Button)
  deriving DecidableEq, Repr

structure Turn where
  posts : List Post := []
  records : List Record := []
  deriving DecidableEq, Repr

/-- Commands begin with an exclamation mark where nothing else is agreed. -/
def leadOf (lead : Option String) : String :=
  match lead with
  | none | some "" => "!"
  | some lead => lead

def Panel.turnTo (p : Panel) (page : Page) : Turn :=
  { posts := [.turn (page.card p.lead) p.buttons] }

def Panel.click (p : Panel) (user : Int) (choice : Choice) : Turn :=
  if user ≠ p.reader then { posts := [.refuse "只有發起者可以操作這個幫助面板。"] }
  else
    match choice with
    | .turn page => p.turnTo page
    | .close => { posts := [.close "（已關閉說明）"] }

/-- Disables the buttons, also on the message if it is there and can be changed. -/
def Panel.expire (p : Panel) : Turn × Panel :=
  let p := { p with disabled := true }
  match p.message with
  | none => ({}, p)
  | some ⟨none⟩ => ({ posts := [.refresh p.buttons] }, p)
  | some ⟨some reason⟩ => ({ records := [.debug ("help 面板逾時更新失敗：" ++ reason)] }, p)

end Guide

/-- The latest panel, if there was one. -/
structure Guide where
  panel : Option Guide.Panel := none
  deriving DecidableEq, Repr

namespace Guide

/-- Without a panel there is nothing to click, to turn or to end. -/
def step (g : Guide) : Event → Turn × Guide
  | .help reader lead section? message =>
    let lead := leadOf lead
    ({ posts := [.reply ((Page.ofSection section?).card lead)] },
      ⟨some { reader := reader, lead := lead, message := message }⟩)
  | .click user choice =>
    match g.panel with
    | none => ({}, g)
    | some p => (p.click user choice, g)
  | .show page =>
    match g.panel with
    | none => ({}, g)
    | some p => (p.turnTo page, g)
  | .timeout =>
    match g.panel with
    | none => ({}, g)
    | some p =>
      let (turn, p) := p.expire
      (turn, ⟨some p⟩)
  | .ready => ({ records := [.info "HelpCog ready."] }, g)

/-- The events in order. -/
def run (g : Guide) : List Event → List Turn × Guide
  | [] => ([], g)
  | event :: events =>
    let (turn, g) := g.step event
    let (turns, g) := run g events
    (turn :: turns, g)

def commands : List Chat.CommandEntry := [
  { name := "help", aliases := ["h"], help := some "顯示互動式說明" }]

end Guide
end Croupier
