import Croupier.Numeral

/-!
# Croupier.Journal

What is put on record: a level and a text.
-/

namespace Croupier

/-- Levels are ranked; the higher, the more urgent. -/
structure Level where
  rank : Int
  deriving DecidableEq, Repr

namespace Level

def all : Level := ⟨0⟩

def debug : Level := ⟨10⟩

def info : Level := ⟨20⟩

def warning : Level := ⟨30⟩

def error : Level := ⟨40⟩

def critical : Level := ⟨50⟩

/-- The word for a level; a rank without one is given as a number. -/
def name (l : Level) : String :=
  if l = all then "NOTSET"
  else if l = debug then "DEBUG"
  else if l = info then "INFO"
  else if l = warning then "WARNING"
  else if l = error then "ERROR"
  else if l = critical then "CRITICAL"
  else "Level " ++ Numeral.ofInt l.rank

/-- Capitals of a letter, as far as they can be part of a word with a meaning here: beyond ASCII,
these are the dotless `ı`, the long `ſ` and the two ligatures of `st`. -/
def capitals (c : Char) : List Char :=
  if c = 'ı' then ['I']
  else if c = 'ſ' then ['S']
  else if c = 'ﬅ' ∨ c = 'ﬆ' then ['S', 'T']
  else [c.toUpper]

/-- Two words do mean something for a log, but no level: the layout of a line, and the table of
the styles of layouts. -/
inductive Misnomer where
  | layout
  | styles
  deriving DecidableEq, Repr

def Misnomer.message : Misnomer → String
  | .layout => "Unknown level: '%(levelname)s:%(name)s:%(message)s'"
  | .styles => "Level not an integer or a valid string: " ++
      "\x7b'%': (<class 'logging.PercentStyle'>, '%(levelname)s:%(name)s:%(message)s'), " ++
      "'\x7b': (<class 'logging.StrFormatStyle'>, " ++
      "'\x7blevelname\x7d:\x7bname\x7d:\x7bmessage\x7d'), " ++
      "'$': (<class 'logging.StringTemplateStyle'>, " ++
      "'$\x7blevelname\x7d:$\x7bname\x7d:$\x7bmessage\x7d')\x7d"

/-- The level that a word asks for in any mixture of cases. Some levels have two words; no word,
or one without a meaning, asks for `info`. -/
def ofWord (word : Option String) : Except Misnomer Level :=
  match String.ofList ((word.getD "").toList.flatMap capitals) with
  | "NOTSET" => .ok all
  | "DEBUG" => .ok debug
  | "INFO" => .ok info
  | "WARN" | "WARNING" => .ok warning
  | "ERROR" => .ok error
  | "FATAL" | "CRITICAL" => .ok critical
  | "BASIC_FORMAT" => .error .layout
  | "_STYLES" => .error .styles
  | _ => .ok info

end Level

structure Record where
  level : Level
  text : String
  deriving DecidableEq, Repr

namespace Record

def debug (text : String) : Record := ⟨.debug, text⟩

def info (text : String) : Record := ⟨.info, text⟩

def warning (text : String) : Record := ⟨.warning, text⟩

def error (text : String) : Record := ⟨.error, text⟩

end Record
end Croupier
