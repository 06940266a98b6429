import Croupier.Numeral

/-!
# Croupier.Settings.Basic

The settings of the bot, and `render`, the text they are kept in, for settings that `IsWritable`.
-/

namespace Croupier

structure Settings where
  /-- Who may use the back office, in the order of joining. -/
  developers : List Int := []
  /-- The most dice that one expression may ask for. -/
  maxDice : Int := 100
  /-- The bytes of entropy fetched at a time. -/
  blockSize : Int := 128
  deriving DecidableEq, Repr

namespace Settings

/-- All numbers are short enough to be written. -/
structure IsWritable (s : Settings) : Prop where
  developers : ∀ id ∈ s.developers, Numeral.isWritable id = true
  maxDice : Numeral.isWritable s.maxDice = true
  blockSize : Numeral.isWritable s.blockSize = true

instance (s : Settings) : Decidable s.IsWritable :=
  decidable_of_iff
    ((∀ id ∈ s.developers, Numeral.isWritable id = true) ∧
      Numeral.isWritable s.maxDice = true ∧ Numeral.isWritable s.blockSize = true)
    ⟨fun ⟨developers, maxDice, blockSize⟩ => ⟨developers, maxDice, blockSize⟩,
      fun h => ⟨h.developers, h.maxDice, h.blockSize⟩⟩

/-- One developer a line; a bare pair of brackets when there is none. -/
def renderDevelopers (ids : List Int) : String :=
  if ids.isEmpty then "[]"
  else "[\n" ++ ",\n".intercalate (ids.map fun id => "    " ++ Numeral.ofInt id) ++ "\n  ]"

/-- A JSON object, indented by two. -/
def render (s : Settings) : String :=
  "\x7b\n" ++
    "  \"dev_user_ids\": " ++ renderDevelopers s.developers ++ ",\n" ++
    "  \"dice\": \x7b\n" ++
    "    \"max_dice\": " ++ Numeral.ofInt s.maxDice ++ ",\n" ++
    "    \"entropy_block_size\": " ++ Numeral.ofInt s.blockSize ++ "\n" ++
    "  \x7d\n" ++
    "\x7d"

end Settings
end Croupier
