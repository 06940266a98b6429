/-!
# Croupier.Chat

What a chat shows besides plain text: buttons, cards, and the list of commands.
-/

namespace Croupier
namespace Chat

inductive ButtonStyle where
  | primary
  | secondary
  | danger
  deriving DecidableEq, Repr

def ButtonStyle.name : ButtonStyle → String
  | .primary => "primary"
  | .secondary => "secondary"
  | .danger => "danger"

structure Button where
  label : String
  style : ButtonStyle
  disabled : Bool := false
  deriving DecidableEq, Repr

/-- A captioned paragraph of a card. -/
structure Field where
  name : String
  value : String
  isInline : Bool := false
  deriving DecidableEq, Repr

structure Card where
  title : String
  description : Option String := none
  color : Nat
  fields : List Field
  footer : Option String := none
  deriving DecidableEq, Repr

/-- A command as it appears in the list of commands, named with its groups in front. -/
structure CommandEntry where
  name : String
  aliases : List String := []
  help : Option String := none
  deriving DecidableEq, Repr

end Chat
end Croupier
