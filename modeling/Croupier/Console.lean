import Croupier.Startup

/-!
# Croupier.Console

The table at a console: a line is a command if it begins with the lead and one of the words of
the table's commands.
-/

namespace Croupier

namespace Console

/-- The name of the place in records. -/
def channel : String := "console"

/-- The rest of a line after the lead and the name or an alias of a command. -/
def argsAfter? (lead : String) (line : String) (command : Chat.CommandEntry) : Option String :=
  (command.name :: command.aliases).findSome? fun word =>
    let opening := (lead ++ word).toList
    let rest := line.toList.drop opening.length
    if opening.isPrefixOf line.toList && (rest.head?.map Text.isBlank).getD true then
      some (Text.trim (String.ofList rest))
    else
      none

/-- What a line asks of the table. -/
def event? (lead who line : String) : Option Table.Event :=
  (Table.commands.findSome? fun command =>
    (argsAfter? lead line command).map fun args => (command.name, args)).bind fun
  | ("roll", args) => some (.roll who channel args none)
  | ("ep", args) => some (.check who channel args none)
  | _ => none

/-- The texts to print for a turn, the records that the log admits first. -/
def printed (log : Archive.Log) (turn : Table.Turn) : List String :=
  (turn.records.filter fun r => log.admits r.level).map
    (fun r => r.level.name ++ " | " ++ r.text) ++ turn.posts

end Console
end Croupier
