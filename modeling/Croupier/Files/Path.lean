import Croupier.Text.Quoted

/-!
# Croupier.Files.Path

Paths as they are written, and the places they lead to. A path is followed name by name, so of
several things in its way the first one counts.
-/

namespace Croupier
namespace Files

/-- The bytes that a name may have. -/
def maxNameSize : Nat := 255

/-- The bytes that a path may have. -/
def maxPathSize : Nat := 4095

/-- Names in order, after the slashes in front of them. Empty names and single dots lead nowhere
and are left out. -/
structure Path where
  root : String
  names : List String
  deriving DecidableEq, Repr

namespace Path

/-- The slashes in front are kept if they are exactly two; any more are as good as one. -/
def rootOf (cs : List Char) : String :=
  match (cs.takeWhile (· = '/')).length with
  | 0 => ""
  | 2 => "//"
  | _ => "/"

def ofString (s : String) : Path where
  root := rootOf s.toList
  names := ((s.toList.splitOn '/').map String.ofList).filter fun name => name ≠ "" && name ≠ "."

def isAbsolute (p : Path) : Bool :=
  p.root ≠ ""

/-- The last name; a path without names has the empty one. -/
def name (p : Path) : String :=
  p.names.getLastD ""

/-- The path of something next to what `p` leads to. Nothing is next to the root; what is next to
the folder in which all other paths start is in the one above. -/
def sibling? (p : Path) (name : String) : Option Path :=
  if p.names.isEmpty then
    if p.isAbsolute then none else some { p with names := ["..", name] }
  else
    some { p with names := p.names.dropLast ++ [name] }

def child (p : Path) (name : String) : Path :=
  { p with names := p.names ++ [name] }

/-- The path in writing. -/
def text (p : Path) : String :=
  p.root ++ "/".intercalate p.names

/-- What is said of a path that has nothing next to it. -/
def nameless (p : Path) : String :=
  "PosixPath(" ++ Text.quoted p.text ++ ") has an empty name"

end Path

/-- Where a path can start or end up without being told a name: the folder it is seen from, those
above it, and the root. -/
inductive Base where
  | here
  | above (levels : Nat)
  | root
  deriving DecidableEq, Repr

structure Place where
  base : Base
  names : Array String
  deriving DecidableEq, Repr

namespace Place

def here : Place := ⟨.here, #[]⟩

/-- The folder a place is in. The root is in itself. -/
def up (p : Place) : Place :=
  if p.names.isEmpty then
    match p.base with
    | .here => ⟨.above 0, #[]⟩
    | .above levels => ⟨.above (levels + 1), #[]⟩
    | .root => p
  else
    { p with names := p.names.pop }

def child (p : Place) (name : String) : Place :=
  { p with names := p.names.push name }

end Place

/-- What stands at a place. -/
inductive Kind where
  | file
  | folder
  deriving DecidableEq, Repr

/-- Why a path leads nowhere. -/
inductive Astray where
  | notFound
  | notAFolder
  | tooLong
  | nullByte
  deriving DecidableEq, Repr

/-- Follows names from a place on. The last one need not be there, but must have a folder to be
in. -/
def follow (kindAt : Place → Option Kind) (p : Place) : List String → Except Astray Place
  | [] => .ok p
  | name :: names =>
    match kindAt p with
    | none => .error .notFound
    | some .file => .error .notAFolder
    | some .folder =>
      if name = ".." then follow kindAt p.up names
      else if maxNameSize < name.utf8ByteSize then .error .tooLong
      else follow kindAt (p.child name) names

/-- Where a path leads. -/
def Path.resolve (kindAt : Place → Option Kind) (p : Path) : Except Astray Place :=
  if p.names.any fun name => name.toList.contains (Char.ofNat 0) then .error .nullByte
  else if maxPathSize < p.text.utf8ByteSize then .error .tooLong
  else follow kindAt ⟨if p.isAbsolute then .root else .here, #[]⟩ p.names

end Files
end Croupier
