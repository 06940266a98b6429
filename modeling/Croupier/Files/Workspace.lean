import Croupier.Files.Path

/-!
# Croupier.Files.Workspace

A working directory: the folders and files that are known to be in it, and how folders are made.
-/

namespace Croupier
namespace Files

/-- What is known of a file system, in the order in which it became known. -/
structure Workspace where
  entries : List (Place × Kind)
  deriving DecidableEq, Repr

/-- What keeps a folder from being made: a file in its place, a path that leads nowhere, or too
much that is missing above it. -/
inductive Obstruction where
  | fileInPlace
  | astray (e : Astray)
  | tooDeep
  deriving DecidableEq, Repr

namespace Workspace

def empty : Workspace := ⟨[]⟩

/-- A place without names is always a folder. -/
def kindAt (w : Workspace) (p : Place) : Option Kind :=
  if p.names.isEmpty then some .folder
  else (w.entries.find? fun entry => entry.1 == p).map (·.2)

def add (p : Place) (kind : Kind) (w : Workspace) : Workspace :=
  ⟨w.entries ++ [(p, kind)]⟩

/-- Makes one folder, unless it is there already. -/
def makeFolder (path : Path) (w : Workspace) : Except Obstruction Workspace :=
  match path.resolve w.kindAt with
  | .error e => .error (.astray e)
  | .ok place =>
    match w.kindAt place with
    | some .folder => .ok w
    | some .file => .error .fileInPlace
    | none => .ok (w.add place .folder)

/-- Makes a folder, with the names given from the last to the first. Only if something is missing
on the way the folders above it are made, and then it is tried once more. `room` is how many may
be missing. -/
def makeFoldersUp (root : String) :
    Nat → List String → Workspace → Option Obstruction × Workspace
  | _, [], w => (none, w)
  | 0, _ :: _, w => (some .tooDeep, w)
  | room + 1, name :: above, w =>
    let path : Path := ⟨root, (name :: above).reverse⟩
    match w.makeFolder path with
    | .ok w => (none, w)
    | .error (.astray .notFound) =>
      match makeFoldersUp root room above w with
      | (some e, w) => (some e, w)
      | (none, w) =>
        match w.makeFolder path with
        | .ok w => (none, w)
        | .error e => (some e, w)
    | .error e => (some e, w)

/-- Makes a folder and all that are missing above it, unless more than `missing` are; those made
before an obstruction stay. -/
def makeFolders (missing : Nat) (path : Path) (w : Workspace) : Option Obstruction × Workspace :=
  w.makeFoldersUp path.root missing path.names.reverse

/-- The paths of all that is known to be in the working directory, in the order of code points. -/
def paths (w : Workspace) : List String :=
  (w.entries.filterMap fun (place, _) =>
    if place.base = .here then some ("/".intercalate place.names.toList) else none).mergeSort
      fun a b => decide (a ≤ b)

end Workspace
end Files
end Croupier
