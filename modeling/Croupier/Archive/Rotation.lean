import Croupier.Archive.Backup

/-!
# Croupier.Archive.Rotation

Rolling over between paths. Both paths are seen from the folder. Of what lies outside it only the
folder for temporary files is known; nothing is kept track of there, nor in its subfolders.

* `compressAt_of_fileAt_error`: a source that cannot be read leaves all as it was.
-/

namespace Croupier
namespace Archive

open Files

def Entry.kind : Entry → Kind
  | .file _ => .file
  | .folder => .folder

namespace Folder

/-- What stands at a place, as far as it can be known from inside the folder. -/
def kindAt (f : Folder) : Place → Option Kind
  | ⟨.here, #[name]⟩ => (f.get? name).map Entry.kind
  | ⟨.root, #["tmp"]⟩ => some .folder
  | ⟨_, names⟩ => if names.isEmpty then some .folder else none

/-- The name of the file that a path leads to. -/
def fileAt (f : Folder) (path : String) : Except Trouble String :=
  match (Path.ofString path).resolve f.kindAt with
  | .error e => .error (.astray e)
  | .ok place =>
    match f.kindAt place, place with
    | some .file, ⟨.here, #[name]⟩ => .ok name
    | some _, _ => .error .isFolder
    | none, _ => .error (.astray .notFound)

/-- The backup goes next to the rolled-over file. -/
def backupPath (rolledOver : String) : Except Trouble Path :=
  let path := Path.ofString rolledOver
  match path.sibling? (backupName path.name) with
  | none => .error (.nameless path)
  | some backup => .ok backup

/-- Compresses the file at `source` into a backup. A backup that goes somewhere else is only seen
to leave. -/
def compressAt (source : String) (backup : Path) (f : Folder) : Option Trouble × Folder :=
  match f.fileAt source with
  | .error e => (some e, f)
  | .ok name =>
    match backup.resolve f.kindAt with
    | .error e => (some (.astray e), f)
    | .ok ⟨.here, #[backup]⟩ => f.compress name backup
    | .ok _ => (none, f.remove name)

/-- Compresses the file at `source` into the backup for `rolledOver`, which has to have a place
before the source is looked at. -/
def rotateAt (source rolledOver : String) (f : Folder) : Option Trouble × Folder :=
  match backupPath rolledOver with
  | .error e => (some e, f)
  | .ok backup => f.compressAt source backup

theorem compressAt_of_fileAt_error {source : String} {backup : Path} {f : Folder} {e : Trouble}
    (h : f.fileAt source = .error e) : f.compressAt source backup = (some e, f) := by
  rw [compressAt, h]

end Folder
end Archive
end Croupier
