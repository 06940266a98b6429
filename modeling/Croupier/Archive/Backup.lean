import Croupier.Archive.Folder

/-!
# Croupier.Archive.Backup

Backups are named after their date. Old ones are pruned; a file that is rolled over is
compressed into a new one.
-/

namespace Croupier
namespace Archive

/-- The number of backups that are kept. -/
def backupCount : Int := 30

/-- `????-??-??.log.gz`, where a question mark stands for any character. -/
def isBackupName (name : String) : Bool :=
  match name.toList with
  | [_, _, _, _, '-', _, _, '-', _, _, '.', 'l', 'o', 'g', '.', 'g', 'z'] => true
  | _ => false

namespace Folder

/-- The names of the backups in ascending order, which is the order of their dates. -/
def backups (f : Folder) : List String :=
  f.names.filter isBackupName

/-- Deletes files in turn until one turns out to be a folder. -/
def discard : List String → Folder → Option Trouble × Folder
  | [], f => (none, f)
  | name :: names, f =>
    match f.get? name with
    | some .folder => (some .isFolder, f)
    | _ => discard names (f.remove name)

/-- Deletes the oldest backups until `keep` are left. -/
def prune (keep : Int) (f : Folder) : Option Trouble × Folder :=
  f.discard (f.backups.take ((f.backups.length : Int) - keep).toNat)

/-- The backup for a rolled-over file is named after what follows its last dot. -/
def backupName (rolledOver : String) : String :=
  String.ofList ((rolledOver.toList.splitOn '.').getLastD []) ++ ".log.gz"

/-- Compresses `source` into `backup`, deletes `source` and prunes. The backup is written first: a
source that is its own backup is lost. -/
def compress (source backup : String) (f : Folder) : Option Trouble × Folder :=
  match f.get? source, f.get? backup with
  | none, _ => (some (.astray .notFound), f)
  | some .folder, _ => (some .isFolder, f)
  | _, some .folder => (some .isFolder, f)
  | some (.file content), _ =>
    prune backupCount ((f.put backup (.file (.gzip content))).remove source)

/-- Compresses `source` into the backup for `rolledOver`. -/
def rotate (source rolledOver : String) (f : Folder) : Option Trouble × Folder :=
  f.compress source (backupName rolledOver)

end Folder
end Archive
end Croupier
