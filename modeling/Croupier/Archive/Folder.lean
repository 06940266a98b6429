import Croupier.Files.Path

/-!
# Croupier.Archive.Folder

A folder of named entries, in the order of their names (by code points), each name once.

* `mem_names_put`, `mem_names_remove`: what the operations do to the names.
* `get?_put_self`: what was put is found.
-/

namespace Croupier
namespace Archive

/-- A text, or something compressed. -/
inductive File where
  | text (s : String)
  | gzip (f : File)
  deriving DecidableEq, Repr

inductive Entry where
  | file (f : File)
  | folder
  deriving DecidableEq, Repr

structure Folder where
  entries : List (String × Entry)
  sorted : (entries.map (·.1)).Pairwise (· < ·)

/-- Why a file cannot be opened or deleted, or a backup has no place to go. -/
inductive Trouble where
  | isFolder
  | astray (e : Files.Astray)
  | nameless (path : Files.Path)
  deriving DecidableEq, Repr

namespace Folder

def empty : Folder := ⟨[], .nil⟩

def names (f : Folder) : List String :=
  f.entries.map (·.1)

def get? (f : Folder) (name : String) : Option Entry :=
  (f.entries.find? fun entry => entry.1 == name).map (·.2)

def remove (f : Folder) (name : String) : Folder where
  entries := f.entries.filter fun entry => entry.1 != name
  sorted := f.sorted.sublist (List.filter_sublist.map _)

/-- Replaces the entry of that name, or goes where the name belongs. -/
def insertEntry (name : String) (entry : Entry) : List (String × Entry) → List (String × Entry)
  | [] => [(name, entry)]
  | other :: rest =>
    if name < other.1 then (name, entry) :: other :: rest
    else if name = other.1 then (name, entry) :: rest
    else other :: insertEntry name entry rest

theorem mem_names_insertEntry {name n : String} {entry : Entry} {entries : List (String × Entry)} :
    n ∈ (insertEntry name entry entries).map (·.1) ↔ n = name ∨ n ∈ entries.map (·.1) := by
  induction entries with
  | nil => simp [insertEntry]
  | cons other rest ih =>
    by_cases h : name < other.1
    · simp [insertEntry, h]
    · by_cases he : name = other.1
      · subst he
        simp [insertEntry]
      · simp only [insertEntry, h, he, if_false, List.map_cons, List.mem_cons, ih]
        constructor
        · rintro (hn | hn | hn)
          · exact .inr (.inl hn)
          · exact .inl hn
          · exact .inr (.inr hn)
        · rintro (hn | hn | hn)
          · exact .inr (.inl hn)
          · exact .inl hn
          · exact .inr (.inr hn)

theorem insertEntry_sorted {name : String} {entry : Entry} {entries : List (String × Entry)}
    (h : (entries.map (·.1)).Pairwise (· < ·)) :
    ((insertEntry name entry entries).map (·.1)).Pairwise (· < ·) := by
  induction entries with
  | nil => simp [insertEntry]
  | cons other rest ih =>
    obtain ⟨hother, hrest⟩ := List.pairwise_cons.1 h
    by_cases hlt : name < other.1
    · simp only [insertEntry, hlt, if_true]
      refine List.pairwise_cons.2 ⟨fun n hn => ?_, h⟩
      rcases List.mem_cons.1 hn with rfl | hn
      · exact hlt
      · exact String.lt_trans hlt (hother n hn)
    · by_cases he : name = other.1
      · subst he
        simp only [insertEntry, String.lt_irrefl, if_false, if_true]
        exact List.pairwise_cons.2 ⟨hother, hrest⟩
      · simp only [insertEntry, hlt, he, if_false]
        refine List.pairwise_cons.2 ⟨fun n hn => ?_, ih hrest⟩
        rcases mem_names_insertEntry.1 hn with rfl | hn
        · exact Std.lt_of_le_of_ne (Std.not_lt.1 hlt) (Ne.symm he)
        · exact hother n hn

def put (f : Folder) (name : String) (entry : Entry) : Folder where
  entries := insertEntry name entry f.entries
  sorted := insertEntry_sorted f.sorted

/-- Of several entries with one name the last stays. -/
def ofList (entries : List (String × Entry)) : Folder :=
  entries.foldl (fun f entry => f.put entry.1 entry.2) empty

theorem mem_names_put {f : Folder} {name n : String} {entry : Entry} :
    n ∈ (f.put name entry).names ↔ n = name ∨ n ∈ f.names :=
  mem_names_insertEntry

theorem names_remove (f : Folder) (name : String) :
    (f.remove name).names = f.names.filter (· != name) := by
  simp only [names, remove, List.filter_map]
  rfl

theorem mem_names_remove {f : Folder} {name n : String} :
    n ∈ (f.remove name).names ↔ n ∈ f.names ∧ n ≠ name := by
  simp [names_remove]

theorem get?_put_self (f : Folder) (name : String) (entry : Entry) :
    (f.put name entry).get? name = some entry := by
  have key : ∀ entries : List (String × Entry),
      ((insertEntry name entry entries).find? fun e => e.1 == name) = some (name, entry) := by
    intro entries
    induction entries with
    | nil => simp [insertEntry]
    | cons other rest ih =>
      by_cases hlt : name < other.1
      · simp [insertEntry, hlt]
      · by_cases he : name = other.1
        · simp [insertEntry, he]
        · simp [insertEntry, hlt, he, Ne.symm he, ih]
  simp [get?, put, key]

end Folder
end Archive
end Croupier
