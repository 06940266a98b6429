import Croupier.Proofs.Archive.Pruning
import Croupier.Proofs.Calendar
import Mathlib.Data.String.Basic

/-!
# Croupier.Proofs.Archive.Retention

What pruning leaves of any folder: all that is no backup, and the newest backups. The names of
backups stand in the order of their dates, so the newest are those with the latest dates.

* `isBackupName_iff`: backups are the names that fit the pattern.
* `dateName_lt`: names stand in the order of their dates.
* `exists_newest`: the backups to go are smaller than those to stay.
* `prune_keeps_newest`: what is left, also where a folder is in the way.
-/

namespace Croupier
namespace Archive

/-- The name has the characters of the pattern, and any character for a question mark. -/
def Matches (pattern name : String) : Prop :=
  List.Forall₂ (fun p c => p = '?' ∨ p = c) pattern.toList name.toList

theorem isBackupName_iff {name : String} :
    isBackupName name = true ↔ Matches "????-??-??.log.gz" name := by
  have hpattern : "????-??-??.log.gz".toList =
      ['?', '?', '?', '?', '-', '?', '?', '-', '?', '?', '.', 'l', 'o', 'g', '.', 'g', 'z'] := rfl
  rw [isBackupName, Matches, hpattern]
  constructor
  · intro h
    split at h
    · rename_i heq
      rw [heq]
      simp
    · cases h
  · generalize name.toList = chars
    intro h
    simp only [List.forall₂_cons_left_iff, List.forall₂_nil_left_iff, Char.reduceEq, true_or,
      false_or, true_and, existsAndEq, exists_and_left, exists_eq_left, exists_eq_left'] at h
    obtain ⟨_, _, _, _, _, _, _, _, rfl⟩ := h
    rfl

/-- Of the names, `kept` are the `count` greatest, or all where there are not as many. -/
structure Newest (count : Nat) (names kept : List String) : Prop where
  sublist : kept.Sublist names
  length_eq : kept.length = min count names.length
  lt : ∀ name ∈ names, name ∉ kept → ∀ newer ∈ kept, name < newer

/-- `YYYY-MM-DD.log.gz` -/
def dateName (d : Date) : String :=
  String.ofList d.padded ++ ".log.gz"

theorem isBackupName_dateName (d : Date) : isBackupName (dateName d) = true := by
  rw [isBackupName, dateName, String.toList_append, String.toList_ofList]
  rfl

theorem dateName_lt {d e : Date} (hd : d.InPlaces) (he : e.InPlaces) (h : d.Before e) :
    dateName d < dateName e := by
  have hlength : d.padded.length = e.padded.length := by
    rw [Date.length_padded, Date.length_padded]
  simp only [String.lt_iff_toList_lt, dateName, String.toList_append, String.toList_ofList]
  exact Numeral.append_lt_append hlength (hd.padded_lt he h)

theorem before_of_dateName_lt {d e : Date} (hd : d.InPlaces) (he : e.InPlaces)
    (h : dateName d < dateName e) : d.Before e := by
  rcases Date.before_or_eq_or_before d e with hbefore | rfl | hafter
  · exact hbefore
  · exact absurd h (String.lt_irrefl _)
  · exact absurd (String.lt_trans h (dateName_lt he hd hafter)) (String.lt_irrefl _)

namespace Folder

variable {f : Folder}

theorem sorted_backups (f : Folder) : f.backups.Pairwise (· < ·) :=
  f.sorted.sublist List.filter_sublist

theorem forall_mem_entries {names : List String} (h : ∀ name ∈ names, f.get? name ≠ some .folder) :
    ∀ e ∈ f.entries, e.1 ∈ names → e.2 ≠ .folder := by
  intro e he hmem hfolder
  exact h e.1 hmem (get?_eq_some_iff.2 (hfolder ▸ he))

/-- The backups to go, in front of those to stay. -/
theorem exists_newest (f : Folder) (keep : Int) :
    ∃ doomed kept, f.backups = doomed ++ kept ∧ f.prune keep = f.discard doomed ∧
      Newest keep.toNat f.backups kept ∧ ∀ name, name ∈ doomed ↔ name ∈ f.backups ∧ name ∉ kept := by
  let count := ((f.backups.length : Int) - keep).toNat
  have hbackups : f.backups = f.backups.take count ++ f.backups.drop count :=
    (List.take_append_drop count _).symm
  have hsorted := f.sorted_backups
  rw [hbackups, List.pairwise_append] at hsorted
  have hdoomed : ∀ name, name ∈ f.backups.take count ↔
      name ∈ f.backups ∧ name ∉ f.backups.drop count := by
    intro name
    refine ⟨fun hname => ⟨List.mem_of_mem_take hname, fun hkept => ?_⟩, fun ⟨hname, hkept⟩ => ?_⟩
    · exact String.lt_irrefl name (hsorted.2.2 name hname name hkept)
    · rw [hbackups, List.mem_append] at hname
      exact hname.resolve_right hkept
  refine ⟨_, _, hbackups, rfl, ⟨List.drop_sublist _ _, ?_, ?_⟩, hdoomed⟩
  · rw [List.length_drop]
    omega
  · intro name hname hkept newer hnewer
    exact hsorted.2.2 name ((hdoomed name).2 ⟨hname, hkept⟩) newer hnewer

/-- Names stand in front of another one if they are smaller. -/
theorem mem_front_iff {front back : List String} {first name : String}
    (h : (front ++ first :: back).Pairwise (· < ·)) :
    name ∈ front ↔ name ∈ front ++ first :: back ∧ name < first := by
  obtain ⟨-, hback, hfront⟩ := List.pairwise_append.1 h
  refine ⟨fun hname => ?_, fun ⟨hname, hlt⟩ => ?_⟩
  · exact ⟨List.mem_append_left _ hname, hfront name hname first List.mem_cons_self⟩
  · rcases List.mem_append.1 hname with hname | hname
    · exact hname
    · rcases List.mem_cons.1 hname with rfl | hname
      · exact absurd hlt (String.lt_irrefl _)
      · exact absurd (String.lt_trans hlt ((List.pairwise_cons.1 hback).1 name hname))
          (String.lt_irrefl _)

/-- With a folder among the backups to go, those before the first one go and the rest stays. -/
theorem prune_refused {keep : Int} {doomed kept : List String} (hbackups : f.backups = doomed ++ kept)
    (hprune : f.prune keep = f.discard doomed)
    (hfolder : ∃ name ∈ doomed, f.get? name = some .folder) :
    ∃ first ∈ doomed, f.get? first = some .folder ∧
      (∀ name ∈ f.backups, name < first → f.get? name ≠ some .folder) ∧
      (f.prune keep).1 = some .isFolder ∧
      (f.prune keep).2.entries =
        f.entries.filter fun e => decide (e.1 ∈ f.backups → ¬ e.1 < first) := by
  obtain ⟨name, hname, hget⟩ := hfolder
  obtain ⟨first, hfirst⟩ : ∃ first, doomed.find? (fun n => f.get? n = some .folder) = some first :=
    Option.isSome_iff_exists.1 (List.find?_isSome.2 ⟨name, hname, decide_eq_true hget⟩)
  obtain ⟨hisFolder, front, back, rfl, hfront⟩ := List.find?_eq_some_iff_append.1 hfirst
  have hget : f.get? first = some .folder := by simpa using hisFolder
  have hfiles : ∀ name ∈ front, f.get? name ≠ some .folder := by simpa using hfront
  have hwhole : f.backups = front ++ first :: (back ++ kept) := by simp [hbackups]
  have hmem : ∀ name, name ∈ front ↔ name ∈ f.backups ∧ name < first := by
    intro name
    have hsorted := f.sorted_backups
    rw [hwhole] at hsorted ⊢
    exact mem_front_iff hsorted
  obtain ⟨hrefused, hentries⟩ := discard_at_folder (forall_mem_entries hfiles) hget back
  refine ⟨first, by simp, hget, ?_, by rw [hprune, hrefused], ?_⟩
  · exact fun name hname hlt => hfiles name ((hmem name).2 ⟨hname, hlt⟩)
  · rw [hprune, hentries]
    refine List.filter_congr fun e _ => ?_
    simp [hmem]

/-- Pruning keeps the newest backups and all that is no backup. Where a folder has the name of a
backup that is to go, pruning is refused when the backups before it are gone. -/
theorem prune_keeps_newest (f : Folder) (keep : Int) :
    (∀ name, name ∈ f.backups ↔ name ∈ f.names ∧ Matches "????-??-??.log.gz" name) ∧
    ∃ kept, Newest keep.toNat f.backups kept ∧
      (∀ d e : Date, d.InPlaces → e.InPlaces → dateName d ∈ f.backups → dateName d ∉ kept →
        dateName e ∈ kept → d.Before e) ∧
      ((∀ name ∈ f.backups, name ∉ kept → f.get? name ≠ some .folder) →
        (f.prune keep).1 = none ∧
        (f.prune keep).2.entries =
          f.entries.filter fun e => decide (e.1 ∈ f.backups → e.1 ∈ kept)) ∧
      ((∃ name ∈ f.backups, name ∉ kept ∧ f.get? name = some .folder) →
        ∃ first ∈ f.backups, first ∉ kept ∧ f.get? first = some .folder ∧
          (∀ name ∈ f.backups, name < first → f.get? name ≠ some .folder) ∧
          (f.prune keep).1 = some .isFolder ∧
          (f.prune keep).2.entries =
            f.entries.filter fun e => decide (e.1 ∈ f.backups → ¬ e.1 < first)) := by
  obtain ⟨doomed, kept, hbackups, hprune, hnewest, hdoomed⟩ := f.exists_newest keep
  refine ⟨fun name => by rw [backups, List.mem_filter, isBackupName_iff], kept, hnewest, ?_, ?_, ?_⟩
  · intro d e hd he hgone hleft hkept
    exact before_of_dateName_lt hd he (hnewest.lt _ hgone hleft _ hkept)
  · intro hnone
    have hfiles : ∀ name ∈ doomed, f.get? name ≠ some .folder := fun name hname =>
      hnone name ((hdoomed name).1 hname).1 ((hdoomed name).1 hname).2
    obtain ⟨hdone, hentries⟩ := entries_discard (forall_mem_entries hfiles)
    rw [hprune]
    refine ⟨hdone, hentries.trans (List.filter_congr fun e _ => ?_)⟩
    simp [hdoomed]
  · rintro ⟨name, hname, hkept, hfolder⟩
    obtain ⟨first, hfirst, hrest⟩ :=
      prune_refused hbackups hprune ⟨name, (hdoomed name).2 ⟨hname, hkept⟩, hfolder⟩
    exact ⟨first, ((hdoomed first).1 hfirst).1, ((hdoomed first).1 hfirst).2, hrest⟩

example :
    let file := Entry.file (.text "")
    let f := ofList [("1999-12-31.log.gz", file), ("2000-01-01.log.gz", .folder),
      ("2000-01-02.log.gz", file), ("latest.log", file)]
    (f.prune (-1)).1 = some .isFolder ∧
      (f.prune (-1)).2.names = ["2000-01-01.log.gz", "2000-01-02.log.gz", "latest.log"] ∧
      (f.prune 2).1 = none ∧ (f.prune 2).2.names = (f.prune (-1)).2.names := by
  decide

end Folder
end Archive
end Croupier
