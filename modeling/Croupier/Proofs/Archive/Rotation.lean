import Croupier.Archive.Rotation
import Croupier.Proofs.Archive.Retention

/-!
# Croupier.Proofs.Archive.Rotation

Rolling a file over moves it into its backup and does no harm to the others. A name leads to the
entry of that name, unless no file can be opened under it; the source is opened before the backup
is made, so a rotation that fails leaves the folder as it was.

* `resolve_name`: where a name leads.
* `exists_kept`: what is found in a folder that was pruned.
* `Moved.of_compress`: what compressing makes of a folder of files.
* `rotation_moves_one_file`: any rotation from one name to another.
-/

namespace Croupier
namespace Files

/-- What something in a folder can be called. -/
structure IsName (name : String) : Prop where
  ne_empty : name ≠ ""
  ne_here : name ≠ "."
  ne_above : name ≠ ".."
  no_slash : '/' ∉ name.toList

instance (name : String) : Decidable (IsName name) :=
  decidable_of_iff (name ≠ "" ∧ name ≠ "." ∧ name ≠ ".." ∧ '/' ∉ name.toList)
    ⟨fun ⟨h₁, h₂, h₃, h₄⟩ => ⟨h₁, h₂, h₃, h₄⟩, fun h => ⟨h.1, h.2, h.3, h.4⟩⟩

/-- Why no file can be opened under a name. -/
def nameFault? (name : String) : Option Astray :=
  if name.toList.contains (Char.ofNat 0) then some .nullByte
  else if maxNameSize < name.utf8ByteSize then some .tooLong
  else none

section Name

variable {name : String}

theorem ofString_name (h : IsName name) : Path.ofString name = ⟨"", [name]⟩ := by
  have hslash : ∀ c ∈ name.toList, ¬ c = '/' := fun c hc heq => h.no_slash (heq ▸ hc)
  have hroot : Path.rootOf name.toList = "" := by
    have hnone : name.toList.takeWhile (· = '/') = [] := by
      cases hchars : name.toList with
      | nil => rfl
      | cons c cs =>
        rw [List.takeWhile_cons_of_neg]
        simpa using hslash c (hchars ▸ List.mem_cons_self)
    rw [Path.rootOf, hnone]
    rfl
  have hsplit : name.toList.splitOn '/' = [name.toList] :=
    List.splitOnP_eq_singleton fun c hc => by simpa using hslash c hc
  rw [Path.ofString, hroot, hsplit]
  simp [h.ne_empty, h.ne_here]

/-- A single name leads into the folder from which it is seen. -/
theorem resolve_name {kindAt : Place → Option Kind} (hhere : kindAt Place.here = some .folder)
    (h : name ≠ "..") :
    (⟨"", [name]⟩ : Path).resolve kindAt =
      match nameFault? name with
      | some e => .error e
      | none => .ok ⟨.here, #[name]⟩ := by
  have hfollow : follow kindAt Place.here [name] =
      if maxNameSize < name.utf8ByteSize then .error .tooLong else .ok ⟨.here, #[name]⟩ := by
    rw [follow, hhere]
    simp only [if_neg h]
    rfl
  have hresolve : (⟨"", [name]⟩ : Path).resolve kindAt =
      if name.toList.contains (Char.ofNat 0) then .error .nullByte
      else if maxPathSize < name.utf8ByteSize then .error .tooLong
      else follow kindAt Place.here [name] := by
    rw [Path.resolve, Path.text]
    simp [Path.isAbsolute, Place.here]
  rw [hresolve, nameFault?]
  by_cases hnull : name.toList.contains (Char.ofNat 0) = true
  · rw [if_pos hnull, if_pos hnull]
  · rw [if_neg hnull, if_neg hnull, hfollow]
    -- a path of one name is too long only if the name is
    by_cases hsize : maxNameSize < name.utf8ByteSize
    · rw [if_pos hsize, if_pos hsize, ite_self]
    · have hpath : ¬ maxPathSize < name.utf8ByteSize := by
        unfold maxPathSize maxNameSize at *
        omega
      rw [if_neg hsize, if_neg hsize, if_neg hpath]

end Name

end Files

namespace Archive

open Files

namespace Folder

/-! ## Rotations between names -/

section Rotate

variable {f : Folder} {source out : String}

theorem kindAt_here (f : Folder) : f.kindAt Place.here = some .folder :=
  rfl

theorem fileAt_name (h : IsName source) :
    f.fileAt source =
      match nameFault? source with
      | some e => .error (.astray e)
      | none =>
        match f.get? source with
        | none => .error (.astray .notFound)
        | some .folder => .error .isFolder
        | some (.file _) => .ok source := by
  -- the equations of a match on a literal array cannot be generated, so the definition is opened
  delta fileAt
  rw [ofString_name h, resolve_name f.kindAt_here h.ne_above]
  cases nameFault? source with
  | some e => rfl
  | none =>
    have hkind : f.kindAt ⟨.here, #[source]⟩ = (f.get? source).map Entry.kind := rfl
    dsimp only
    rw [hkind]
    cases f.get? source with
    | none => rfl
    | some entry => cases entry <;> rfl

theorem backupName_ne_above (text : String) : backupName text ≠ ".." := by
  intro h
  have hlast := congrArg (fun s : String => s.toList.getLast?) h
  simp [backupName] at hlast

/-- The backup goes into the folder that the file is in. -/
theorem rotateAt_name {dest : String} (hdest : IsName dest) :
    f.rotateAt source dest = f.compressAt source ⟨"", [backupName dest]⟩ := by
  have hpath : backupPath dest = .ok ⟨"", [backupName dest]⟩ := by
    rw [backupPath, ofString_name hdest]
    rfl
  rw [rotateAt, hpath]

theorem compressAt_name {content : File} (hsource : IsName source) (hout : out ≠ "..")
    (hnone : nameFault? source = none) (hget : f.get? source = some (.file content)) :
    f.compressAt source ⟨"", [out]⟩ =
      match nameFault? out with
      | some e => (some (.astray e), f)
      | none => f.compress source out := by
  rw [compressAt, fileAt_name hsource, hnone, hget, resolve_name f.kindAt_here hout]
  cases nameFault? out <;> rfl

end Rotate

/-! ## Folders of files -/

/-- Pruning a folder of files goes through, and keeps the newest backups and all other files. -/
theorem exists_kept {f : Folder} (hfiles : ∀ name, f.get? name ≠ some .folder) (keep : Int) :
    (f.prune keep).1 = none ∧
      ∃ kept, Newest keep.toNat f.backups kept ∧
        ∀ name, (f.prune keep).2.get? name =
          if name ∈ f.backups → name ∈ kept then f.get? name else none := by
  obtain ⟨doomed, kept, -, hprune, hnewest, hdoomed⟩ := f.exists_newest keep
  obtain ⟨hdone, hentries⟩ := entries_discard (forall_mem_entries fun name _ => hfiles name)
  rw [hprune]
  refine ⟨hdone, kept, hnewest, fun name => ?_⟩
  rw [get?_of_filter (p := (· ∉ doomed)) hentries]
  simp only [hdoomed, not_and, not_not]

/-- What is left of a folder when the file `source` has been moved into the backup `out`: of the
names that then fit the pattern of backups the thirty greatest, and all other names. The backup
holds what the file held, compressed, and every other file what it held before. -/
structure Moved (f : Folder) (source out : String) (content : File) (left : Folder) : Prop where
  gone : source ∉ left.names
  exists_backups : ∃ backups kept : List String,
    backups.Pairwise (· < ·) ∧
    (∀ name, name ∈ backups ↔
      Matches "????-??-??.log.gz" name ∧ (name ∈ f.names ∧ name ≠ source ∨ name = out)) ∧
    Newest 30 backups kept ∧
    ∀ name, name ∈ left.names ↔
      (name ∈ f.names ∧ name ≠ source ∨ name = out) ∧
        (Matches "????-??-??.log.gz" name → name ∈ kept)
  backup : out ∈ left.names → left.get? out = some (.file (.gzip content))
  others : ∀ name ∈ left.names, name ≠ out → left.get? name = f.get? name

section Compress

variable {f : Folder} {source out : String} {content : File}

/-- The folder once the file is compressed and gone. -/
def swapped (f : Folder) (source out : String) (content : File) : Folder :=
  (f.put out (.file (.gzip content))).remove source

theorem mem_names_swapped (hne : out ≠ source) {name : String} :
    name ∈ (f.swapped source out content).names ↔
      name ∈ f.names ∧ name ≠ source ∨ name = out := by
  rw [swapped, mem_names_remove, mem_names_put]
  constructor
  · rintro ⟨rfl | hname, hsource⟩
    · exact .inr rfl
    · exact .inl ⟨hname, hsource⟩
  · rintro (⟨hname, hsource⟩ | rfl)
    · exact ⟨.inr hname, hsource⟩
    · exact ⟨.inl rfl, hne⟩

theorem get?_swapped_self (hne : out ≠ source) :
    (f.swapped source out content).get? out = some (.file (.gzip content)) := by
  rw [swapped, get?_remove, if_pos hne, get?_put_self]

theorem get?_swapped_of_ne {name : String} (hname : name ≠ source) (hout : name ≠ out) :
    (f.swapped source out content).get? name = f.get? name := by
  rw [swapped, get?_remove, if_pos hname, get?_put_of_ne hout]

theorem get?_swapped_ne_folder (hfiles : ∀ name, f.get? name ≠ some .folder) (hne : out ≠ source)
    (name : String) : (f.swapped source out content).get? name ≠ some .folder := by
  by_cases hname : name = source
  · rw [hname, swapped, get?_remove, if_neg (not_not.2 rfl)]
    exact nofun
  · by_cases hout : name = out
    · rw [hout, get?_swapped_self hne]
      exact nofun
    · rw [get?_swapped_of_ne hname hout]
      exact hfiles name

theorem compress_eq_prune (hfiles : ∀ name, f.get? name ≠ some .folder)
    (hget : f.get? source = some (.file content)) :
    f.compress source out = (f.swapped source out content).prune backupCount := by
  rw [compress, hget]
  cases hout : f.get? out with
  | none => rfl
  | some entry =>
    cases entry with
    | folder => exact absurd hout (hfiles out)
    | file content' => rfl

theorem Moved.of_compress (hfiles : ∀ name, f.get? name ≠ some .folder)
    (hget : f.get? source = some (.file content)) (hne : out ≠ source) :
    (f.compress source out).1 = none ∧
      Moved f source out content (f.compress source out).2 := by
  let g := f.swapped source out content
  obtain ⟨hdone, kept, hnewest, hleft⟩ :=
    exists_kept (f := g) (get?_swapped_ne_folder hfiles hne) backupCount
  rw [compress_eq_prune hfiles hget]
  have hbackups : ∀ name, name ∈ g.backups ↔
      Matches "????-??-??.log.gz" name ∧ (name ∈ f.names ∧ name ≠ source ∨ name = out) := by
    intro name
    rw [backups, List.mem_filter, isBackupName_iff, mem_names_swapped hne, and_comm]
  have hnames : ∀ name, name ∈ (g.prune backupCount).2.names ↔
      name ∈ g.names ∧ (name ∈ g.backups → name ∈ kept) := by
    intro name
    rw [mem_names_iff, mem_names_iff, hleft]
    by_cases hkept : name ∈ g.backups → name ∈ kept
    · rw [if_pos hkept, and_iff_left hkept]
    · rw [if_neg hkept]
      simp [hkept]
  have hfound : ∀ name ∈ (g.prune backupCount).2.names,
      (g.prune backupCount).2.get? name = g.get? name := by
    intro name hname
    rw [hleft, if_pos ((hnames name).1 hname).2]
  refine ⟨hdone, ?_, ⟨g.backups, kept, g.sorted_backups, hbackups, hnewest, ?_⟩, ?_, ?_⟩
  · intro hsource
    have hmem := mem_names_swapped hne |>.1 ((hnames source).1 hsource).1
    rcases hmem with ⟨-, hself⟩ | heq
    · exact hself rfl
    · exact hne heq.symm
  · intro name
    rw [hnames, hbackups, mem_names_swapped hne]
    exact and_congr_right fun hname => ⟨fun h hfits => h ⟨hfits, hname⟩, fun h hmem => h hmem.1⟩
  · intro hout
    rw [hfound out hout, get?_swapped_self hne]
  · intro name hname hout
    have hsource : name ≠ source := by
      rcases (mem_names_swapped hne).1 ((hnames name).1 hname).1 with ⟨-, hsource⟩ | heq
      · exact hsource
      · exact absurd heq hout
    rw [hfound name hname, get?_swapped_of_ne hsource hout]

end Compress

/-- Rolling one file of a folder over into another. Where the file is there and its backup can have
its name, the file moves into the backup, and of all others only backups beyond the newest thirty
go. Otherwise something is raised and the folder stays as it is. -/
theorem rotation_moves_one_file (f : Folder) {source dest d : String}
    (hfiles : ∀ name, f.get? name ≠ some .folder) (hsource : IsName source) (hdest : IsName dest)
    (hd : AfterLastDot dest d) (hne : d ++ ".log.gz" ≠ source) :
    let out := d ++ ".log.gz"
    let result := f.rotateAt source dest
    (nameFault? source = none →
      (∀ content, f.get? source = some (.file content) →
        (nameFault? out = none →
          result.1 = none ∧ Moved f source out content result.2) ∧
        ∀ e, nameFault? out = some e → result = (some (.astray e), f)) ∧
      (source ∉ f.names → result = (some (.astray .notFound), f))) ∧
    ∀ e, nameFault? source = some e → result = (some (.astray e), f) := by
  intro out result
  have hout : backupName dest = out := backupName_of_afterLastDot hd
  have hresult : result = f.compressAt source ⟨"", [out]⟩ := by rw [← hout, ← rotateAt_name hdest]
  have habove : out ≠ ".." := hout ▸ backupName_ne_above dest
  rw [hresult]
  refine ⟨fun hnone => ⟨fun content hget => ?_, fun hmissing => ?_⟩, fun e hfault => ?_⟩
  · rw [compressAt_name hsource habove hnone hget]
    refine ⟨fun hfits => ?_, fun e hfault => ?_⟩
    · rw [hfits]
      exact Moved.of_compress hfiles hget hne
    · rw [hfault]
  · refine compressAt_of_fileAt_error ?_
    rw [fileAt_name hsource, hnone, get?_eq_none hmissing]
  · refine compressAt_of_fileAt_error ?_
    rw [fileAt_name hsource, hfault]

/-- Thirty newer backups are there already, so the new one goes at once. -/
theorem rotation_moves_one_file_oldest :
    let backups := (List.range 30).map fun i =>
      ("2025-01-" ++ Numeral.twoPlaces (30 - i) ++ ".log.gz", Entry.file (.gzip (.text "old")))
    let f := (ofList backups).put "latest.log" (.file (.text "new"))
    let left := (f.rotateAt "latest.log" "latest.log.2024-12-31").2
    Moved f "latest.log" "2024-12-31.log.gz" (.text "new") left ∧
      left.names.head? = some "2025-01-01.log.gz" := by
  intro backups f left
  have hfiles : ∀ e ∈ f.entries, e.2 ≠ .folder := by decide +kernel
  have hd : AfterLastDot "latest.log.2024-12-31" "2024-12-31" :=
    ⟨by decide, .inr ⟨"latest.log", rfl⟩⟩
  have hget : f.get? "latest.log" = some (.file (.text "new")) := get?_put_self _ _ _
  obtain ⟨hmoved, -⟩ := rotation_moves_one_file f
    (fun name hname => hfiles _ (mem_of_get? hname) rfl) (by decide : IsName "latest.log")
    (by decide : IsName "latest.log.2024-12-31") hd (by decide)
  obtain ⟨-, hleft⟩ := ((hmoved (by decide)).1 _ hget).1 (by decide)
  exact ⟨hleft, by decide +kernel⟩

/-! ## Long names -/

/-- As many letters as are asked for. -/
def letters (n : Nat) : String :=
  String.ofList (List.replicate n 'a')

theorem notMem_letters {c : Char} (h : c ≠ 'a') (n : Nat) : c ∉ (letters n).toList := by
  rw [letters, String.toList_ofList]
  exact fun hmem => h (List.eq_of_mem_replicate hmem)

theorem utf8ByteSize_letters (n : Nat) : (letters n).utf8ByteSize = n := by
  rw [letters, String.utf8ByteSize_ofList]
  induction n with
  | zero => rfl
  | succ n ih =>
    rw [List.replicate_succ, String.utf8Len_cons, ih]
    rfl

theorem isName_letters (n : Nat) : IsName ("x" ++ "." ++ letters n) := by
  have hslash := notMem_letters (c := '/') (by decide) n
  have hchars : ("x" ++ "." ++ letters n).toList = 'x' :: '.' :: (letters n).toList := by simp
  refine ⟨?_, ?_, ?_, by simp [hslash]⟩
  all_goals
    rw [ne_eq, ← String.toList_inj, hchars]
    simp

theorem nameFault?_letters (front back : String) (n : Nat)
    (h : Char.ofNat 0 ∉ front.toList ++ back.toList) :
    nameFault? (front ++ letters n ++ back) =
      if maxNameSize < front.utf8ByteSize + n + back.utf8ByteSize then some .tooLong else none := by
  have hletters := notMem_letters (c := Char.ofNat 0) (by decide) n
  have hnull : ¬ (front ++ letters n ++ back).toList.contains (Char.ofNat 0) = true := by
    rw [List.contains_iff_mem, String.toList_append, String.toList_append, List.append_assoc]
    intro hmem
    rcases List.mem_append.1 hmem with hmem | hmem
    · exact h (List.mem_append_left _ hmem)
    · rcases List.mem_append.1 hmem with hmem | hmem
      · exact hletters hmem
      · exact h (List.mem_append_right _ hmem)
  rw [nameFault?, if_neg hnull, String.utf8ByteSize_append, String.utf8ByteSize_append,
    utf8ByteSize_letters]

/-- A name that is not too long itself may have a backup that is: then the file stays. -/
theorem rotation_stays_at_long_backup :
    let d := letters 250
    let dest := "x" ++ "." ++ d
    let f := ofList [("latest.log", .file (.text "line"))]
    IsName dest ∧ nameFault? dest = none ∧ AfterLastDot dest d ∧ d ++ ".log.gz" ≠ "latest.log" ∧
      f.get? "latest.log" = some (.file (.text "line")) ∧
      f.rotateAt "latest.log" dest = (some (.astray .tooLong), f) ∧
      "latest.log" ∈ (f.rotateAt "latest.log" dest).2.names := by
  intro d dest f
  have hdest : IsName dest := isName_letters 250
  have hd : AfterLastDot dest d := ⟨notMem_letters (by decide) 250, .inr ⟨"x", rfl⟩⟩
  have hnone : nameFault? dest = none := by
    have hfault := nameFault?_letters ("x" ++ ".") "" 250 (by decide)
    rw [String.append_empty] at hfault
    exact hfault.trans (if_neg (by decide))
  have hfault : nameFault? (backupName dest) = some .tooLong := by
    have hfault := nameFault?_letters "" ".log.gz" 250 (by decide)
    rw [String.empty_append] at hfault
    rw [backupName_of_afterLastDot hd]
    exact hfault.trans (if_pos (by decide))
  have hget : f.get? "latest.log" = some (.file (.text "line")) := by decide +kernel
  have hrotate : f.rotateAt "latest.log" dest = (some (.astray .tooLong), f) := by
    rw [rotateAt_name hdest, compressAt_name (by decide) (backupName_ne_above dest) (by decide) hget,
      hfault]
  refine ⟨hdest, hnone, hd, ?_, hget, hrotate, ?_⟩
  · intro heq
    have hbytes := congrArg String.utf8ByteSize heq
    rw [String.utf8ByteSize_append, utf8ByteSize_letters] at hbytes
    exact absurd hbytes (by decide)
  · rw [hrotate]
    exact mem_names_iff.2 ⟨_, hget⟩

end Folder
end Archive
end Croupier
