import Croupier.Archive.Backup
import Mathlib.Data.List.Nodup

/-!
# Croupier.Proofs.Archive.Pruning

Folders entry by entry: the name of a backup, where a new entry goes, what is found, and what is
left when backups are pruned or a file is compressed.

* `backupName_of_afterLastDot`: what a backup is called.
* `entries_put_last`, `entries_put_replace`, `entries_put_between`: where `put` puts an entry.
* `get?_eq_some_iff`: what is found under a name is the entry of that name.
* `entries_discard`, `entries_prune`: pruning takes the oldest backups and nothing else.
* `discard_at_folder`: deleting stops at the first folder.
-/

namespace Croupier
namespace Archive

/-- The text from behind its last dot on, or all of it if it has none. -/
def AfterLastDot (text d : String) : Prop :=
  '.' ∉ d.toList ∧ (text = d ∨ ∃ front, text = front ++ "." ++ d)

namespace Folder

theorem backupName_of_afterLastDot {text d : String} (h : AfterLastDot text d) :
    backupName text = d ++ ".log.gz" := by
  obtain ⟨hd, htext⟩ := h
  have hsplit : d.toList.splitOn '.' = [d.toList] :=
    List.splitOnP_eq_singleton fun c hc => by
      rw [beq_eq_false_iff_ne]
      exact fun heq => hd (heq ▸ hc)
  have hlast : (text.toList.splitOn '.').getLastD [] = d.toList := by
    rcases htext with rfl | ⟨front, rfl⟩
    · rw [hsplit]
      rfl
    · have hchars : (front ++ "." ++ d).toList = front.toList ++ '.' :: d.toList := by simp
      rw [hchars, List.splitOn_append_cons_self, hsplit, List.getLastD_concat]
  rw [backupName, hlast, String.ofList_toList]

section Insert

variable {name : String} {entry : Entry} {front back : List (String × Entry)}

theorem insertEntry_append (h : ∀ e ∈ front, e.1 < name) :
    insertEntry name entry (front ++ back) = front ++ insertEntry name entry back := by
  induction front with
  | nil => rfl
  | cons e front ih =>
    obtain ⟨he, hfront⟩ := List.forall_mem_cons.1 h
    have hlt : ¬ name < e.1 := fun hlt => String.lt_irrefl _ (String.lt_trans he hlt)
    have hne : name ≠ e.1 := fun heq => String.lt_irrefl _ (heq ▸ he)
    rw [List.cons_append, insertEntry, if_neg hlt, if_neg hne, ih hfront, List.cons_append]

variable {f : Folder}

theorem entries_put (f : Folder) (name : String) (entry : Entry) :
    (f.put name entry).entries = insertEntry name entry f.entries :=
  rfl

theorem entries_put_last (hf : f.entries = front) (h : ∀ e ∈ front, e.1 < name) :
    (f.put name entry).entries = front ++ [(name, entry)] := by
  have hlast : insertEntry name entry (front ++ []) = front ++ insertEntry name entry [] :=
    insertEntry_append h
  rw [List.append_nil] at hlast
  rw [entries_put, hf, hlast, insertEntry]

theorem entries_put_between {other : String × Entry} (hf : f.entries = front ++ other :: back)
    (h : ∀ e ∈ front, e.1 < name) (hother : name < other.1) :
    (f.put name entry).entries = front ++ (name, entry) :: other :: back := by
  rw [entries_put, hf, insertEntry_append h, insertEntry, if_pos hother]

theorem entries_put_replace {old : Entry} (hf : f.entries = front ++ (name, old) :: back)
    (h : ∀ e ∈ front, e.1 < name) :
    (f.put name entry).entries = front ++ (name, entry) :: back := by
  rw [entries_put, hf, insertEntry_append h, insertEntry, if_neg (String.lt_irrefl name), if_pos rfl]

end Insert

section Find

variable {f : Folder} {name : String} {entry : Entry}

theorem mem_of_get? (h : f.get? name = some entry) : (name, entry) ∈ f.entries := by
  obtain ⟨e, he, rfl⟩ := Option.map_eq_some_iff.1 h
  have hname : e.1 = name := by simpa using List.find?_some he
  rw [← hname]
  exact List.mem_of_find?_eq_some he

theorem get?_of_append {front back : List (String × Entry)}
    (hf : f.entries = front ++ (name, entry) :: back) (h : ∀ e ∈ front, e.1 < name) :
    f.get? name = some entry := by
  have hfront : front.find? (fun e => e.1 == name) = none := by
    rw [List.find?_eq_none]
    intro e he heq
    exact String.lt_irrefl name (eq_of_beq heq ▸ h e he)
  rw [get?, hf, List.find?_append, hfront]
  simp

theorem get?_eq_none (h : name ∉ f.names) : f.get? name = none := by
  rw [get?, Option.map_eq_none_iff, List.find?_eq_none]
  intro e he heq
  exact h (eq_of_beq heq ▸ List.mem_map_of_mem he)

/-- An entry stands behind those with smaller names. -/
theorem get?_eq_some_iff : f.get? name = some entry ↔ (name, entry) ∈ f.entries := by
  refine ⟨mem_of_get?, fun hmem => ?_⟩
  obtain ⟨front, back, hf⟩ := List.append_of_mem hmem
  refine get?_of_append hf fun e he => ?_
  have hsorted := f.sorted
  rw [hf, List.map_append, List.pairwise_append] at hsorted
  exact hsorted.2.2 _ (List.mem_map_of_mem he) _ (by simp)

end Find

theorem mem_names_iff {f : Folder} {name : String} :
    name ∈ f.names ↔ ∃ entry, f.get? name = some entry := by
  simp [names, get?_eq_some_iff]

theorem entries_remove (f : Folder) (name : String) :
    (f.remove name).entries = f.entries.filter fun e => e.1 != name :=
  rfl

/-! ## Folders made from others -/

section Made

variable {f g : Folder} {name n : String} {entry : Entry}

theorem get?_put_of_ne (h : n ≠ name) : (f.put name entry).get? n = f.get? n := by
  have key : ∀ entries : List (String × Entry),
      ((insertEntry name entry entries).find? fun e => e.1 == n) =
        entries.find? fun e => e.1 == n := by
    intro entries
    induction entries with
    | nil => simp [insertEntry, h.symm]
    | cons other rest ih =>
      by_cases hlt : name < other.1
      · simp [insertEntry, hlt, h.symm]
      · by_cases he : name = other.1
        · have hother : other.1 ≠ n := he ▸ h.symm
          simp [insertEntry, he, hother]
        · simp [insertEntry, hlt, he, List.find?_cons, ih]
  rw [get?, get?, entries_put, key]

/-- What is kept under a condition on names is found under these names. -/
theorem get?_of_filter {p : String → Prop} [DecidablePred p]
    (h : g.entries = f.entries.filter fun e => decide (p e.1)) (n : String) :
    g.get? n = if p n then f.get? n else none := by
  by_cases hn : p n
  · rw [if_pos hn, get?, get?, h, List.find?_filter]
    congr 2
    funext e
    by_cases he : e.1 = n
    · simp [he, hn]
    · simp [he]
  · rw [if_neg hn, get?_eq_none]
    intro hmem
    obtain ⟨e, he, rfl⟩ := List.mem_map.1 hmem
    rw [h] at he
    exact hn (of_decide_eq_true (List.mem_filter.1 he).2)

theorem get?_remove (f : Folder) (name n : String) :
    (f.remove name).get? n = if n ≠ name then f.get? n else none := by
  refine get?_of_filter (p := (· ≠ name)) ?_ n
  rw [entries_remove]
  refine List.filter_congr fun e _ => ?_
  by_cases he : e.1 = name <;> simp [he]

end Made

theorem nodup_names (f : Folder) : f.names.Nodup := by
  refine List.Pairwise.imp ?_ f.sorted
  intro m n hlt heq
  exact String.lt_irrefl n (heq ▸ hlt)

/-! ## Pruning -/

/-- Unless one of them is a folder, all the files are deleted, and nothing else. -/
theorem entries_discard {names : List String} {f : Folder}
    (h : ∀ e ∈ f.entries, e.1 ∈ names → e.2 ≠ .folder) :
    (f.discard names).1 = none ∧
      (f.discard names).2.entries = f.entries.filter fun e => decide (e.1 ∉ names) := by
  induction names generalizing f with
  | nil => simp [discard]
  | cons name names ih =>
    have hget : f.get? name ≠ some .folder := fun hget =>
      h _ (mem_of_get? hget) List.mem_cons_self rfl
    have hstep : f.discard (name :: names) = (f.remove name).discard names := by
      rw [discard]
      split
      · exact absurd ‹_› hget
      · rfl
    have hremove : ∀ e ∈ (f.remove name).entries, e.1 ∈ names → e.2 ≠ .folder := by
      intro e he hmem
      exact h e (List.mem_of_mem_filter he) (List.mem_cons_of_mem name hmem)
    obtain ⟨hnone, hentries⟩ := ih hremove
    rw [hstep]
    refine ⟨hnone, ?_⟩
    rw [hentries, entries_remove, List.filter_filter]
    refine List.filter_congr fun e _ => ?_
    by_cases he : e.1 = name <;> simp [he]

theorem discard_cons_of_folder {name : String} {names : List String} {f : Folder}
    (h : f.get? name = some .folder) : f.discard (name :: names) = (some .isFolder, f) := by
  rw [discard, h]

theorem discard_append {names : List String} {f : Folder} (h : (f.discard names).1 = none)
    (names' : List String) : f.discard (names ++ names') = (f.discard names).2.discard names' := by
  induction names generalizing f with
  | nil => rfl
  | cons name names ih =>
    rw [List.cons_append, discard, discard]
    rw [discard] at h
    split
    · rename_i hfolder
      simp [hfolder] at h
    · rename_i hfolder
      simp only at h
      exact ih h

/-- The files in front of the first folder are deleted, and nothing else. -/
theorem discard_at_folder {names : List String} {first : String} {f : Folder}
    (h : ∀ e ∈ f.entries, e.1 ∈ names → e.2 ≠ .folder) (hfirst : f.get? first = some .folder)
    (names' : List String) :
    (f.discard (names ++ first :: names')).1 = some .isFolder ∧
      (f.discard (names ++ first :: names')).2.entries =
        f.entries.filter fun e => decide (e.1 ∉ names) := by
  obtain ⟨hnone, hentries⟩ := entries_discard h
  have hstays : (f.discard names).2.get? first = some .folder := by
    rw [get?_eq_some_iff] at hfirst ⊢
    rw [hentries, List.mem_filter]
    exact ⟨hfirst, decide_eq_true fun hmem => h _ hfirst hmem rfl⟩
  rw [discard_append hnone, discard_cons_of_folder hstays]
  exact ⟨rfl, hentries⟩

/-- The oldest backups go, so many that no more than `keep` are left. -/
theorem entries_prune {keep : Int} {f : Folder}
    (h : ∀ e ∈ f.entries, isBackupName e.1 = true → e.2 ≠ .folder) :
    (f.prune keep).1 = none ∧
      (f.prune keep).2.entries =
        f.entries.filter fun e => decide (e.1 ∉ f.backups.take (f.backups.length - keep).toNat) := by
  refine entries_discard fun e he hmem => h e he ?_
  exact (List.mem_filter.1 (List.mem_of_mem_take hmem)).2

theorem filter_notMem_take {entries : List (String × Entry)} (h : (entries.map (·.1)).Nodup)
    (k : Nat) :
    (entries.filter fun e => decide (e.1 ∉ (entries.map (·.1)).take k)) = entries.drop k := by
  induction entries generalizing k with
  | nil => rw [List.drop_nil, List.filter_nil]
  | cons e entries ih =>
    obtain ⟨he, hentries⟩ := List.nodup_cons.1 h
    cases k with
    | zero => simp
    | succ k =>
      rw [List.drop_succ_cons, ← ih hentries k, List.map_cons, List.take_succ_cons,
        List.filter_cons_of_neg (by simp)]
      refine List.filter_congr fun e' he' => ?_
      have hne : e'.1 ≠ e.1 := fun heq => he (List.mem_map.2 ⟨e', he', heq⟩)
      simp [hne]

/-- In a folder of nothing but backups, the newest stay. -/
theorem entries_prune_of_backups {keep : Nat} {f : Folder}
    (h : ∀ e ∈ f.entries, isBackupName e.1 = true ∧ e.2 ≠ .folder) :
    (f.prune keep).2.entries = f.entries.drop (f.entries.length - keep) := by
  have hbackups : f.backups = f.entries.map (·.1) := by
    refine List.filter_eq_self.2 fun name hname => ?_
    obtain ⟨e, he, rfl⟩ := List.mem_map.1 hname
    exact (h e he).1
  rw [(entries_prune fun e he _ => (h e he).2).2, hbackups, List.length_map,
    filter_notMem_take f.nodup_names]
  congr 1
  omega

end Folder
end Archive
end Croupier
