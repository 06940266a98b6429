import Croupier.Proofs.Settings.Sync
import Mathlib.Data.List.Count

/-!
# Croupier.Proofs.Settings.Revocation

Joining and leaving the list of developers. Nobody joins twice, and whoever leaves is taken out
once, so a file that mentions each developer once is needed for a removal to revoke anything.

* `Request.count_change_le`, `Synced.count_after_le`: no request adds a second mention.
* `removal_revokes`: removals and additions after any run of requests.
* `removal_leaves_second_mention`: a file with two mentions of the same developer.
-/

namespace Croupier
namespace Settings

open Numeral

namespace Store

/-- Nobody is mentioned more often after a request than before, unless it is for the first time. -/
theorem Request.count_change_le (r : Request) (s : Settings) (u : Int) :
    (r.change s).developers.count u ≤ max 1 (s.developers.count u) := by
  cases r with
  | addDeveloper id =>
    rw [change]
    split
    · exact Nat.le_max_right 1 _
    · rename_i hid
      rw [List.count_append, List.count_singleton]
      split
      · rename_i heq
        rw [← eq_of_beq heq, List.count_eq_zero_of_not_mem hid]
        exact Nat.le_max_left 1 0
      · exact Nat.le_max_right 1 _
  | removeDeveloper id =>
    exact Nat.le_trans (List.erase_sublist.count_le u) (Nat.le_max_right 1 _)
  | setMaxDice v =>
    have hsame : (change s (.setMaxDice v)).developers = s.developers := by
      rw [change]
      split
      · split <;> rfl
      · rfl
    rw [hsame]
    exact Nat.le_max_right 1 _
  | isDeveloper | developers | reload => exact Nat.le_max_right 1 _

variable {host : Host} {s : Store}

theorem Synced.count_after_le (h : s.Synced host) {rs : List Request} (hrs : ∀ r ∈ rs, r.Short)
    (u : Int) :
    (s.after host rs).settings.developers.count u ≤ max 1 (s.settings.developers.count u) := by
  induction rs generalizing s with
  | nil => exact Nat.le_max_right 1 _
  | cons r rs ih =>
    obtain ⟨hr, hrs⟩ := List.forall_mem_cons.1 hrs
    have hafter := ih (h.serve hr) hrs
    have hstep := r.count_change_le s.settings u
    rw [h.settings_serve r] at hafter
    rw [Store.after]
    omega

theorem save_fault_eq_none_iff (hslot : s.slot ≠ .folder) :
    s.save.fault = none ↔ s.settings.IsWritable := by
  constructor
  · intro h
    by_contra hlong
    rw [save_of_not_isWritable hlong] at h
    cases h
  · intro h
    rw [save_eq hslot h]

theorem Synced.removeDeveloper_fault (h : s.Synced host) (u : Int) :
    (s.removeDeveloper u).fault = none := by
  rw [Store.removeDeveloper]
  split
  · refine (save_fault_eq_none_iff ?_).2 (h.writable.leave u)
    exact h.slot_ne
  · rfl

/-- A new developer is saved, if the number is short enough to be written. -/
theorem Synced.addDeveloper_fault_eq_none_iff (h : s.Synced host) (u : Int) :
    (s.addDeveloper u).fault = none ↔ u ∈ s.settings.developers ∨ isWritable u = true := by
  rw [Store.addDeveloper, isDeveloper]
  simp only [List.contains_iff_mem]
  split
  · rename_i hmem
    exact iff_of_true rfl (.inl hmem)
  · rename_i hmem
    rw [or_iff_right hmem]
    refine (save_fault_eq_none_iff ?_).trans ⟨fun hjoined => ?_, h.writable.join⟩
    · exact h.slot_ne
    · exact hjoined.developers u (List.mem_append_right _ (List.mem_singleton_self u))

theorem isDeveloper_iff {u : Int} :
    s.isDeveloper u = true ↔ 0 < s.settings.developers.count u := by
  rw [isDeveloper, List.contains_iff_mem, List.count_pos_iff]

theorem filter_erase_ne (ids : List Int) (u : Int) :
    (ids.erase u).filter (· ≠ u) = ids.filter (· ≠ u) := by
  induction ids with
  | nil => rfl
  | cons id ids ih =>
    by_cases h : id = u
    · simp [h]
    · rw [List.erase_cons_tail (by simpa using h), List.filter_cons_of_pos (by simpa using h),
        List.filter_cons_of_pos (by simpa using h), ih]

namespace Synced

theorem developers_removeDeveloper (h : s.Synced host) (u : Int) :
    (s.removeDeveloper u).store.settings.developers = s.settings.developers.erase u :=
  congrArg developers (h.settings_serve (.removeDeveloper u))

theorem developers_addDeveloper (h : s.Synced host) (u : Int) :
    (s.addDeveloper u).store.settings.developers =
      if u ∈ s.settings.developers then s.settings.developers
      else s.settings.developers ++ [u] := by
  have hserve := congrArg developers (h.settings_serve (.addDeveloper u))
  rw [Request.change] at hserve
  split <;> rename_i hmem
  · rwa [if_pos hmem] at hserve
  · rwa [if_neg hmem] at hserve

theorem isDeveloper_removeDeveloper (h : s.Synced host) (u : Int) :
    (s.removeDeveloper u).store.isDeveloper u = false ↔ s.settings.developers.count u ≤ 1 := by
  rw [← Bool.not_eq_true, isDeveloper_iff, h.developers_removeDeveloper, List.count_erase_self]
  omega

theorem count_addDeveloper (h : s.Synced host) (u : Int) :
    (s.addDeveloper u).store.settings.developers.count u =
      max 1 (s.settings.developers.count u) := by
  rw [h.developers_addDeveloper]
  split
  · have := List.count_pos_iff.2 ‹u ∈ s.settings.developers›
    omega
  · rw [List.count_append, List.count_eq_zero_of_not_mem ‹_›, List.count_singleton_self]
    rfl

theorem filter_removeDeveloper (h : s.Synced host) (u : Int) :
    (s.removeDeveloper u).store.settings.developers.filter (· ≠ u) =
      s.settings.developers.filter (· ≠ u) := by
  rw [h.developers_removeDeveloper, filter_erase_ne]

theorem filter_addDeveloper (h : s.Synced host) (u : Int) :
    (s.addDeveloper u).store.settings.developers.filter (· ≠ u) =
      s.settings.developers.filter (· ≠ u) := by
  rw [h.developers_addDeveloper]
  split
  · rfl
  · rw [List.filter_append]
    simp

end Synced

/-- What a removal and an addition come to after any requests. Both are done, and a store that
opens the file anew is the one in memory; only a developer whose number is too long to be written
joins in memory alone. A removal takes out one mention of the developer and an addition makes sure
of one, and neither touches the others; so the removal revokes if there was no second mention, and
there is none if the file that was opened first had none. -/
theorem removal_revokes {host : Host} {slot : Slot} {s : Store} {records : List Record}
    (hopen : openAt host (.folder slot) = .ok (s, records)) (hslot : slot ≠ .folder)
    {front : List Request} (hshort : ∀ r ∈ front, r.Short) (u : Int) :
    let ids := (s.after host front).settings.developers
    let removed := (s.after host front).removeDeveloper u
    let added := (s.after host front).addDeveloper u
    (removed.fault = none ∧
      (∃ records, openAt host (.folder removed.store.slot) = .ok (removed.store, records)) ∧
      (removed.store.isDeveloper u = false ↔ ids.count u ≤ 1) ∧
      removed.store.settings.developers.filter (· ≠ u) = ids.filter (· ≠ u)) ∧
    ((added.fault = none ↔ u ∈ ids ∨ isWritable u = true) ∧
      (isWritable u = true →
        ∃ records, openAt host (.folder added.store.slot) = .ok (added.store, records)) ∧
      added.store.isDeveloper u = true ∧
      added.store.settings.developers.count u = max 1 (ids.count u) ∧
      added.store.settings.developers.filter (· ≠ u) = ids.filter (· ≠ u)) ∧
    (s.settings.developers.count u ≤ 1 →
      removed.store.isDeveloper u = false ∧ added.store.settings.developers.count u = 1) := by
  intro ids removed added
  have hstart : s.Synced host := synced_of_openAt hopen hslot
  have hnow : (s.after host front).Synced host := hstart.after hshort
  have hcount : added.store.settings.developers.count u = max 1 (ids.count u) :=
    hnow.count_addDeveloper u
  refine ⟨⟨hnow.removeDeveloper_fault u, (hnow.removeDeveloper u).load_eq,
      hnow.isDeveloper_removeDeveloper u, hnow.filter_removeDeveloper u⟩,
    ⟨hnow.addDeveloper_fault_eq_none_iff u, fun hu => (hnow.addDeveloper hu).load_eq, ?_, hcount,
      hnow.filter_addDeveloper u⟩, fun hfile => ?_⟩
  · rw [isDeveloper_iff, hcount]
    omega
  · have hids : ids.count u ≤ 1 :=
      Nat.le_trans (hstart.count_after_le hshort u) (by omega)
    exact ⟨(hnow.isDeveloper_removeDeveloper u).2 hids, by omega⟩

/-- Two developers on file; after one more has joined and left again, the first can be removed. -/
theorem removal_revokes_joined :
    let settings : Settings := { developers := [7, 8] }
    let s : Store := ⟨settings, .file settings.render.toUTF8⟩
    let front : List Request := [.addDeveloper 9, .removeDeveloper 9]
    openAt .common (.folder s.slot) = .ok (s, []) ∧
      ((s.after .common front).removeDeveloper 7).fault = none ∧
      ((s.after .common front).removeDeveloper 7).store.isDeveloper 7 = false := by
  intro settings s front
  have hopen : openAt .common (.folder s.slot) = .ok (s, []) :=
    openAt_render .common ⟨by decide, by decide, by decide⟩
  have hshort : ∀ r ∈ front, r.Short :=
    List.forall_mem_cons.2 ⟨(by decide : isWritable 9 = true),
      List.forall_mem_cons.2 ⟨trivial, List.forall_mem_nil _⟩⟩
  obtain ⟨⟨hfault, -⟩, -, hfile⟩ := removal_revokes hopen nofun hshort 7
  exact ⟨hopen, hfault, (hfile (by decide)).1⟩

/-- A developer whom the file mentions twice stays a developer after the removal. -/
theorem removal_leaves_second_mention :
    let settings : Settings := { developers := [7, 7] }
    let s : Store := ⟨settings, .file settings.render.toUTF8⟩
    openAt .common (.folder s.slot) = .ok (s, []) ∧ (s.removeDeveloper 7).fault = none ∧
      (s.removeDeveloper 7).store.isDeveloper 7 = true := by
  intro settings s
  have hopen : openAt .common (.folder s.slot) = .ok (s, []) :=
    openAt_render .common ⟨by decide, by decide, by decide⟩
  have hsynced : s.Synced .common := synced_of_openAt hopen nofun
  have hdevelopers : (s.removeDeveloper 7).store.settings.developers = [7] :=
    hsynced.developers_removeDeveloper 7
  refine ⟨hopen, hsynced.removeDeveloper_fault 7, ?_⟩
  rw [isDeveloper, hdevelopers]
  rfl

end Store
end Settings
end Croupier
