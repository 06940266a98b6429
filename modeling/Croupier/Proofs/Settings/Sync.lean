import Croupier.Proofs.Settings.Written
import Croupier.Settings.Store

/-!
# Croupier.Proofs.Settings.Sync

The settings in memory and those on file never come apart, as long as nobody else touches the
file. A store is `Synced` when opening its file anew gives the same store; every request keeps it
so.

* `Synced.serve`: one request.
* `memory_matches_file`: any run of requests, and a reload anywhere in it.
-/

namespace Croupier
namespace Settings

open Numeral

namespace Store

/-- What the bot asks of its store. Whoever gets the list of developers may change their copy. -/
inductive Request where
  | addDeveloper (id : Int)
  | removeDeveloper (id : Int)
  | isDeveloper (id : Int)
  | developers (edit : List Int → List Int)
  | setMaxDice (v : Json)
  | reload

inductive Answer where
  | done
  | verdict (b : Bool)
  | developers (ids : List Int)
  deriving DecidableEq, Repr

def serve (host : Host) (s : Store) : Request → Turn × Answer
  | .addDeveloper id => (s.step host (.addDeveloper id), .done)
  | .removeDeveloper id => (s.step host (.removeDeveloper id), .done)
  | .isDeveloper id => ({ store := s }, .verdict (s.isDeveloper id))
  | .developers edit => ({ store := s }, .developers (edit s.settings.developers))
  | .setMaxDice v => (s.step host (.setMaxDice v), .done)
  | .reload => (s.step host .reload, .done)

/-- The turns of a run of requests, each with the store after it. -/
def run (host : Host) (s : Store) : List Request → List (Turn × Answer)
  | [] => []
  | r :: rs => s.serve host r :: run host (s.serve host r).1.store rs

def after (host : Host) (s : Store) : List Request → Store
  | [] => s
  | r :: rs => after host (s.serve host r).1.store rs

/-- What a request makes of the settings. -/
def Request.change (s : Settings) : Request → Settings
  | .addDeveloper id =>
    if id ∈ s.developers then s else { s with developers := s.developers ++ [id] }
  | .removeDeveloper id => { s with developers := s.developers.erase id }
  | .setMaxDice v =>
    match v.toInt with
    | .ok n => if 1 ≤ n then { s with maxDice := n } else s
    | .error _ => s
  | .isDeveloper _ | .developers _ | .reload => s

/-- What a request brings in can be written. -/
def Request.Short : Request → Prop
  | .addDeveloper id => isWritable id = true
  | .setMaxDice v => v.Short
  | .removeDeveloper _ | .isDeveloper _ | .developers _ | .reload => True

/-- The file can be written, and opening it gives the store that is in memory. -/
structure Synced (host : Host) (s : Store) : Prop where
  slot_ne : s.slot ≠ .folder
  writable : s.settings.IsWritable
  load_eq : ∃ records, load host s.slot = .ok (s, records)

variable {host : Host} {s : Store}

/-! ## Opening and saving -/

theorem of_load {slot : Slot} {records : List Record}
    (h : load host slot = .ok (s, records)) : s.slot = slot ∧ s.settings.IsWritable := by
  cases slot with
  | absent => cases h; exact ⟨rfl, isWritable_default⟩
  | folder => cases h; exact ⟨rfl, isWritable_default⟩
  | file content =>
    rw [load] at h
    split at h
    · rename_i settings hread
      cases h
      exact ⟨rfl, isWritable_of_ofBytes hread⟩
    · cases h
    · cases h
    · cases h
      exact ⟨rfl, isWritable_default⟩

theorem synced_of_openAt {slot : Slot} {records : List Record}
    (h : openAt host (.folder slot) = .ok (s, records)) (hslot : slot ≠ .folder) :
    s.Synced host := by
  obtain ⟨rfl, hwritable⟩ := of_load h
  exact ⟨hslot, hwritable, records, h⟩

/-- Settings as they are written are read back. -/
theorem openAt_render (host : Host) {settings : Settings} (h : settings.IsWritable) :
    openAt host (.folder (.file settings.render.toUTF8)) =
      .ok (⟨settings, .file settings.render.toUTF8⟩, []) := by
  rw [openAt, load, ofBytes_render h host.two_le_nesting]

theorem save_eq (hslot : s.slot ≠ .folder) (h : s.settings.IsWritable) :
    s.save = {
      store := { s with slot := .file s.settings.render.toUTF8 }
      records := [.info "全域設定已儲存"] } := by
  rw [save, if_pos h]
  split
  · rename_i hfolder
    exact absurd hfolder hslot
  · rfl

/-- What cannot be written is in memory all the same. -/
theorem save_of_not_isWritable (h : ¬ s.settings.IsWritable) :
    s.save = { store := s, fault := some .unwritable } :=
  if_neg h

theorem save_settings (s : Store) : s.save.store.settings = s.settings := by
  rw [save]
  split
  · split <;> rfl
  · rfl

theorem synced_save (hslot : s.slot ≠ .folder) (h : s.settings.IsWritable) :
    s.save.store.Synced host := by
  rw [save_eq hslot h]
  refine ⟨fun hfile => (by cases hfile), h, [], ?_⟩
  simp only [load]
  rw [ofBytes_render h host.two_le_nesting]

/-! ## Requests -/

namespace Synced

theorem addDeveloper (h : s.Synced host) {id : Int} (hid : isWritable id = true) :
    (s.addDeveloper id).store.Synced host := by
  rw [Store.addDeveloper]
  split
  · exact h
  · exact synced_save h.slot_ne (h.writable.join hid)

theorem removeDeveloper (h : s.Synced host) (id : Int) : (s.removeDeveloper id).store.Synced host := by
  rw [Store.removeDeveloper]
  split
  · exact synced_save h.slot_ne (h.writable.leave id)
  · exact h

theorem setMaxDiceTo (h : s.Synced host) {v : Json} (hv : v.Short) :
    (s.setMaxDiceTo v).store.Synced host := by
  rw [Store.setMaxDiceTo]
  split
  · exact h
  · rename_i n hn
    rw [setMaxDice]
    split
    · exact h
    · exact synced_save h.slot_ne (h.writable.cap (hv.isWritable hn))

/-- Opening the file again is no change. -/
theorem reload (h : s.Synced host) : (s.step host .reload).store = s ∧ (s.step host .reload).fault = none := by
  obtain ⟨records, hload⟩ := h.load_eq
  rw [step, hload]
  exact ⟨rfl, rfl⟩

theorem serve (h : s.Synced host) {r : Request} (hr : r.Short) : (s.serve host r).1.store.Synced host := by
  cases r with
  | addDeveloper id => exact h.addDeveloper hr
  | removeDeveloper id => exact h.removeDeveloper id
  | isDeveloper id => exact h
  | developers edit => exact h
  | setMaxDice v => exact h.setMaxDiceTo hr
  | reload =>
    change (s.step host .reload).store.Synced host
    rw [h.reload.1]
    exact h

theorem settings_serve (h : s.Synced host) (r : Request) :
    (s.serve host r).1.store.settings = r.change s.settings := by
  cases r with
  | addDeveloper id =>
    change (s.addDeveloper id).store.settings = _
    simp only [Store.addDeveloper, Store.isDeveloper, List.contains_iff_mem, Request.change]
    split
    · rfl
    · rw [save_settings]
  | removeDeveloper id =>
    change (s.removeDeveloper id).store.settings = _
    simp only [Store.removeDeveloper, Store.isDeveloper, List.contains_iff_mem, Request.change]
    split
    · rw [save_settings]
    · rw [List.erase_of_not_mem ‹_›]
  | setMaxDice v =>
    change (s.setMaxDiceTo v).store.settings = _
    rw [Store.setMaxDiceTo, Request.change]
    cases hv : v.toInt with
    | error e => rfl
    | ok n =>
      simp only [setMaxDice]
      by_cases hone : n < 1
      · rw [if_pos hone, if_neg (by omega)]
      · rw [if_neg hone, if_pos (by omega), save_settings]
  | reload =>
    change (s.step host .reload).store.settings = _
    rw [h.reload.1]
    rfl
  | isDeveloper | developers => rfl

theorem after (h : s.Synced host) {rs : List Request} (hrs : ∀ r ∈ rs, r.Short) :
    (s.after host rs).Synced host := by
  induction rs generalizing s with
  | nil => exact h
  | cons r rs ih =>
    obtain ⟨hr, hrs⟩ := List.forall_mem_cons.1 hrs
    exact ih (h.serve hr) hrs

theorem settings_after (h : s.Synced host) {rs : List Request} (hrs : ∀ r ∈ rs, r.Short) :
    (s.after host rs).settings = rs.foldl Request.change s.settings := by
  induction rs generalizing s with
  | nil => rfl
  | cons r rs ih =>
    obtain ⟨hr, hrs⟩ := List.forall_mem_cons.1 hrs
    rw [List.foldl_cons, ← h.settings_serve r]
    exact ih (h.serve hr) hrs

end Synced

theorem run_append (front back : List Request) :
    s.run host (front ++ back) = s.run host front ++ (s.after host front).run host back := by
  induction front generalizing s with
  | nil => rfl
  | cons r rs ih => rw [List.cons_append, run, ih, run, after, List.cons_append]

/-- After any requests, the settings are what the requests made of them, and opening the file anew
gives the store that is in memory; so all that follows is the same, store by store and answer by
answer, with a reload in between. -/
theorem memory_matches_file {host : Host} {slot : Slot} {s : Store} {records : List Record}
    (hopen : openAt host (.folder slot) = .ok (s, records)) (hslot : slot ≠ .folder)
    {front : List Request} (hshort : ∀ r ∈ front, r.Short) (back : List Request) :
    (s.after host front).settings = front.foldl Request.change s.settings ∧
      (∃ records, openAt host (.folder (s.after host front).slot) =
        .ok (s.after host front, records)) ∧
      s.run host (front ++ back) = s.run host front ++ (s.after host front).run host back ∧
      ∃ reloaded, reloaded.store = s.after host front ∧ reloaded.fault = none ∧
        s.run host (front ++ .reload :: back) =
          s.run host front ++ (reloaded, .done) :: (s.after host front).run host back := by
  have hstart : s.Synced host := synced_of_openAt hopen hslot
  have hsynced : (s.after host front).Synced host := hstart.after hshort
  obtain ⟨hstore, hfault⟩ := hsynced.reload
  refine ⟨hstart.settings_after hshort, hsynced.load_eq, run_append front back, _, hstore,
    hfault, ?_⟩
  rw [run_append, run]
  change _ ++ (_ :: ((s.after host front).step host .reload).store.run host back) = _
  rw [hstore]
  rfl

/-- From a file that says nothing, past a cap that is refused. -/
theorem memory_matches_file_empty :
    let host := Host.common
    let s : Store := ⟨{}, .file "\x7b\x7d".toUTF8⟩
    let front : List Request := [.addDeveloper 5, .setMaxDice .nan]
    openAt host (.folder (.file "\x7b\x7d".toUTF8)) = .ok (s, []) ∧
      (s.after host front).settings = { developers := [5] } ∧
      ∃ records, openAt host (.folder (s.after host front).slot) =
        .ok (s.after host front, records) := by
  intro host s front
  have hjson : Json.ofString host.nesting "\x7b\x7d" = .ok (.object []) := rfl
  have hread : ofBytes host.nesting "\x7b\x7d".toUTF8 = .ok {} := by
    rw [ofBytes_toUTF8 hjson]
    rfl
  have hopen : openAt host (.folder (.file "\x7b\x7d".toUTF8)) = .ok (s, []) := by
    simp only [openAt, load, hread]
    rfl
  have hshort : ∀ r ∈ front, r.Short :=
    List.forall_mem_cons.2 ⟨rfl, List.forall_mem_cons.2 ⟨.nan, List.forall_mem_nil _⟩⟩
  obtain ⟨hsettings, hfresh, -⟩ := memory_matches_file hopen (fun h => (by cases h)) hshort []
  exact ⟨hopen, hsettings, hfresh⟩

end Store
end Settings
end Croupier
