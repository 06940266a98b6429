import Croupier.Office
import Croupier.Proofs.Settings.Sync

/-!
# Croupier.Proofs.Settings.Atomic

Setting the cap is all or nothing, as long as the settings can be written then. Either the cap
becomes the number that the value stands for, in memory and on file, or the request is refused
before anything has happened; only with a number that is too long for the file the cap is set in
memory and the request fails after it. This holds of every store, and so of those that were opened
and have been through events since, of the bot and from outside.

* `Reachable.isWritable`: what such a store holds can be written.
* `setMaxDiceTo_cases`: the three ways a request goes.
* `Office.capText_mem_iff`: what a developer is told.
* `setMaxDice_atomic`: any value, and the command.
-/

namespace Croupier
namespace Settings

open Numeral

namespace Store

/-- What an event brings in can be written. -/
def Event.Short : Event → Prop
  | .addDeveloper id => isWritable id = true
  | .setMaxDice v => v.Short
  | .removeDeveloper _ | .overwrite _ | .delete | .reload => True

/-- A store that was opened, after any events. -/
inductive Reachable (host : Host) : Store → Prop
  | opened {site : Site} {s : Store} {records : List Record} :
      openAt host site = .ok (s, records) → Reachable host s
  | step {s : Store} {e : Event} :
      Reachable host s → e.Short → Reachable host (s.step host e).store

/-- Why a value is refused as a cap. -/
inductive RefusedAs (v : Json) : Fault → Prop
  | notInteger {e : Json.NotInteger} : v.toInt = .error e → RefusedAs v (.notInteger e)
  | belowOne {n : Int} : v.toInt = .ok n → n < 1 → RefusedAs v (.belowOne .diceCap)

variable {host : Host} {s : Store}

/-! ## What a store holds -/

theorem isWritable_step {e : Event} (hs : s.settings.IsWritable) (he : e.Short) :
    (s.step host e).store.settings.IsWritable := by
  cases e with
  | addDeveloper id =>
    rw [step, addDeveloper]
    split
    · exact hs
    · rw [save_settings]
      exact hs.join he
  | removeDeveloper id =>
    rw [step, removeDeveloper]
    split
    · rw [save_settings]
      exact hs.leave id
    · exact hs
  | setMaxDice v =>
    rw [step, setMaxDiceTo]
    split
    · exact hs
    · rename_i n hn
      rw [setMaxDice]
      split
      · exact hs
      · rw [save_settings]
        exact hs.cap (he.isWritable hn)
  | overwrite content =>
    rw [step]
    split <;> exact hs
  | delete =>
    rw [step]
    split <;> exact hs
  | reload =>
    rw [step]
    split
    · rename_i hload
      exact (of_load hload).2
    · exact hs

theorem Reachable.isWritable (h : s.Reachable host) : s.settings.IsWritable := by
  induction h with
  | @opened site _ _ hopen =>
    cases site with
    | obstructed => cases hopen
    | folder slot => exact (of_load hopen).2
  | step _ he ih => exact isWritable_step ih he

/-! ## One request -/

/-- The store with another cap, in memory alone. -/
def capped (s : Store) (n : Int) : Store :=
  { s with settings := { s.settings with maxDice := n } }

/-- The store with another cap, saved. -/
def withCap (s : Store) (n : Int) : Store :=
  { s.capped n with slot := .file (s.capped n).settings.render.toUTF8 }

theorem isWritable_capped (hs : s.settings.IsWritable) (n : Int) :
    (s.capped n).settings.IsWritable ↔ isWritable n = true :=
  ⟨fun h => h.maxDice, hs.cap⟩

theorem setMaxDice_of_isWritable (hslot : s.slot ≠ .folder) {n : Int} (hn : 1 ≤ n)
    (hwritable : (s.capped n).settings.IsWritable) :
    s.setMaxDice n = { store := s.withCap n, records := [.info "全域設定已儲存"] } := by
  rw [setMaxDice, if_neg (by omega)]
  exact save_eq (s := s.capped n) hslot hwritable

theorem setMaxDice_of_not_isWritable {n : Int} (hn : 1 ≤ n)
    (hlong : ¬ (s.capped n).settings.IsWritable) :
    s.setMaxDice n = { store := s.capped n, fault := some .unwritable } := by
  rw [setMaxDice, if_neg (by omega)]
  exact save_of_not_isWritable hlong

theorem setMaxDice_of_lt {n : Int} (hn : n < 1) :
    s.setMaxDice n = { store := s, fault := some (.belowOne .diceCap) } :=
  if_pos hn

theorem reload_withCap {n : Int} (hwritable : (s.capped n).settings.IsWritable) :
    (s.withCap n).step host .reload = { store := s.withCap n } := by
  have hread := ofBytes_render hwritable host.two_le_nesting
  simp only [step, withCap, load, hread]

/-- The cap is set and saved, or refused, or set in memory alone. -/
theorem setMaxDiceTo_cases (hslot : s.slot ≠ .folder) (v : Json) :
    (∃ n, v.toInt = .ok n ∧ 1 ≤ n ∧ (s.capped n).settings.IsWritable ∧
        s.setMaxDiceTo v = { store := s.withCap n, records := [.info "全域設定已儲存"] }) ∨
      (∃ f, RefusedAs v f ∧ s.setMaxDiceTo v = { store := s, fault := some f }) ∨
      ∃ n, v.toInt = .ok n ∧ 1 ≤ n ∧ ¬ (s.capped n).settings.IsWritable ∧
        s.setMaxDiceTo v = { store := s.capped n, fault := some .unwritable } := by
  simp only [setMaxDiceTo]
  cases h : v.toInt with
  | error e => exact .inr (.inl ⟨_, .notInteger h, rfl⟩)
  | ok n =>
    by_cases hn : n < 1
    · exact .inr (.inl ⟨_, .belowOne h hn, setMaxDice_of_lt hn⟩)
    have hone : 1 ≤ n := by omega
    by_cases hwritable : (s.capped n).settings.IsWritable
    · exact .inl ⟨n, rfl, hone, hwritable, setMaxDice_of_isWritable hslot hone hwritable⟩
    · exact .inr (.inr ⟨n, rfl, hone, hwritable, setMaxDice_of_not_isWritable hone hwritable⟩)

end Store
end Settings

open Settings

/-! ## The command -/

namespace Office

section Words

variable {n : Int}

theorem star_mem_capText (n : Int) : '*' ∈ (capText n).toList := by
  -- the equation of `capText`, which `rw` would build, takes long for a text that is not ASCII
  delta capText
  rw [String.toList_append]
  exact List.mem_append_right _ (by decide)

theorem capText_ne_belowOne : capText n ≠ Quantity.diceCap.belowOne := by
  intro h
  have hstar := star_mem_capText n
  rw [h] at hstar
  exact absurd hstar (by decide)

theorem capText_ne_unwritable : capText n ≠ Numeral.unwritable := by
  intro h
  have hstar := star_mem_capText n
  rw [h] at hstar
  exact absurd hstar (by decide +kernel)

end Words

variable {o : Office} {caller : Caller} {n : Int}

theorem step_setMaxDice (h : o.isAuthorised caller.id = true) :
    o.step (.command caller (.setMaxDice n)) = o.perform caller (.setMaxDice n) :=
  if_pos h

theorem perform_of_isWritable (hslot : o.store.slot ≠ .folder) (hn : 1 ≤ n)
    (hwritable : (o.store.capped n).settings.IsWritable) :
    o.perform caller (.setMaxDice n) =
      ({ posts := [.reply (capText n)], records := [.info "全域設定已儲存"] },
        { o with store := o.store.withCap n }) := by
  have hshort : ∀ m ∈ [n], Numeral.isWritable m = true :=
    List.forall_mem_singleton.2 hwritable.maxDice
  simp only [perform, Store.setMaxDice_of_isWritable hslot hn hwritable, change, sayOf,
    Numeral.writing?_of_forall hshort]
  rfl

theorem perform_of_lt (hn : n < 1) :
    o.perform caller (.setMaxDice n) = (say Quantity.diceCap.belowOne, o) := by
  simp only [perform, Store.setMaxDice_of_lt hn]

theorem perform_of_not_isWritable (hn : 1 ≤ n)
    (hlong : ¬ (o.store.capped n).settings.IsWritable) :
    o.perform caller (.setMaxDice n) =
      (say Numeral.unwritable, { o with store := o.store.capped n }) := by
  simp only [perform, Store.setMaxDice_of_not_isWritable hn hlong]

/-- There is word of success just if the cap was set and saved. -/
theorem capText_mem_iff (hslot : o.store.slot ≠ .folder) :
    .reply (capText n) ∈ (o.perform caller (.setMaxDice n)).1.posts ↔
      1 ≤ n ∧ (o.store.capped n).settings.IsWritable := by
  by_cases hone : 1 ≤ n
  · by_cases hwritable : (o.store.capped n).settings.IsWritable
    · rw [perform_of_isWritable hslot hone hwritable]
      exact iff_of_true List.mem_cons_self ⟨hone, hwritable⟩
    · rw [perform_of_not_isWritable hone hwritable]
      refine iff_of_false ?_ fun h => hwritable h.2
      simpa [say] using capText_ne_unwritable
  · rw [perform_of_lt (by omega)]
    refine iff_of_false ?_ fun h => hone h.1
    simpa [say] using capText_ne_belowOne

end Office

namespace Settings
namespace Store

open Numeral

/-- Either the value stands for a number from one upwards, which becomes the cap, is saved and is
what a reload reads, and nothing else changes; or the request breaks off and leaves memory, file
and records alone; or the number makes settings that are too long for the file, and is in memory
when the request breaks off, but leaves file and records alone. In a store that was opened and has
been through events since, the last way takes a number that is itself too long to be written, and so
no value that a file can hold. A developer who asks for a cap is told of the success just when it
has been set and saved, and of the error otherwise. -/
theorem setMaxDice_atomic (host : Host) {s : Store} (hslot : s.slot ≠ .folder) :
    (s.Reachable host → ∀ n, (s.capped n).settings.IsWritable ↔ isWritable n = true) ∧
    (∀ v : Json,
      (∃ n, v.toInt = .ok n ∧ 1 ≤ n ∧ (s.capped n).settings.IsWritable ∧
          s.step host (.setMaxDice v) =
            { store := s.withCap n, records := [.info "全域設定已儲存"] } ∧
          (s.withCap n).step host .reload = { store := s.withCap n }) ∨
        (∃ f, RefusedAs v f ∧ s.step host (.setMaxDice v) = { store := s, fault := some f }) ∨
        ∃ n, v.toInt = .ok n ∧ 1 ≤ n ∧ ¬ (s.capped n).settings.IsWritable ∧
          ¬ (s.Reachable host ∧ v.Short) ∧
          s.step host (.setMaxDice v) = { store := s.capped n, fault := some .unwritable }) ∧
    ∀ (o : Office) (caller : Caller) (n : Int), o.store = s → o.isAuthorised caller.id = true →
      let answer := o.step (.command caller (.setMaxDice n))
      (1 ≤ n → (s.capped n).settings.IsWritable →
        answer = ({ posts := [.reply (Office.capText n)], records := [.info "全域設定已儲存"] },
          { o with store := s.withCap n }) ∧
        (s.withCap n).step host .reload = { store := s.withCap n }) ∧
      (n < 1 → answer = (Office.say Quantity.diceCap.belowOne, o)) ∧
      (1 ≤ n → ¬ (s.capped n).settings.IsWritable →
        answer = (Office.say unwritable, { o with store := s.capped n })) ∧
      (.reply (Office.capText n) ∈ answer.1.posts ↔ 1 ≤ n ∧ (s.capped n).settings.IsWritable) ∧
      ((s.capped n).settings.IsWritable → s.settings.maxDice ≠ n →
        (.reply (Office.capText n) ∈ answer.1.posts ↔ answer.2.store.settings.maxDice = n)) := by
  refine ⟨fun hs n => isWritable_capped hs.isWritable n, fun v => ?_, ?_⟩
  · rcases setMaxDiceTo_cases hslot v with ⟨n, hn, hone, hwritable, hset⟩ | hrefused |
      ⟨n, hn, hone, hlong, hset⟩
    · exact .inl ⟨n, hn, hone, hwritable, hset, reload_withCap hwritable⟩
    · exact .inr (.inl hrefused)
    · refine .inr (.inr ⟨n, hn, hone, hlong, fun h => hlong ?_, hset⟩)
      exact (isWritable_capped h.1.isWritable n).2 (h.2.isWritable hn)
  · rintro o caller n rfl hcaller answer
    have hperform : answer = o.perform caller (.setMaxDice n) := Office.step_setMaxDice hcaller
    have htold := @Office.capText_mem_iff o caller n hslot
    rw [hperform]
    refine ⟨fun hone hwritable => ?_, Office.perform_of_lt, Office.perform_of_not_isWritable, htold,
      fun hwritable hother => ?_⟩
    · exact ⟨Office.perform_of_isWritable hslot hone hwritable, reload_withCap hwritable⟩
    · rw [htold, and_iff_left hwritable]
      by_cases hone : 1 ≤ n
      · rw [Office.perform_of_isWritable hslot hone hwritable]
        exact iff_of_true hone rfl
      · rw [Office.perform_of_lt (by omega)]
        exact iff_of_false hone hother

/-- Digits between blanks, and a cap of zero asked for by the owner. -/
theorem setMaxDice_atomic_text :
    let s : Store := ⟨{}, .absent⟩
    let o : Office := { owner := some 1, store := s }
    s.slot ≠ .folder ∧ s.Reachable .common ∧
      s.step .common (.setMaxDice (.string " +1_2\n")) =
        { store := s.withCap 12, records := [.info "全域設定已儲存"] } ∧
      (s.withCap 12).step .common .reload = { store := s.withCap 12 } ∧
      o.step (.command ⟨1, "owner"⟩ (.setMaxDice 0)) =
        (Office.say Quantity.diceCap.belowOne, o) := by
  intro s o
  have hslot : s.slot ≠ .folder := nofun
  have hopen : openAt .common (.folder .absent) = .ok (s, []) := rfl
  have hs : s.Reachable .common := .opened hopen
  have hread : (Json.string " +1_2\n").toInt = .ok 12 := rfl
  obtain ⟨hcapped, hset, hcommand⟩ := setMaxDice_atomic .common hslot
  obtain ⟨-, hzero, -⟩ := hcommand o ⟨1, "owner"⟩ 0 rfl (by decide)
  rcases hset (.string " +1_2\n") with ⟨n, hn, -, -, hstep, hreload⟩ | ⟨f, hf, -⟩ |
    ⟨n, hn, -, hlong, -⟩
  · rw [hread] at hn
    cases hn
    exact ⟨hslot, hs, hstep, hreload, hzero (by decide)⟩
  · cases hf with
    | notInteger he => rw [hread] at he; cases he
    | belowOne hn hlt => rw [hread] at hn; cases hn; exact absurd hlt (by decide)
  · rw [hread] at hn
    cases hn
    exact absurd ((hcapped hs 12).2 (by decide)) hlong

/-- A store whose file says zero refuses a cap of zero, so there is no word of success although the
cap is what was asked for. And a number of 4301 digits is the cap in memory after a request that
failed, but not on file. -/
theorem setMaxDice_not_atomic :
    let zero : Settings := { maxDice := 0 }
    let o : Office := { owner := some 1, store := ⟨zero, .file zero.render.toUTF8⟩ }
    let answer := o.step (.command ⟨1, "owner"⟩ (.setMaxDice 0))
    let s : Store := ⟨{}, .absent⟩
    let turn := s.step .common (.setMaxDice (.int (Nat.pow 10 maxDigits : Nat)))
    o.store.Reachable .common ∧ answer.2.store.settings.maxDice = 0 ∧
      .reply (Office.capText 0) ∉ answer.1.posts ∧
      s.Reachable .common ∧ turn.fault = some .unwritable ∧
      turn.store.settings.maxDice = (Nat.pow 10 maxDigits : Nat) ∧
      turn.store.settings ≠ s.settings ∧ turn.store.slot = s.slot := by
  intro zero o answer s turn
  have hzero : o.store.Reachable .common :=
    .opened (openAt_render .common ⟨by decide, by decide, by decide⟩)
  have hopen : openAt .common (.folder .absent) = .ok (s, []) := rfl
  have hanswer : answer = (Office.say Quantity.diceCap.belowOne, o) :=
    (Office.step_setMaxDice (by decide)).trans (Office.perform_of_lt (by decide))
  have hset : ∀ n : Nat, 0 < n → isWritable n = false →
      s.step .common (.setMaxDice (.int n)) =
        { store := s.capped n, fault := some .unwritable } := by
    intro n hpos hlong
    refine setMaxDice_of_not_isWritable (by omega) fun h => ?_
    have hshort : isWritable n = true := h.maxDice
    rw [hshort] at hlong
    cases hlong
  have hturn : turn = _ := hset _ pow_maxDigits_pos isWritable_pow
  rw [hanswer, hturn]
  refine ⟨hzero, rfl, ?_, .opened hopen, rfl, rfl, fun h => ?_, rfl⟩
  · simpa [Office.say] using Office.capText_ne_belowOne
  · have hlong := isWritable_pow
    have hdefault : ((Nat.pow 10 maxDigits : Nat) : Int) = 100 := congrArg Settings.maxDice h
    rw [hdefault] at hlong
    cases hlong

end Store
end Settings
end Croupier
