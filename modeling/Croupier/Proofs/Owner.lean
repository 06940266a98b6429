import Croupier.Bot
import Croupier.Proofs.Settings.Revocation

/-!
# Croupier.Proofs.Owner

How the owner of the application becomes the first developer. The owner joins a list that is empty
and no other; since the list is on file from then on, no later owner joins.

* `setUp_eq`: all that setting a bot up does.
* `Settled`: what a bot is like that was set up.
* `exists_assemble_iff`: when there is a bot to set up.
* `owner_joins_empty_list`: two starts in a row, from any file.
* `no_bot_of_unaddressable`: blocks of at least one byte that no bot is assembled with.
-/

namespace Croupier

open Entropy Numeral Settings

namespace Bot

namespace OwnerInfo

/-- The owner that the chat names. -/
def id? : OwnerInfo → Option Int
  | .owner id => some id
  | .noOwner | .nothing | .refused _ => none

/-- What becomes of the store: the owner joins where there is nobody. -/
def received (info : OwnerInfo) (store : Store) : Store :=
  match info.id? with
  | none => store
  | some id => if store.settings.developers = [] then (store.addDeveloper id).store else store

variable {host : Host} {info : OwnerInfo} {store : Store} {id : Int}

theorem received_eq_self (h : info.id? = none ∨ store.settings.developers ≠ []) :
    info.received store = store := by
  unfold received
  split
  · rfl
  · rename_i hid
    rcases h with h | h
    · rw [h] at hid
      cases hid
    · rw [if_neg h]

theorem received_of_empty (h : store.Synced host) (hid : info.id? = some id)
    (hshort : isWritable id = true) (hnone : store.settings.developers = []) :
    (info.received store).settings = { store.settings with developers := [id] } ∧
      (info.received store).slot = .file (info.received store).settings.render.toUTF8 := by
  have hnew : ¬ store.isDeveloper id = true := by
    rw [Store.isDeveloper, hnone]
    exact Bool.false_ne_true
  let joined : Store := ⟨{ store.settings with developers := [id] }, store.slot⟩
  have hjoin : info.received store = joined.save.store := by
    simp only [received, hid, hnone, if_true, Store.addDeveloper, if_neg hnew, List.nil_append,
      joined]
  have hwritable : joined.settings.IsWritable := by
    have hjoined := h.writable.join hshort
    rw [hnone] at hjoined
    exact hjoined
  have hsave := Store.save_eq (s := joined) h.slot_ne hwritable
  rw [hjoin, hsave]
  exact ⟨rfl, rfl⟩

theorem developers_received_ne_nil (h : store.Synced host) (hid : info.id? = some id)
    (hshort : store.settings.developers = [] → isWritable id = true) :
    (info.received store).settings.developers ≠ [] := by
  by_cases hnone : store.settings.developers = []
  · rw [(received_of_empty h hid (hshort hnone) hnone).1]
    exact List.cons_ne_nil id []
  · rw [received_eq_self (.inr hnone)]
    exact hnone

theorem synced_received (h : store.Synced host)
    (hid : store.settings.developers = [] → ∀ id, info.id? = some id → isWritable id = true) :
    (info.received store).Synced host := by
  unfold received
  split
  · exact h
  · rename_i id heq
    split
    · exact h.addDeveloper (hid ‹_› id heq)
    · exact h

/-- The size of the blocks is the same as before. -/
theorem blockSize_received : (info.received store).settings.blockSize = store.settings.blockSize := by
  unfold received
  split
  · rfl
  · split
    · rw [Store.addDeveloper]
      split
      · rfl
      · rw [Store.save_settings]
    · rfl

end OwnerInfo

/-- What a bot is like that was set up from a store. Whatever becomes of the list later, those on
it and the owner have the run of the office, and nobody else has. -/
structure Settled (host : Host) (store : Store) (info : OwnerInfo) (turn : Turn) (b : Bot) :
    Prop where
  fault_eq : turn.fault = none
  sections_eq : b.sections = [.table, .office, .guide]
  isAuthorised_iff : ∀ (now : Store) (id : Int),
    { b.office with store := now }.isAuthorised id = true ↔
      info.id? = some id ∨ id ∈ now.settings.developers
  kept : info.id? = none ∨ store.settings.developers ≠ [] → b.store = store
  joined : ∀ id, info.id? = some id → store.settings.developers = [] →
    b.store.settings = { store.settings with developers := [id] } ∧
      b.store.slot = .file b.store.settings.render.toUTF8
  load_eq : ∃ records, Store.load host b.store.slot = .ok (b.store, records)

variable {host : Host} {b : Bot} {info : OwnerInfo} {lead : String} {store : Store} {provider : Provider}

/-! ## Setting up -/

/-- Where the file can be written, setting up goes through. -/
theorem setUp_eq (h : b.store.Synced host)
    (hid : b.store.settings.developers = [] → ∀ id, info.id? = some id → isWritable id = true) :
    ∃ records, b.setUp info =
      ({ records := records }, { b with store := info.received b.store }.load info.id?) := by
  cases info with
  | owner id =>
    by_cases hnone : b.store.settings.developers = []
    · have hfault : (b.store.addDeveloper id).fault = none :=
        (h.addDeveloper_fault_eq_none_iff id).2 (.inr (hid hnone id rfl))
      simp only [setUp, OwnerInfo.received, OwnerInfo.id?, hnone, List.isEmpty_nil, if_true, hfault]
      exact ⟨_, rfl⟩
    · have hsome : b.store.settings.developers.isEmpty = false := List.isEmpty_eq_false_iff.2 hnone
      rw [OwnerInfo.received_eq_self (.inr hnone), setUp, hsome]
      exact ⟨[], rfl⟩
  | noOwner => exact ⟨[], rfl⟩
  | nothing => exact ⟨[], rfl⟩
  | refused reason => exact ⟨_, rfl⟩

theorem settled_setUp (h : b.store.Synced host)
    (hid : b.store.settings.developers = [] → ∀ id, info.id? = some id → isWritable id = true)
    {turn : Turn} {after : Bot} (hsetUp : b.setUp info = (turn, after)) :
    Settled host b.store info turn after ∧ after.store = info.received b.store := by
  obtain ⟨records, heq⟩ := setUp_eq h hid
  rw [hsetUp] at heq
  cases heq
  refine ⟨⟨rfl, rfl, fun now id => ?_, OwnerInfo.received_eq_self,
    fun id heq hnone => OwnerInfo.received_of_empty h heq (hid hnone id heq) hnone,
    (OwnerInfo.synced_received h hid).load_eq⟩, rfl⟩
  rw [Office.isAuthorised, Bool.or_eq_true, decide_eq_true_iff, Store.isDeveloper,
    List.contains_iff_mem]
  rfl

/-! ## Assembling -/

theorem store_of_assemble (h : assemble host lead store provider = .ok b) : b.store = store := by
  rw [assemble] at h
  split at h
  · cases h
  · cases h
    rfl

theorem exists_assemble_iff (hone : 1 ≤ store.settings.blockSize) :
    (∃ b, assemble host lead store provider = .ok b) ↔
      store.settings.blockSize ≤ maxSize ∧ store.settings.blockSize ≤ host.memory := by
  unfold assemble Source.ofProvider
  rw [dif_neg (by omega)]
  cases hsize : bufferSize host.memory store.settings.blockSize with
  | ok size => simp [(bufferSize_eq_ok_iff.1 hsize).2]
  | error e =>
    have hlarge :
        ¬ (store.settings.blockSize ≤ maxSize ∧ store.settings.blockSize ≤ host.memory) := by
      intro hle
      have hok : bufferSize host.memory store.settings.blockSize =
          .ok store.settings.blockSize.toNat := bufferSize_eq_ok_iff.2 ⟨by omega, hle⟩
      rw [hsize] at hok
      cases hok
    simp [hlarge]

/-- A bot over any file, or none, with blocks of at least one byte. There is one if a block can be
addressed and fits into memory. Setting it up, whatever the chat says of an owner (whose number can
be written, if it has to be), leaves it as `Settled` has it; and after a start that found an owner,
any start over the file left behind finds the same list and leaves it, and the file, as they are. -/
theorem owner_joins_empty_list {host : Host} {slot : Slot} {store : Store} {records : List Record}
    (hopen : Store.load host slot = .ok (store, records)) (hslot : slot ≠ .folder)
    (hone : 1 ≤ store.settings.blockSize) {info : OwnerInfo}
    (hid : store.settings.developers = [] → ∀ id, info.id? = some id → isWritable id = true)
    (lead : String) (provider : Provider) :
    ((∃ b, assemble host lead store provider = .ok b) ↔
        store.settings.blockSize ≤ maxSize ∧ store.settings.blockSize ≤ host.memory) ∧
      store.slot = slot ∧
      ∀ b turn after, assemble host lead store provider = .ok b → b.setUp info = (turn, after) →
        Settled host store info turn after ∧
        ∀ id, info.id? = some id → ∀ (info' : OwnerInfo) (lead' : String) (provider' : Provider),
          ∃ records' b', Store.load host after.store.slot = .ok (after.store, records') ∧
            assemble host lead' after.store provider' = .ok b' ∧
            ∀ turn' after', b'.setUp info' = (turn', after') →
              Settled host after.store info' turn' after' ∧ after'.store = after.store := by
  refine ⟨exists_assemble_iff hone, (Store.of_load hopen).1, fun b turn after hb hsetUp => ?_⟩
  have hroom := (exists_assemble_iff hone).1 ⟨b, hb⟩
  obtain rfl := store_of_assemble hb
  have hsynced : b.store.Synced host := Store.synced_of_openAt hopen hslot
  obtain ⟨hfirst, hstore⟩ := settled_setUp hsynced hid hsetUp
  refine ⟨hfirst, fun id heq info' lead' provider' => ?_⟩
  have hagain : after.store.Synced host := by
    rw [hstore]
    exact OwnerInfo.synced_received hsynced hid
  have hlisted : after.store.settings.developers ≠ [] := by
    rw [hstore]
    exact OwnerInfo.developers_received_ne_nil hsynced heq fun hnone => hid hnone id heq
  have hsize : after.store.settings.blockSize = b.store.settings.blockSize := by
    rw [hstore]
    exact OwnerInfo.blockSize_received
  rw [← hsize] at hone hroom
  obtain ⟨records', hload⟩ := hagain.load_eq
  obtain ⟨b', hb'⟩ : ∃ b', assemble host lead' after.store provider' = .ok b' :=
    (exists_assemble_iff hone).2 hroom
  have hgiven := store_of_assemble hb'
  refine ⟨records', b', hload, hb', fun turn' after' hsetUp' => ?_⟩
  rw [← hgiven] at hagain hlisted ⊢
  obtain ⟨hsecond, hleft⟩ := settled_setUp hagain (fun hnone => absurd hnone hlisted) hsetUp'
  exact ⟨hsecond, by rw [hleft, OwnerInfo.received_eq_self (.inr hlisted)]⟩

/-- From no file, with one owner and then another. -/
theorem owner_joins_empty_list_twice :
    ∃ b b', Store.load .common .absent = .ok (⟨{}, .absent⟩, []) ∧
      assemble .common "!" ⟨{}, .absent⟩ (.stream []) = .ok b ∧
      (b.setUp (.owner 5)).2.store.settings.developers = [5] ∧
      assemble .common "!" (b.setUp (.owner 5)).2.store (.stream []) = .ok b' ∧
      (b'.setUp (.owner 6)).2.store = (b.setUp (.owner 5)).2.store ∧
      (b'.setUp (.owner 6)).2.office.isAuthorised 6 = true := by
  have hid : ∀ id, OwnerInfo.id? (.owner 5) = some id → isWritable id = true := by
    intro id heq
    cases heq
    decide
  obtain ⟨hsome, -, hstart⟩ := @owner_joins_empty_list .common .absent ⟨{}, .absent⟩ [] rfl nofun
    (by decide) (.owner 5) (fun _ => hid) "!" (.stream [])
  obtain ⟨b, hb⟩ := hsome.2 (by decide)
  obtain ⟨hfirst, hagain⟩ := hstart b _ _ hb rfl
  have hlist := congrArg Settings.developers (hfirst.joined 5 rfl rfl).1
  obtain ⟨-, b', -, hb', hsecond⟩ := hagain 5 rfl (.owner 6) "!" (.stream [])
  obtain ⟨hother, hkept⟩ := hsecond _ _ rfl
  refine ⟨b, b', rfl, hb, hlist, hb', hkept, (hother.isAuthorised_iff _ 6).2 (.inl rfl)⟩

/-- The file as it is written for blocks of one byte more than can be addressed. -/
theorem no_bot_of_unaddressable :
    let settings : Settings := { blockSize := 9223372036854775808 }
    let slot : Slot := .file settings.render.toUTF8
    Store.load .common slot = .ok (⟨settings, slot⟩, []) ∧ 1 ≤ settings.blockSize ∧
      assemble .common "!" ⟨settings, slot⟩ (.stream []) = .error (.noBlock .unaddressable) := by
  intro settings slot
  have hwritable : settings.IsWritable := ⟨by decide, by decide, by decide⟩
  have hopen := Store.openAt_render .common hwritable
  rw [Store.openAt] at hopen
  exact ⟨hopen, by decide, rfl⟩

end Bot
end Croupier
