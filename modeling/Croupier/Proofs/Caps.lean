import Croupier.Proofs.Drawing
import Croupier.Proofs.Orders
import Croupier.Proofs.Settings.Opening
import Croupier.Proofs.Settings.Revocation
import Croupier.Table

/-!
# Croupier.Proofs.Caps

How many dice may be asked for. A request sets a cap of one or more or none at all, but a file may
say any number; under a cap below one nothing is an order, and whoever rolls gets no answer.

* `Request.change_maxDice`, `maxDice_foldl`: the cap is what the last request made it.
* `maxDice_lt_one_of_openAt`: a cap below one comes from the file.
* `DiceOrder.exists_args_iff`: a cap under which there are orders.
* `cap_from_file_or_request`: the cap after any run of requests, and what it means at the table.
-/

namespace Croupier

open Entropy

/-! ## Orders under a cap -/

namespace DiceOrder

variable {cap : Int}

theorem accept?_eq_none (h : cap < 1) (word : String) : accept? (some cap) word = none := by
  rw [Option.eq_none_iff_forall_ne_some]
  intro spec hspec
  obtain ⟨-, hcap⟩ := accept?_eq_some_iff.1 hspec
  have hcount := hcap cap rfl
  have hone := spec.one_le_count
  omega

theorem isLabel_of_lt (h : cap < 1) (words : List String) : IsLabel (some cap) words :=
  fun word _ => accept?_eq_none h word

/-- A single die is an order if anything is. -/
theorem exists_order_single (h : 1 ≤ cap) :
    ∃ order, ofArgs (some cap) (some "d6") = .order order := by
  rw [exists_order_iff]
  have hwords : "d6" ∈ (commandWords (some "d6")).head? := by decide
  have htaken : Expression.ofChars? "d6".toList = some ⟨1, 6, 0⟩ := by decide
  have hparse := DieSpec.parse_of_good htaken (by decide) (by decide) (by decide)
  have hcap : ∀ n ∈ some cap, ((1 : Nat) : Int) ≤ n := by
    rintro n ⟨⟩
    exact h
  exact ⟨"d6", hwords, Option.isSome_of_eq_some (accept?_eq_some_iff.2 ⟨hparse, hcap⟩)⟩

theorem exists_args_iff :
    (∃ args order, ofArgs (some cap) args = .order order) ↔ 1 ≤ cap := by
  constructor
  · rintro ⟨args, order, horder⟩
    by_contra hcap
    exact ne_order_of_isLabel (isLabel_of_lt (by omega) _) order horder
  · intro h
    exact ⟨_, exists_order_single h⟩

end DiceOrder

namespace Settings

open Json Numeral

namespace Store

/-! ## Requests that set the cap -/

/-- The cap that a request sets. -/
def Request.cap? : Request → Option Int
  | .setMaxDice v =>
    match v.toInt with
    | .ok n => if 1 ≤ n then some n else none
    | .error _ => none
  | .addDeveloper _ | .removeDeveloper _ | .isDeveloper _ | .developers _ | .reload => none

theorem Request.one_le_of_cap? {r : Request} {n : Int} (h : r.cap? = some n) : 1 ≤ n := by
  cases r with
  | setMaxDice v =>
    rw [cap?] at h
    split at h
    · split at h
      · cases h; assumption
      · cases h
    · cases h
  | addDeveloper | removeDeveloper | isDeveloper | developers | reload => cases h

theorem Request.change_maxDice (r : Request) (s : Settings) :
    (r.change s).maxDice = r.cap?.getD s.maxDice := by
  cases r with
  | addDeveloper id =>
    rw [change]
    split <;> rfl
  | setMaxDice v =>
    rw [change, cap?]
    cases v.toInt with
    | error e => rfl
    | ok n => by_cases hone : 1 ≤ n <;> simp [hone]
  | removeDeveloper | isDeveloper | developers | reload => rfl

theorem maxDice_foldl (rs : List Request) (s : Settings) :
    (rs.foldl Request.change s).maxDice = (rs.filterMap Request.cap?).getLastD s.maxDice := by
  induction rs generalizing s with
  | nil => rfl
  | cons r rs ih =>
    rw [List.foldl_cons, ih, r.change_maxDice]
    cases hcap : r.cap? with
    | none => rw [List.filterMap_cons_none hcap, Option.getD_none]
    | some n => rw [List.filterMap_cons_some hcap, Option.getD_some, List.getLastD_cons]

/-- A cap below one was there before the requests, and none of them has set another. -/
theorem getLastD_lt_one_iff {rs : List Request} {cap : Int} :
    (rs.filterMap Request.cap?).getLastD cap < 1 ↔ cap < 1 ∧ ∀ r ∈ rs, r.cap? = none := by
  rw [← List.filterMap_eq_nil_iff]
  by_cases hnil : rs.filterMap Request.cap? = []
  · simp [hnil]
  · have hmem := List.getLast_mem hnil
    obtain ⟨r, -, hr⟩ := List.mem_filterMap.1 hmem
    have hone := Request.one_le_of_cap? hr
    rw [List.getLastD_eq_getLast?, List.getLast?_eq_getLast_of_ne_nil hnil, Option.getD_some]
    simp only [hnil, and_false, iff_false]
    omega

/-! ## Caps on file -/

/-- A store is opened with a cap below one just when the file says such a cap. -/
theorem maxDice_lt_one_of_openAt {host : Host} {slot : Slot} {s : Store} {records : List Record}
    (h : openAt host (.folder slot) = .ok (s, records)) :
    s.settings.maxDice < 1 ↔
      ∃ content v settings, slot = .file content ∧ Holds host.nesting content v ∧
        Says v settings ∧ settings.maxDice < 1 := by
  constructor
  · intro hcap
    cases slot with
    | absent => cases h; cases hcap
    | folder => cases h; cases hcap
    | file content =>
      obtain ⟨settings, slot⟩ := s
      obtain ⟨rfl, rfl | ⟨rfl, -⟩⟩ := load_eq_ok h
      · obtain ⟨v, hholds, hv⟩ := ofBytes_eq_ok_iff.1 (load_eq_ok_iff.1 h)
        exact ⟨content, v, settings, rfl, hholds, hv, hcap⟩
      · cases hcap
  · rintro ⟨content, v, settings, rfl, hholds, hv, hcap⟩
    have hload := load_eq_ok_iff.2 (ofBytes_eq_ok_iff.2 ⟨v, hholds, hv⟩)
    rw [openAt, hload] at h
    cases h
    exact hcap

/-- The cap after any requests is the last that one of them has set, or else the one the store was
opened with; it is below one just when the file said so and no request has set another. Under a cap
of one or more a single die can be rolled; under any other there is no order at all, so that nothing
comes of a roll but a record of its first word, and the table stays as it is. -/
theorem cap_from_file_or_request {host : Host} {slot : Slot} {s : Store} {records : List Record}
    (hopen : openAt host (.folder slot) = .ok (s, records)) (hslot : slot ≠ .folder)
    {rs : List Request} (hshort : ∀ r ∈ rs, r.Short) :
    let cap := (s.after host rs).settings.maxDice
    cap = (rs.filterMap Request.cap?).getLastD s.settings.maxDice ∧
      (cap < 1 ↔
        (∃ content v settings, slot = .file content ∧ Holds host.nesting content v ∧
          Says v settings ∧ settings.maxDice < 1) ∧ ∀ r ∈ rs, r.cap? = none) ∧
      ((∃ order, DiceOrder.ofArgs (some cap) (some "d6") = .order order) ↔ 1 ≤ cap) ∧
      (cap < 1 → ∀ (source : Source) (who channel args : String) (refusal : Option Table.Refusal),
        Table.step ⟨source, s.after host rs⟩ (.roll who channel args refusal) =
          ({ records := (Text.words args).head?.toList.map DiceOrder.passedOver },
            ⟨source, s.after host rs⟩)) := by
  intro cap
  have hcap : cap = (rs.filterMap Request.cap?).getLastD s.settings.maxDice := by
    rw [← maxDice_foldl, ← (synced_of_openAt hopen hslot).settings_after hshort]
  refine ⟨hcap, ?_, ?_, ?_⟩
  · rw [hcap, getLastD_lt_one_iff, maxDice_lt_one_of_openAt hopen]
  · constructor
    · rintro ⟨order, horder⟩
      exact DiceOrder.exists_args_iff.1 ⟨_, order, horder⟩
    · intro hone
      exact DiceOrder.exists_order_single hone
  · intro hlow source who channel args refusal
    have hlabel := DiceOrder.isLabel_of_lt hlow (commandWords (some args))
    have hreply : diceReply who (some args) (some cap) = Drawing.give none :=
      diceReply_of_no_order (DiceOrder.ne_order_of_isLabel hlabel) who
    simp only [Table.step]
    rw [hreply, DiceOrder.records_of_isLabel hlabel]
    rfl

/-- A file with a cap of zero. A request for zero leaves it there, one for five is heeded. -/
theorem cap_from_file_or_request_raised :
    let settings : Settings := { maxDice := 0 }
    let s : Store := ⟨settings, .file settings.render.toUTF8⟩
    let refused : List Request := [.setMaxDice (.int 0), .reload]
    let heeded : List Request := [.setMaxDice (.int 0), .setMaxDice (.int 5), .reload]
    openAt .common (.folder s.slot) = .ok (s, []) ∧ (s.after .common refused).settings.maxDice = 0 ∧
      (s.after .common heeded).settings.maxDice = 5 ∧
      ∃ order, DiceOrder.ofArgs (some 5) (some "d6") = .order order := by
  intro settings s refused heeded
  have hopen : openAt .common (.folder s.slot) = .ok (s, []) :=
    openAt_render .common ⟨by decide, by decide, by decide⟩
  have hint : ∀ n, isWritable n = true → Request.Short (.setMaxDice (.int n)) := fun n hn => .int hn
  have hzero := hint 0 (by decide)
  have hfive := hint 5 (by decide)
  have hrefused : ∀ r ∈ refused, r.Short :=
    List.forall_mem_cons.2 ⟨hzero, List.forall_mem_singleton.2 trivial⟩
  have hheeded : ∀ r ∈ heeded, r.Short :=
    List.forall_mem_cons.2 ⟨hzero, List.forall_mem_cons.2 ⟨hfive,
      List.forall_mem_singleton.2 trivial⟩⟩
  obtain ⟨hsame, -⟩ := cap_from_file_or_request hopen nofun hrefused
  obtain ⟨hcap, -, hsingle, -⟩ := cap_from_file_or_request hopen nofun hheeded
  have hraised : (s.after .common heeded).settings.maxDice = 5 := hcap
  rw [hraised] at hsingle
  exact ⟨hopen, hsame, hraised, hsingle.2 (by decide)⟩

/-- Under a cap of zero on file nothing is an order. -/
theorem zero_on_file_refuses_all :
    let settings : Settings := { maxDice := 0 }
    let s : Store := ⟨settings, .file settings.render.toUTF8⟩
    openAt .common (.folder s.slot) = .ok (s, []) ∧ ¬ 1 ≤ s.settings.maxDice ∧
      ¬ ∃ args order, DiceOrder.ofArgs (some s.settings.maxDice) args = .order order := by
  intro settings s
  have hopen : openAt .common (.folder s.slot) = .ok (s, []) :=
    openAt_render .common ⟨by decide, by decide, by decide⟩
  have hcap : ¬ 1 ≤ s.settings.maxDice := by decide
  exact ⟨hopen, hcap, fun horder => hcap (DiceOrder.exists_args_iff.1 horder)⟩

end Store
end Settings
end Croupier
