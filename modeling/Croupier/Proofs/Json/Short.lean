import Croupier.Json.Integer
import Croupier.Json.Reader
import Croupier.Proofs.Numeral.Lenient

/-!
# Croupier.Proofs.Json.Short

Values whose whole numbers are short enough to be written (`Short`). The reader gives no others,
and whatever stands for a whole number in them is short enough itself.

* `short_of_ofString`: what the reader gives.
* `Short.isWritable`: what it stands for.
-/

namespace Croupier
namespace Json

open Numeral

/-- No whole number in the value has more digits than can be written. -/
inductive Short : Json → Prop where
  | null : Short .null
  | bool (b : Bool) : Short (.bool b)
  | int {n : Int} (h : isWritable n = true) : Short (.int n)
  | real (digits exponent : Int) : Short (.real digits exponent)
  | nan : Short .nan
  | infinity (negative : Bool) : Short (.infinity negative)
  | string (s : String) : Short (.string s)
  | array {items : List Json} (h : ∀ v ∈ items, Short v) : Short (.array items)
  | object {fields : List (String × Json)} (h : ∀ f ∈ fields, Short f.2) : Short (.object fields)

/-! ## What the reader gives -/

theorem isDigit_of_wholePart? {cs whole rest : List Char}
    (h : wholePart? cs = some (whole, rest)) : ∀ c ∈ whole, c.isDigit = true := by
  unfold wholePart? at h
  split at h
  · cases h
    intro c hc
    rw [List.mem_singleton.1 hc]
    rfl
  · simp only at h
    split at h
    · cases h
    · cases h
      exact List.all_eq_true.1 List.all_takeWhile

theorem short_of_unsigned? {sign : Int} {cs rest : List Char} {v : Json}
    (hsign : sign.natAbs = 1) (h : unsigned? sign cs = some (v, rest)) : v.Short := by
  unfold unsigned? at h
  split at h
  · cases h
  rename_i whole rest' hwhole
  simp only at h
  split at h
  · cases h
    exact .real ..
  split at h
  · cases h
    exact .real ..
  rename_i hplaces
  split at h
  · rename_i hlength
    cases h
    have hempty : (fraction rest').1 = [] := by simpa using hplaces
    refine .int (isWritable_of_lt_pow hlength ?_)
    rw [Int.natAbs_mul, hsign, hempty, List.append_nil, Int.natAbs_natCast, Nat.one_mul]
    exact value_lt (isDigit_of_wholePart? hwhole)
  · cases h

theorem short_of_number? {cs rest : List Char} {v : Json} (h : number? cs = some (v, rest)) :
    v.Short := by
  unfold number? at h
  split at h
  · split at h
    · cases h
      exact .infinity _
    · exact short_of_unsigned? rfl h
  · exact short_of_unsigned? rfl h

theorem some_of_flat {α : Type} {found : Option (α × List Char)} {x : α × List Char}
    (h : flat found = .ok x) : found = some x := by
  cases found with
  | none => cases h
  | some found => cases h; rfl

theorem ok_of_map {α β : Type} {step : Step α} {f : α × List Char → β × List Char}
    {y : β × List Char} (h : step.map f = .ok y) : ∃ x, step = .ok x ∧ f x = y := by
  cases step with
  | error e => cases h
  | ok x => cases h; exact ⟨x, rfl, rfl⟩

theorem short_of_word {word : String} {cs rest : List Char} {v w : Json} (hw : w.Short)
    (h : flat ((after? word cs).map fun rest => (w, rest)) = .ok (v, rest)) : v.Short := by
  obtain ⟨_, -, hv⟩ := Option.map_eq_some_iff.1 (some_of_flat h)
  cases hv
  exact hw

/-- All readers give short values within this many steps. -/
structure GivesShort (steps : Nat) : Prop where
  value : ∀ {room cs v rest}, value room steps cs = .ok (v, rest) → v.Short
  items : ∀ {room acc cs vs rest}, (∀ v ∈ acc, Short v) →
    items room steps acc cs = .ok (vs, rest) → ∀ v ∈ vs, Short v
  fields : ∀ {room acc cs fs rest}, (∀ f ∈ acc, Short f.2) →
    fields room steps acc cs = .ok (fs, rest) → ∀ f ∈ fs, Short f.2

namespace GivesShort

variable {room steps : Nat} {cs rest : List Char}

theorem value_succ (ih : GivesShort steps) {v : Json}
    (h : Json.value room (steps + 1) cs = .ok (v, rest)) : v.Short := by
  rw [value.eq_def] at h
  simp only at h
  split at h
  case h_1 =>
    obtain ⟨x, -, hx⟩ := ok_of_map h
    cases hx
    exact .string _
  case h_2 =>
    split at h
    · cases h
    split at h
    · cases h
      exact .array (List.forall_mem_nil _)
    · obtain ⟨x, hx, hv⟩ := ok_of_map h
      cases hv
      exact .array (ih.items (List.forall_mem_nil _) hx)
  case h_3 =>
    split at h
    · cases h
    split at h
    · cases h
      exact .object (List.forall_mem_nil _)
    · obtain ⟨x, hx, hv⟩ := ok_of_map h
      cases hv
      exact .object (ih.fields (List.forall_mem_nil _) hx)
  case h_4 => exact short_of_word .null h
  case h_5 => exact short_of_word (.bool true) h
  case h_6 => exact short_of_word (.bool false) h
  case h_7 => exact short_of_word .nan h
  case h_8 => exact short_of_word (.infinity false) h
  case h_9 => exact short_of_number? (some_of_flat h)

theorem items_succ (ih : GivesShort steps) {acc vs : List Json} (hacc : ∀ v ∈ acc, Short v)
    (h : Json.items room (steps + 1) acc cs = .ok (vs, rest)) : ∀ v ∈ vs, Short v := by
  rw [Json.items] at h
  split at h
  · cases h
  rename_i item rest' hitem
  have hcons : ∀ v ∈ item :: acc, Short v := List.forall_mem_cons.2 ⟨ih.value hitem, hacc⟩
  split at h
  · exact ih.items hcons h
  · cases h
    exact fun v hv => hcons v (List.mem_reverse.1 hv)
  · cases h

theorem fields_succ (ih : GivesShort steps) {acc fs : List (String × Json)}
    (hacc : ∀ f ∈ acc, Short f.2) (h : Json.fields room (steps + 1) acc cs = .ok (fs, rest)) :
    ∀ f ∈ fs, Short f.2 := by
  rw [fields.eq_def] at h
  simp only at h
  split at h
  case h_2 => cases h
  split at h
  · cases h
  split at h
  case h_2 => cases h
  split at h
  · cases h
  rename_i item _ hitem
  have hcons : ∀ key, ∀ f ∈ (key, item) :: acc, Short f.2 :=
    fun key => List.forall_mem_cons.2 ⟨ih.value hitem, hacc⟩
  split at h
  · exact ih.fields (hcons _) h
  · cases h
    exact fun f hf => hcons _ f (List.mem_reverse.1 hf)
  · cases h

end GivesShort

theorem givesShort (steps : Nat) : GivesShort steps := by
  induction steps with
  | zero => exact ⟨fun h => (by cases h), fun _ h => (by cases h), fun _ h => (by cases h)⟩
  | succ steps ih => exact ⟨ih.value_succ, ih.items_succ, ih.fields_succ⟩

theorem short_of_ofString {nesting : Nat} {text : String} {v : Json}
    (h : ofString nesting text = .ok v) : v.Short := by
  unfold ofString at h
  simp only at h
  split at h
  · cases h
  rename_i v' rest hvalue
  split at h
  · cases h
    exact (givesShort _).value hvalue
  · cases h

end Json

/-! ## What short values stand for -/

namespace Numeral

namespace Binary64

theorem log2_of_truncDiv {num den n : Nat} (h : truncDiv num den = some n) : n.log2 < 1024 := by
  unfold truncDiv at h
  simp only at h
  split at h
  · rename_i hlog
    cases h
    exact hlog
  · cases h

theorem log2_of_truncNat {digits n : Nat} {exponent : Int}
    (h : truncNat digits exponent = some n) : n.log2 < 1024 := by
  unfold truncNat at h
  simp only at h
  split at h
  · cases h
    decide
  split at h
  · cases h
  · exact log2_of_truncDiv h

theorem log2_of_trunc {digits exponent n : Int} (h : trunc digits exponent = some n) :
    n.natAbs.log2 < 1024 := by
  rw [trunc] at h
  cases hm : truncNat digits.natAbs exponent with
  | none =>
    rw [hm] at h
    cases h
  | some m =>
    rw [hm] at h
    have hn : (if digits < 0 then -(m : Int) else m) = n := Option.some.inj h
    have habs : n.natAbs = m := by split at hn <;> omega
    rw [habs]
    exact log2_of_truncNat hm

end Binary64
end Numeral

theorem Json.Short.isWritable {v : Json} (hv : v.Short) {n : Int} (h : v.toInt = .ok n) :
    Numeral.isWritable n = true := by
  cases hv with
  | bool b => cases h; cases b <;> decide
  | int hn => cases h; exact hn
  | real digits exponent =>
    rw [toInt] at h
    split at h
    · rename_i htrunc
      cases h
      have hlog : n.natAbs.log2 + 1 ≤ 1024 := Numeral.Binary64.log2_of_trunc htrunc
      have htwo : 2 ≤ 10 := by decide
      refine Numeral.isWritable_of_lt_pow (Nat.le_trans hlog (by decide)) ?_
      exact Nat.lt_of_lt_of_le Nat.lt_log2_self (Nat.pow_le_pow_left htwo _)
    · cases h
  | string s =>
    rw [toInt] at h
    split at h
    · rename_i hread
      cases h
      exact Numeral.Lenient.isWritable_of_toInt hread
    · cases h
  | null | nan | infinity | array | object => cases h

end Croupier
