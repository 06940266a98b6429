import Croupier.Percentile.Target
import Croupier.Proofs.Dice.Headers

/-!
# Croupier.Proofs.Percentile.Grammar

The grammar of targets, and that `Target.parse` reads exactly what it derives.

* `Target.Spells`: a target and the number it stands for.
* `Target.parse_eq_ok_iff`, `parse_eq_negative_iff`, `parse_eq_nonNumeric_iff`: the three ways a
  text is taken.
* `Target.spells_twoPlaces`: targets as they are printed.
-/

namespace Croupier

open Numeral

namespace Target

/-- One to nine digits, with or without a sign, and the number they stand for. -/
inductive Spells : List Char → Int → Prop
  | bare {digits : List Char} : IsShort digits → Spells digits (value digits)
  | plus {digits : List Char} : IsShort digits → Spells ('+' :: digits) (value digits)
  | minus {digits : List Char} : IsShort digits → Spells ('-' :: digits) (-value digits)

theorem ofChars?_eq_some_iff {cs : List Char} {n : Int} : ofChars? cs = some n ↔ Spells cs n := by
  constructor
  · intro h
    rw [ofChars?.eq_def] at h
    split at h
    all_goals
      obtain ⟨m, hm, rfl⟩ := Option.map_eq_some_iff.1 h
      obtain ⟨hshort, rfl⟩ := short?_eq_some_iff.1 hm
    · exact .plus hshort
    · exact .minus hshort
    · exact .bare hshort
  · intro h
    cases h with
    | bare h =>
      rw [ofChars?, short?_eq_some_iff.2 ⟨h, rfl⟩]
      · rfl
      · rintro rest rfl
        exact absurd (h.isDigit '+' List.mem_cons_self) (by decide)
      · rintro rest rfl
        exact absurd (h.isDigit '-' List.mem_cons_self) (by decide)
    | plus h => rw [ofChars?, short?_eq_some_iff.2 ⟨h, rfl⟩]; rfl
    | minus h => rw [ofChars?, short?_eq_some_iff.2 ⟨h, rfl⟩]; rfl

variable {cs : List Char} {t : String}

namespace Spells

theorem unique {n m : Int} (hn : Spells cs n) (hm : Spells cs m) : n = m := by
  rw [← ofChars?_eq_some_iff] at hn hm
  exact Option.some.inj (hn.symm.trans hm)

theorem natAbs_le {n : Int} (h : Spells cs n) : n.natAbs ≤ 999999999 := by
  cases h with
  | bare h | plus h | minus h =>
    have hle := h.value_le
    omega

/-- What is below zero has a minus sign, and a digit other than zero. -/
theorem exists_neg_iff :
    (∃ n < 0, Spells cs n) ↔ ∃ digits, cs = '-' :: digits ∧ IsShort digits ∧ ∃ c ∈ digits, c ≠ '0' := by
  constructor
  · rintro ⟨n, hneg, h⟩
    cases h with
    | bare h | plus h => omega
    | @minus digits h =>
      have hsome : ¬ ∀ c ∈ digits, c = '0' := by
        rw [← value_eq_zero_iff h.isDigit]
        omega
      exact ⟨digits, rfl, h, by simpa using hsome⟩
  · rintro ⟨digits, rfl, h, c, hc, hne⟩
    have hvalue : value digits ≠ 0 := fun hzero => hne ((value_eq_zero_iff h.isDigit).1 hzero c hc)
    exact ⟨_, by omega, .minus h⟩

end Spells

/-! ## How a text is taken -/

/-- All that a text can be taken for. -/
theorem parse_cases (t : String) :
    (∃ n : Nat, Spells t.toList n ∧ parse (some t) = .ok n) ∨
    (∃ n < 0, Spells t.toList n ∧ parse (some t) = .error ⟨.negative, some t⟩) ∨
    (∀ n, ¬ Spells t.toList n) ∧ parse (some t) = .error ⟨.nonNumeric, some t⟩ := by
  rw [parse, Option.bind_some]
  cases h : ofChars? t.toList with
  | none =>
    refine .inr (.inr ⟨fun n hn => ?_, rfl⟩)
    rw [ofChars?_eq_some_iff.2 hn] at h
    cases h
  | some n =>
    have hn : Spells t.toList n := ofChars?_eq_some_iff.1 h
    by_cases hneg : n < 0
    · exact .inr (.inl ⟨n, hneg, hn, if_pos hneg⟩)
    · have hnat : (n.toNat : Int) = n := Int.toNat_of_nonneg (by omega)
      exact .inl ⟨n.toNat, by rwa [hnat], if_neg hneg⟩

theorem parse_eq_ok_iff {n : Nat} : parse (some t) = .ok n ↔ Spells t.toList n := by
  obtain ⟨m, hm, hparse⟩ | ⟨m, hneg, hm, hparse⟩ | ⟨hnone, hparse⟩ := parse_cases t <;> rw [hparse]
  · constructor
    · intro h
      cases h
      exact hm
    · intro h
      rw [Int.natCast_inj.1 (hm.unique h)]
  · refine iff_of_false nofun fun h => ?_
    have heq := hm.unique h
    omega
  · exact iff_of_false nofun (hnone n)

theorem parse_eq_negative_iff :
    parse (some t) = .error ⟨.negative, some t⟩ ↔ ∃ n < 0, Spells t.toList n := by
  obtain ⟨m, hm, hparse⟩ | ⟨m, hneg, hm, hparse⟩ | ⟨hnone, hparse⟩ := parse_cases t <;> rw [hparse]
  · refine iff_of_false nofun fun ⟨n, hneg, h⟩ => ?_
    have heq := hm.unique h
    omega
  · exact iff_of_true rfl ⟨m, hneg, hm⟩
  · refine iff_of_false (fun h => by cases h) fun ⟨n, _, h⟩ => hnone n h

theorem parse_eq_nonNumeric_iff :
    parse (some t) = .error ⟨.nonNumeric, some t⟩ ↔ ∀ n, ¬ Spells t.toList n := by
  obtain ⟨m, hm, hparse⟩ | ⟨m, hneg, hm, hparse⟩ | ⟨hnone, hparse⟩ := parse_cases t <;> rw [hparse]
  · exact iff_of_false nofun fun h => h m hm
  · exact iff_of_false (fun h => by cases h) fun h => h m hm
  · exact iff_of_true rfl hnone

/-- An error carries what was read, be there anything or not. -/
theorem text_of_parse {token : Option String} {e : TargetError} (h : parse token = .error e) :
    e.text = token := by
  rw [parse] at h
  split at h
  · cases h
    rfl
  · split at h
    · cases h
      rfl
    · cases h

theorem le_of_parse {token : Option String} {n : Nat} (h : parse token = .ok n) :
    n ≤ 999999999 := by
  cases token with
  | none => cases h
  | some t =>
    have hle := (parse_eq_ok_iff.1 h).natAbs_le
    omega

/-! ## Targets as they are printed -/

theorem spells_twoPlaces {n : Nat} (h : n ≤ 999999999) : Spells (twoPlaces n).toList n := by
  have hshort : IsShort (Nat.toDigits 10 n) := isShort_toDigits_iff.2 h
  have htext : ofInt n = n.repr := by
    rw [ofInt, if_neg (by omega), String.empty_append, Int.natAbs_natCast]
  rw [twoPlaces, htext]
  split
  · have hdigits : ("0" ++ n.repr).toList = '0' :: Nat.toDigits 10 n := by
      rw [String.toList_append, Nat.toList_repr]
      rfl
    have hone : (Nat.toDigits 10 n).length ≤ 1 :=
      (Nat.length_toDigits_le_iff (by decide) (by decide)).2 (by omega)
    have hpadded : IsShort ('0' :: Nat.toDigits 10 n) :=
      ⟨List.forall_mem_cons.2 ⟨rfl, hshort.isDigit⟩, Nat.succ_pos _, Nat.succ_le_succ (by omega)⟩
    have hvalue : value ('0' :: Nat.toDigits 10 n) = n := value_toDigits n
    have hspells := Spells.bare hpadded
    rwa [hvalue, ← hdigits] at hspells
  · have hspells := Spells.bare hshort
    rwa [value_toDigits, ← Nat.toList_repr] at hspells

end Target
end Croupier
