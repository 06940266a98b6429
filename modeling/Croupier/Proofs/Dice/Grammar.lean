import Croupier.Dice.Notation
import Croupier.Proofs.Numeral.Digits

/-!
# Croupier.Proofs.Dice.Grammar

The grammar of dice expressions, and that `DieSpec.parse` reads exactly what it derives.

* `Parts.Denotes`: an expression taken apart, and the numbers its parts stand for.
* `ofChars?_eq_some_iff`: taking apart and putting together are inverse to each other.
* `Parts.Separated.unique`: a text can be taken apart in one way only.
* `parse_classifies`: which texts are read, and the fault found in each of the others.
-/

namespace Croupier

/-! ## Short numerals -/

namespace Numeral

/-- One to nine ASCII digits. -/
structure IsShort (digits : List Char) : Prop where
  isDigit : ∀ c ∈ digits, c.isDigit = true
  one_le : 1 ≤ digits.length
  le_nine : digits.length ≤ 9

theorem short?_eq_some_iff {digits : List Char} {n : Nat} :
    short? digits = some n ↔ IsShort digits ∧ n = value digits := by
  unfold short?
  constructor
  · intro h
    split at h
    · rename_i hall
      simp only [Bool.and_eq_true, List.all_eq_true, decide_eq_true_eq] at hall
      cases h
      exact ⟨⟨hall.1.1, hall.1.2, hall.2⟩, rfl⟩
    · cases h
  · rintro ⟨⟨hdigits, hone, hnine⟩, rfl⟩
    rw [if_pos]
    simp only [Bool.and_eq_true, List.all_eq_true, decide_eq_true_eq]
    exact ⟨⟨hdigits, hone⟩, hnine⟩

theorem IsShort.value_le {digits : List Char} (h : IsShort digits) : value digits ≤ 999999999 := by
  have hlt := value_lt h.isDigit
  have hpow : 10 ^ digits.length ≤ 10 ^ 9 := Nat.pow_le_pow_right (by decide) h.le_nine
  omega

end Numeral

open Numeral

/-! ## The grammar -/

namespace Expression

/-- A text in four parts: count, letter, sides and bonus. -/
@[ext]
structure Parts where
  count : List Char
  letter : Char
  sides : List Char
  bonus : List Char

namespace Parts

def chars (p : Parts) : List Char :=
  p.count ++ p.letter :: (p.sides ++ p.bonus)

def text (p : Parts) : String :=
  String.ofList p.chars

end Parts

/-- A count, and the number it stands for. -/
inductive IsCount : List Char → Nat → Prop
  | missing : IsCount [] 1
  | digits {digits : List Char} : IsShort digits → IsCount digits (value digits)

/-- A bonus, and the number it stands for. -/
inductive IsBonus : List Char → Int → Prop
  | missing : IsBonus [] 0
  | plus {digits : List Char} : IsShort digits → IsBonus ('+' :: digits) (value digits)
  | minus {digits : List Char} : IsShort digits → IsBonus ('-' :: digits) (-(value digits))

/-- The parts make a dice expression, and these are its numbers. -/
structure Parts.Denotes (p : Parts) (e : Expression) : Prop where
  count : IsCount p.count e.count
  letter : p.letter = 'd' ∨ p.letter = 'D'
  sides : IsShort p.sides
  sides_eq : e.sides = value p.sides
  bonus : IsBonus p.bonus e.bonus

theorem count?_eq_some_iff {digits : List Char} {n : Nat} :
    count? digits = some n ↔ IsCount digits n := by
  cases digits with
  | nil =>
    constructor
    · intro h; cases h; exact .missing
    · intro h
      cases h with
      | missing => rfl
      | digits h => exact absurd h.one_le (by decide)
  | cons c digits =>
    rw [count?, short?_eq_some_iff]
    · constructor
      · rintro ⟨h, rfl⟩; exact .digits h
      · intro h; cases h with
        | digits h => exact ⟨h, rfl⟩
    · exact nofun

theorem bonus?_eq_some_iff {cs : List Char} {n : Int} : bonus? cs = some n ↔ IsBonus cs n := by
  constructor
  · intro h
    unfold bonus? at h
    split at h
    · cases h; exact .missing
    · obtain ⟨m, hm, rfl⟩ := Option.map_eq_some_iff.1 h
      obtain ⟨hshort, rfl⟩ := short?_eq_some_iff.1 hm
      exact .plus hshort
    · obtain ⟨m, hm, rfl⟩ := Option.map_eq_some_iff.1 h
      obtain ⟨hshort, rfl⟩ := short?_eq_some_iff.1 hm
      exact .minus hshort
    · cases h
  · intro h
    cases h with
    | missing => rfl
    | plus h => rw [bonus?, short?_eq_some_iff.2 ⟨h, rfl⟩]; rfl
    | minus h => rw [bonus?, short?_eq_some_iff.2 ⟨h, rfl⟩]; rfl

/-! ## Taking apart -/

theorem IsCount.isDigit {digits : List Char} {n : Nat} (h : IsCount digits n) :
    ∀ c ∈ digits, c.isDigit = true := by
  cases h with
  | missing => exact nofun
  | digits h => exact h.isDigit

theorem IsBonus.head_not_digit {cs : List Char} {n : Int} (h : IsBonus cs n) :
    ∀ c ∈ cs.head?, c.isDigit = false := by
  cases h with
  | missing => exact nofun
  | plus _ => rintro _ ⟨⟩; rfl
  | minus _ => rintro _ ⟨⟩; rfl

theorem IsCount.le {digits : List Char} {n : Nat} (h : IsCount digits n) : n ≤ 999999999 := by
  cases h with
  | missing => decide
  | digits h => exact h.value_le

theorem IsBonus.natAbs_le {cs : List Char} {n : Int} (h : IsBonus cs n) :
    n.natAbs ≤ 999999999 := by
  cases h with
  | missing => decide
  | plus h => rw [Int.natAbs_natCast]; exact h.value_le
  | minus h => rw [Int.natAbs_neg, Int.natAbs_natCast]; exact h.value_le

theorem letter_not_digit {letter : Char} (h : letter = 'd' ∨ letter = 'D') :
    letter.isDigit = false := by
  rcases h with rfl | rfl <;> rfl

/-- The parts are kept apart by where the runs of digits end. -/
structure Parts.Separated (p : Parts) : Prop where
  count : ∀ c ∈ p.count, c.isDigit = true
  letter : p.letter.isDigit = false
  sides : ∀ c ∈ p.sides, c.isDigit = true
  bonus : ∀ c ∈ p.bonus.head?, c.isDigit = false

theorem Parts.Denotes.separated {p : Parts} {e : Expression} (h : p.Denotes e) : p.Separated :=
  ⟨h.count.isDigit, letter_not_digit h.letter, h.sides.isDigit, h.bonus.head_not_digit⟩

/-- The parts are found again in the text that they make. -/
theorem Parts.Separated.runs {p : Parts} (h : p.Separated) :
    p.chars.takeWhile Char.isDigit = p.count ∧
    p.chars.dropWhile Char.isDigit = p.letter :: (p.sides ++ p.bonus) ∧
    (p.sides ++ p.bonus).takeWhile Char.isDigit = p.sides ∧
    (p.sides ++ p.bonus).dropWhile Char.isDigit = p.bonus := by
  have hletter : ∀ c ∈ (p.letter :: (p.sides ++ p.bonus)).head?, c.isDigit = false := by
    rintro _ ⟨⟩
    exact h.letter
  exact ⟨takeWhile_digits h.count hletter, dropWhile_digits h.count hletter,
    takeWhile_digits h.sides h.bonus, dropWhile_digits h.sides h.bonus⟩

theorem Parts.Separated.unique {p q : Parts} (hp : p.Separated) (hq : q.Separated)
    (h : p.chars = q.chars) : p = q := by
  obtain ⟨hpcount, hprest, hpsides, hpbonus⟩ := hp.runs
  obtain ⟨hqcount, hqrest, hqsides, hqbonus⟩ := hq.runs
  rw [h] at hpcount hprest
  obtain ⟨hletter, htail⟩ := List.cons.inj (hprest.symm.trans hqrest)
  rw [htail] at hpsides hpbonus
  exact Parts.ext (hpcount.symm.trans hqcount) hletter (hpsides.symm.trans hqsides)
    (hpbonus.symm.trans hqbonus)

theorem Parts.Separated.eq_of_text {p q : Parts} (hp : p.Separated) (hq : q.Separated)
    (h : p.text = q.text) : p = q :=
  hp.unique hq (String.ofList_injective h)

theorem ofChars?_eq_some_iff {cs : List Char} {e : Expression} :
    ofChars? cs = some e ↔ ∃ p : Parts, p.chars = cs ∧ p.Denotes e := by
  constructor
  · intro h
    unfold ofChars? at h
    split at h
    · cases h
    · rename_i letter tail hdrop
      split at h
      · rename_i hletter
        split at h
        · rename_i count sides bonus hcount hsides hbonus
          cases h
          obtain ⟨hshort, hvalue⟩ := short?_eq_some_iff.1 hsides
          refine ⟨⟨cs.takeWhile Char.isDigit, letter, tail.takeWhile Char.isDigit,
            tail.dropWhile Char.isDigit⟩, ?_, count?_eq_some_iff.1 hcount, hletter, hshort, hvalue,
            bonus?_eq_some_iff.1 hbonus⟩
          rw [Parts.chars, List.takeWhile_append_dropWhile, ← hdrop,
            List.takeWhile_append_dropWhile]
        · cases h
      · cases h
  · rintro ⟨p, rfl, h⟩
    obtain ⟨hcount, hrest, hsides, hbonus⟩ := h.separated.runs
    unfold ofChars?
    rw [hrest]
    simp only
    rw [if_pos h.letter, hcount, hsides, hbonus, count?_eq_some_iff.2 h.count,
      short?_eq_some_iff.2 ⟨h.sides, h.sides_eq⟩, bonus?_eq_some_iff.2 h.bonus]

theorem ofChars?_toList_eq_some_iff {t : String} {e : Expression} :
    ofChars? t.toList = some e ↔ ∃ p : Parts, p.text = t ∧ p.Denotes e := by
  rw [ofChars?_eq_some_iff]
  constructor
  · rintro ⟨p, hp, h⟩
    exact ⟨p, by rw [Parts.text, hp, String.ofList_toList], h⟩
  · rintro ⟨p, rfl, h⟩
    exact ⟨p, by rw [Parts.text, String.toList_ofList], h⟩

theorem Parts.Denotes.eq_of_text {p q : Parts} {e f : Expression} (hp : p.Denotes e)
    (h : p.text = q.text) (hq : q.Denotes f) : p = q ∧ e = f := by
  refine ⟨hp.separated.eq_of_text hq.separated h, ?_⟩
  have hread := ofChars?_toList_eq_some_iff.2 ⟨p, h, hp⟩
  rw [ofChars?_toList_eq_some_iff.2 ⟨q, rfl, hq⟩] at hread
  exact (Option.some.inj hread).symm

theorem exists_parts_iff {t : String} {P : Expression → Prop} :
    (∃ (p : Parts) (e : Expression), p.text = t ∧ p.Denotes e ∧ P e) ↔
      ∃ e, ofChars? t.toList = some e ∧ P e := by
  constructor
  · rintro ⟨p, e, hp, h, he⟩
    exact ⟨e, ofChars?_toList_eq_some_iff.2 ⟨p, hp, h⟩, he⟩
  · rintro ⟨e, h, he⟩
    obtain ⟨p, hp, hd⟩ := ofChars?_toList_eq_some_iff.1 h
    exact ⟨p, e, hp, hd, he⟩

end Expression

/-! ## Parsing -/

namespace DieSpec

open Expression

section Parse

variable {t : String} {e : Expression}

theorem parse_of_none (h : ofChars? t.toList = none) :
    parse (some t) = .error ⟨.malformed, some t⟩ := by
  simp only [parse, Option.bind_some, h]

theorem parse_of_zero_count (h : ofChars? t.toList = some e) (hc : e.count = 0) :
    parse (some t) = .error ⟨.zeroCount, some t⟩ := by
  simp only [parse, Option.bind_some, h, dif_pos hc]

theorem parse_of_bad_sides (h : ofChars? t.toList = some e) (hc : 1 ≤ e.count)
    (hs : ¬ (2 ≤ e.sides ∧ e.sides ≤ 255)) :
    parse (some t) = .error ⟨.sidesOutOfRange, some t⟩ := by
  have hc' : ¬ e.count = 0 := by omega
  simp only [parse, Option.bind_some, h, dif_neg hc']
  exact dif_neg hs

theorem parse_of_good (h : ofChars? t.toList = some e) (hc : 1 ≤ e.count) (hmin : 2 ≤ e.sides)
    (hmax : e.sides ≤ 255) :
    parse (some t) = .ok ⟨e.count, e.sides, e.bonus, hc, hmin, hmax⟩ := by
  have hc' : ¬ e.count = 0 := by omega
  simp only [parse, Option.bind_some, h, dif_neg hc']
  exact dif_pos ⟨hmin, hmax⟩

end Parse

/-- The numbers of a specification. -/
def expression (spec : DieSpec) : Expression :=
  ⟨spec.count, spec.sides, spec.bonus⟩

/-- Whether the numbers of a specification have at most nine digits, as in an expression. -/
structure Fits (spec : DieSpec) : Prop where
  count_le : spec.count ≤ 999999999
  natAbs_bonus_le : spec.bonus.natAbs ≤ 999999999

theorem exists_parts_of_parse {t : String} {spec : DieSpec} (h : parse (some t) = .ok spec) :
    ∃ p : Parts, p.text = t ∧ p.Denotes spec.expression := by
  cases hread : ofChars? t.toList with
  | none => rw [parse_of_none hread] at h; cases h
  | some e =>
    by_cases hc : e.count = 0
    · rw [parse_of_zero_count hread hc] at h; cases h
    have hc' : 1 ≤ e.count := by omega
    by_cases hs : 2 ≤ e.sides ∧ e.sides ≤ 255
    · rw [parse_of_good hread hc' hs.1 hs.2] at h
      cases h
      exact ofChars?_toList_eq_some_iff.1 hread
    · rw [parse_of_bad_sides hread hc' hs] at h; cases h

theorem fits_of_parse {t : String} {spec : DieSpec} (h : parse (some t) = .ok spec) :
    spec.Fits := by
  obtain ⟨p, -, hp⟩ := exists_parts_of_parse h
  exact ⟨hp.count.le, hp.bonus.natAbs_le⟩

theorem ofInts_self (spec : DieSpec) :
    ofInts spec.count spec.sides spec.bonus = .ok spec := by
  have hcount := spec.one_le_count
  have hmin := spec.minSides_le
  have hmax := spec.le_maxSides
  rw [ofInts, dif_neg (by omega), dif_pos ⟨by omega, by omega⟩]
  rfl

/-- What a text is read as: the grammar decides whether it is an expression, a zero count is
looked for before unusable sides, and a fault carries the text it was found in. -/
theorem parse_classifies (t : String) :
    (∀ spec, parse (some t) = .ok spec ↔
      ∃ (p : Parts) (e : Expression), p.text = t ∧ p.Denotes e ∧
        (1 ≤ e.count ∧ 2 ≤ e.sides ∧ e.sides ≤ 255) ∧
        spec.count = e.count ∧ spec.sides = e.sides ∧ spec.bonus = e.bonus) ∧
    (parse (some t) = .error ⟨.zeroCount, some t⟩ ↔
      ∃ (p : Parts) (e : Expression), p.text = t ∧ p.Denotes e ∧ e.count = 0) ∧
    (parse (some t) = .error ⟨.sidesOutOfRange, some t⟩ ↔
      ∃ (p : Parts) (e : Expression), p.text = t ∧ p.Denotes e ∧
        1 ≤ e.count ∧ ¬ (2 ≤ e.sides ∧ e.sides ≤ 255)) ∧
    (parse (some t) = .error ⟨.malformed, some t⟩ ↔
      ¬ ∃ (p : Parts) (e : Expression), p.text = t ∧ p.Denotes e) ∧
    (∀ (p q : Parts) (e f : Expression), p.text = t → p.Denotes e → q.text = t → q.Denotes f →
      p = q ∧ e = f) ∧
    ((∃ spec, parse (some t) = .ok spec ∧
        ofInts spec.count spec.sides spec.bonus = .ok spec) ∨
      ∃ fault, parse (some t) = .error ⟨fault, some t⟩) := by
  have hunique : ∀ (p q : Parts) (e f : Expression), p.text = t → p.Denotes e → q.text = t →
      q.Denotes f → p = q ∧ e = f := fun _ _ _ _ hp he hq hf => he.eq_of_text (hp.trans hq.symm) hf
  have hshape : (∃ (p : Parts) (e : Expression), p.text = t ∧ p.Denotes e) ↔
      ∃ e, ofChars? t.toList = some e := by
    simpa using exists_parts_iff (t := t) (P := fun _ => True)
  simp only [exists_parts_iff, hshape]
  cases h : ofChars? t.toList with
  | none =>
    have hparse := parse_of_none h
    exact ⟨by simp [hparse], by simp [hparse], by simp [hparse], by simp [hparse], hunique,
      .inr ⟨_, hparse⟩⟩
  | some e =>
    by_cases hc : e.count = 0
    · have hparse := parse_of_zero_count h hc
      exact ⟨by simp [hparse, hc], by simp [hparse, hc], by simp [hparse, hc], by simp [hparse],
        hunique, .inr ⟨_, hparse⟩⟩
    have hc' : 1 ≤ e.count := by omega
    by_cases hs : 2 ≤ e.sides ∧ e.sides ≤ 255
    · have hparse := parse_of_good h hc' hs.1 hs.2
      refine ⟨fun spec => ?_, by simp [hparse, hc], by simp [hparse, hs.1, hs.2], by simp [hparse],
        hunique, .inl ⟨_, hparse, ofInts_self _⟩⟩
      rw [hparse]
      constructor
      · rintro ⟨⟩
        exact ⟨e, rfl, ⟨hc', hs⟩, rfl, rfl, rfl⟩
      · rintro ⟨f, ⟨⟩, -, hcount, hsides, hbonus⟩
        exact congrArg Except.ok (DieSpec.ext hcount.symm hsides.symm hbonus.symm)
    · have hparse := parse_of_bad_sides h hc' hs
      exact ⟨by simp [hparse]; omega, by simp [hparse, hc], by simp [hparse]; omega,
        by simp [hparse], hunique, .inr ⟨_, hparse⟩⟩

/-- Leading zeros, a capital letter and a negative bonus. -/
theorem parse_classifies_leading_zeros :
    let parts : Parts := ⟨['0', '0', '7'], 'D', ['2', '0'], ['-', '3']⟩
    parse (some "007D20-3") = .ok ⟨7, 20, -3, by decide, by decide, by decide⟩ ∧
      ∀ (q : Parts) (f : Expression), q.text = "007D20-3" → q.Denotes f → parts = q := by
  intro parts
  have htext : parts.text = "007D20-3" := by decide
  have hdenotes : parts.Denotes ⟨7, 20, -3⟩ :=
    ⟨.digits ⟨List.all_eq_true.1 rfl, by decide, by decide⟩, .inr rfl,
      ⟨List.all_eq_true.1 rfl, by decide, by decide⟩, rfl,
      .minus ⟨List.all_eq_true.1 rfl, by decide, by decide⟩⟩
  obtain ⟨hok, -, -, -, hunique, -⟩ := parse_classifies "007D20-3"
  exact ⟨(hok _).2 ⟨parts, _, htext, hdenotes, by decide, rfl, rfl, rfl⟩,
    fun q f hq hf => (hunique parts q _ f htext hdenotes hq hf).1⟩

end DieSpec
end Croupier
