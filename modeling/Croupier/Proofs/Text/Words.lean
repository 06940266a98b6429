import Croupier.Proofs.Text.Lines
import Croupier.Text.Blank

/-!
# Croupier.Proofs.Text.Words

The words of a text. A word has a character and no blank, and texts that are joined by spaces have
the words of their parts: `words_intercalate`.
-/

namespace Croupier
namespace Text

theorem not_isBlank_of_isMark {c : Char} (h : Numeral.isMark c = true) : isBlank c = false := by
  simp only [Numeral.isMark, Bool.or_eq_true, decide_eq_true_eq] at h
  rcases h with (hdigit | rfl) | rfl
  · have hrange : 48 ≤ c.toNat ∧ c.toNat ≤ 57 := Char.isDigit_iff_toNat.1 hdigit
    simp [isBlank]
    omega
  · rfl
  · rfl

/-- At least one character, and no blank. -/
structure IsWord (w : String) : Prop where
  ne_empty : w ≠ ""
  not_blank : ∀ c ∈ w.toList, isBlank c = false

theorem isWord_of_mem_words {s w : String} (h : w ∈ words s) : IsWord w := by
  obtain ⟨cs, hcs, rfl⟩ := List.mem_map.1 h
  obtain ⟨hpiece, hne⟩ := List.mem_filter.1 hcs
  refine ⟨?_, ?_⟩
  · intro hempty
    rw [String.ofList_eq_empty_iff.1 hempty] at hne
    cases hne
  · rw [String.toList_ofList]
    exact eq_false_of_mem_splitOnP hpiece

theorem words_of_isWord {w : String} (h : IsWord w) : words w = [w] := by
  have hne : w.toList ≠ [] := fun hnil => h.ne_empty (String.toList_eq_nil_iff.1 hnil)
  rw [words, List.splitOnP_eq_singleton h.not_blank]
  simp [hne]

theorem words_append (a b : String) : words (a ++ " " ++ b) = words a ++ words b := by
  have hchars : (a ++ " " ++ b).toList = a.toList ++ ' ' :: b.toList := by simp
  rw [words, hchars, List.splitOnP_append_cons _ _ (by decide), List.filter_append, List.map_append]
  rfl

theorem words_intercalate (parts : List String) :
    words (" ".intercalate parts) = parts.flatMap words := by
  induction parts with
  | nil => rfl
  | cons a parts ih =>
    cases parts with
    | nil => simp
    | cons b parts => rw [String.intercalate_cons_cons, words_append, ih, ← List.flatMap_cons]

theorem flatMap_words {ws : List String} (h : ∀ w ∈ ws, IsWord w) : ws.flatMap words = ws := by
  induction ws with
  | nil => rfl
  | cons w ws ih =>
    obtain ⟨hw, hws⟩ := List.forall_mem_cons.1 h
    rw [List.flatMap_cons, words_of_isWord hw, ih hws, List.singleton_append]

end Text

theorem Avoids.word {c : Char} {s w : String} (hc : Text.isBlank c = true)
    (h : w ∈ Text.words s) : Avoids c w := by
  intro hmem
  have hblank := (Text.isWord_of_mem_words h).not_blank c hmem
  rw [hc] at hblank
  cases hblank

end Croupier
