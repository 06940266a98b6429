import Croupier.Message.Chunks

/-!
# Croupier.Proofs.Text.Lines

The lines of a text, and texts that are one line. Splitting at a character leaves pieces without
it, so lines hold no newline.
-/

namespace Croupier

theorem eq_false_of_mem_splitOnP {α : Type} {p : α → Bool} {xs piece : List α}
    (h : piece ∈ xs.splitOnP p) : ∀ x ∈ piece, p x = false := by
  induction xs generalizing piece with
  | nil =>
    rw [List.splitOnP_nil, List.mem_singleton] at h
    rw [h]
    exact nofun
  | cons x xs ih =>
    rw [List.splitOnP_cons_eq_if_modifyHead] at h
    split at h
    · rcases List.mem_cons.1 h with rfl | h
      · exact nofun
      · exact ih h
    · rename_i hx
      obtain ⟨first, rest, hs⟩ := List.exists_cons_of_ne_nil (List.splitOnP_ne_nil p xs)
      rw [hs, List.modifyHead_cons] at h
      rcases List.mem_cons.1 h with rfl | h
      · intro y hy
        rcases List.mem_cons.1 hy with rfl | hy
        · exact Bool.eq_false_iff.2 hx
        · exact ih (hs ▸ List.mem_cons_self) y hy
      · exact ih (hs ▸ List.mem_cons_of_mem first h)

namespace Message

theorem newline_notMem_of_mem_lines {text : String} {line : List Char} (h : line ∈ lines text) :
    '\n' ∉ line := fun hmem => by
  simpa using eq_false_of_mem_splitOnP h '\n' hmem

theorem intercalate_lines (text : String) : ['\n'].intercalate (lines text) = text.toList :=
  List.intercalate_splitOn '\n'

theorem lines_ne_nil (text : String) : lines text ≠ [] :=
  List.splitOn_ne_nil _ _

end Message

/-- A text without a certain character. -/
def Avoids (c : Char) (s : String) : Prop :=
  c ∉ s.toList

/-- The characters of numbers. -/
def Numeral.isMark (c : Char) : Bool :=
  c.isDigit || c = '+' || c = '-'

namespace Avoids

instance (c : Char) (s : String) : Decidable (Avoids c s) :=
  inferInstanceAs (Decidable (c ∉ s.toList))

variable {c : Char} {s t : String}

theorem append (hs : Avoids c s) (ht : Avoids c t) : Avoids c (s ++ t) := by
  rw [Avoids, String.toList_append, List.mem_append, not_or]
  exact ⟨hs, ht⟩

theorem intercalate {sep : String} {parts : List String} (hsep : Avoids c sep)
    (hparts : ∀ s ∈ parts, Avoids c s) : Avoids c (sep.intercalate parts) := by
  induction parts with
  | nil => simp [Avoids]
  | cons s parts ih =>
    have hs := hparts s List.mem_cons_self
    have htail := ih fun t ht => hparts t (List.mem_cons_of_mem s ht)
    cases parts with
    | nil => simpa using hs
    | cons t parts =>
      rw [String.intercalate_cons_cons]
      exact (hs.append hsep).append htail

theorem ite {p : Prop} [Decidable p] (hs : Avoids c s) (ht : Avoids c t) :
    Avoids c (if p then s else t) := by
  split
  · exact hs
  · exact ht

section Number

variable (hc : Numeral.isMark c = false)
include hc

theorem repr (n : Nat) : Avoids c (Nat.repr n) := by
  intro hmem
  rw [Nat.toList_repr] at hmem
  have hdigit := Nat.isDigit_of_mem_toDigits (by decide) (by decide) hmem
  simp [Numeral.isMark, hdigit] at hc

theorem sign (sign : Char) (hsign : Numeral.isMark sign = true) :
    Avoids c (String.singleton sign) := by
  intro hmem
  rw [String.toList_singleton, List.mem_singleton] at hmem
  rw [hmem, hsign] at hc
  cases hc

theorem ofInt (n : Int) : Avoids c (Numeral.ofInt n) :=
  append (ite (sign hc '-' rfl) nofun) (repr hc _)

theorem signed (n : Int) : Avoids c (Numeral.signed n) :=
  append (ite (sign hc '-' rfl) (sign hc '+' rfl)) (repr hc _)

theorem twoPlaces (n : Int) : Avoids c (Numeral.twoPlaces n) :=
  ite (append (sign hc '0' rfl) (ofInt hc n)) (ofInt hc n)

end Number

end Avoids

/-- A text without newlines. -/
def OneLine (s : String) : Prop :=
  '\n' ∉ s.toList

namespace OneLine

instance (s : String) : Decidable (OneLine s) :=
  inferInstanceAs (Decidable ('\n' ∉ s.toList))

theorem append {s t : String} (hs : OneLine s) (ht : OneLine t) : OneLine (s ++ t) :=
  Avoids.append hs ht

end OneLine

/-- The lines of one-line texts that are joined by newlines are these texts. -/
theorem Message.lines_intercalate {texts : List String} (hne : texts ≠ [])
    (h : ∀ s ∈ texts, OneLine s) :
    lines ("\n".intercalate texts) = texts.map String.toList := by
  rw [lines, String.toList_intercalate]
  refine List.splitOn_intercalate '\n' (fun line hline => ?_) (by simpa using hne)
  obtain ⟨s, hs, rfl⟩ := List.mem_map.1 hline
  exact h s hs

end Croupier
