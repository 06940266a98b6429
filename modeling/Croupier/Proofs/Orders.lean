import Croupier.Order
import Croupier.Proofs.Dice.Headers
import Croupier.Proofs.Text.Words
import Mathlib.Data.List.Forall2

/-!
# Croupier.Proofs.Orders

Which order a command line makes. The words in front are taken as long as they are expressions
within the cap, and the words from the first that is none are the label; written back, an order
makes itself.

* `accept?_eq_some_iff`: the words that are taken.
* `ofArgs_of_words`, `ofArgs_of_isLabel`: the order that accepted words and a label make, and what
  becomes of a label alone.
* `ofArgs_line`: an order written back.
* `ofArgs_longest_run`: any line.
-/

namespace Croupier

theorem isWord_of_mem_commandWords {args : Option String} {w : String}
    (h : w ∈ commandWords args) : Text.IsWord w := by
  cases args with
  | none => cases h
  | some line => exact Text.isWord_of_mem_words h

theorem Text.isWord_shorthand (spec : DieSpec) : IsWord spec.shorthand := by
  refine ⟨spec.shorthand_ne_empty, ?_⟩
  intro c hc
  cases hmark : Numeral.isMark c with
  | true => exact not_isBlank_of_isMark hmark
  | false =>
    have hletter : c = 'd' := by
      by_contra hd
      exact spec.avoids_shorthand hmark hd hc
    rw [hletter]
    rfl

namespace DiceOrder

/-! ## Words that are taken -/

/-- The word is an expression within the cap. -/
def Expresses (cap : Option Int) (word : String) (spec : DieSpec) : Prop :=
  DieSpec.parse (some word) = .ok spec ∧ ∀ n ∈ cap, (spec.count : Int) ≤ n

theorem withinCap_iff {cap : Option Int} {spec : DieSpec} :
    withinCap cap spec = true ↔ ∀ n ∈ cap, (spec.count : Int) ≤ n := by
  cases cap <;> simp [withinCap]

theorem accept?_eq_some_iff {cap : Option Int} {word : String} {spec : DieSpec} :
    accept? cap word = some spec ↔ Expresses cap word spec := by
  rw [accept?, Expresses, ← withinCap_iff]
  cases DieSpec.parse (some word) with
  | error e => simp
  | ok found =>
    constructor
    · intro h
      simp only at h
      split at h
      · rename_i hcap
        cases h
        exact ⟨rfl, hcap⟩
      · cases h
    · rintro ⟨⟨⟩, hcap⟩
      exact if_pos hcap

/-- All words are expressions within the cap. -/
def Accepted (cap : Option Int) (words : List String) : Prop :=
  ∀ word ∈ words, (accept? cap word).isSome

/-- No words, or words of which the first is not taken for an expression. -/
def IsLabel (cap : Option Int) (words : List String) : Prop :=
  ∀ word ∈ words.head?, accept? cap word = none

instance (cap : Option Int) (words : List String) : Decidable (Accepted cap words) :=
  inferInstanceAs (Decidable (∀ word ∈ words, _))

instance (cap : Option Int) (words : List String) : Decidable (IsLabel cap words) :=
  inferInstanceAs (Decidable (∀ word ∈ words.head?, _))

section Words

variable {cap : Option Int} {words front rest : List String}

theorem accepted_iff : Accepted cap words ↔ ∀ w ∈ words, ∃ spec, Expresses cap w spec := by
  simp only [Accepted, Option.isSome_iff_exists, accept?_eq_some_iff]

theorem take_of_isLabel (h : IsLabel cap rest) : take cap rest = ([], rest) := by
  cases rest with
  | nil => rfl
  | cons word rest => rw [take, h word rfl]

theorem take_append (h : Accepted cap words) (rest : List String) :
    take cap (words ++ rest) =
      (words.filterMap (accept? cap) ++ (take cap rest).1, (take cap rest).2) := by
  induction words with
  | nil => rfl
  | cons word words ih =>
    obtain ⟨spec, hspec⟩ := Option.isSome_iff_exists.1 (h word List.mem_cons_self)
    have htail := ih fun w hw => h w (List.mem_cons_of_mem word hw)
    rw [List.cons_append, take, hspec, htail, List.filterMap_cons_some hspec]
    rfl

theorem forall₂_filterMap_accept? (h : Accepted cap words) :
    List.Forall₂ (Expresses cap) words (words.filterMap (accept? cap)) := by
  induction words with
  | nil => exact .nil
  | cons word words ih =>
    obtain ⟨hword, hwords⟩ := List.forall_mem_cons.1 h
    obtain ⟨spec, hspec⟩ := Option.isSome_iff_exists.1 hword
    rw [List.filterMap_cons_some hspec]
    exact .cons (accept?_eq_some_iff.1 hspec) (ih hwords)

theorem filterMap_accept?_ne_nil (h : Accepted cap words) (hne : words ≠ []) :
    words.filterMap (accept? cap) ≠ [] := by
  intro hnil
  have hall := forall₂_filterMap_accept? h
  rw [hnil] at hall
  exact hne (List.forall₂_nil_right_iff.1 hall)

/-- Every line falls into words that are taken and a label. -/
theorem exists_front (cap : Option Int) (words : List String) :
    ∃ front rest, words = front ++ rest ∧ Accepted cap front ∧ IsLabel cap rest := by
  induction words with
  | nil => exact ⟨[], [], rfl, List.forall_mem_nil _, nofun⟩
  | cons word words ih =>
    cases hword : accept? cap word with
    | none =>
      refine ⟨[], word :: words, rfl, List.forall_mem_nil _, ?_⟩
      rintro _ ⟨⟩
      exact hword
    | some spec =>
      obtain ⟨front, rest, rfl, hfront, hrest⟩ := ih
      have haccepted : (accept? cap word).isSome := Option.isSome_of_eq_some hword
      exact ⟨word :: front, rest, rfl, List.forall_mem_cons.2 ⟨haccepted, hfront⟩, hrest⟩

theorem exists_word_of_mem_take {spec : DieSpec} (h : spec ∈ (take cap words).1) :
    ∃ word ∈ words, accept? cap word = some spec := by
  obtain ⟨front, rest, rfl, hfront, hrest⟩ := exists_front cap words
  rw [take_append hfront, take_of_isLabel hrest, List.append_nil] at h
  obtain ⟨word, hmem, hword⟩ := List.mem_filterMap.1 h
  exact ⟨word, List.mem_append_left rest hmem, hword⟩

/-! ## Orders -/

theorem ofArgs_of_words {args : Option String} (h : Accepted cap words) (hne : words ≠ [])
    (hrest : IsLabel cap rest) (hargs : commandWords args = words ++ rest) :
    ofArgs cap args = .order ⟨words.filterMap (accept? cap), labelOf rest⟩ := by
  obtain ⟨spec, specs, hspecs⟩ := List.exists_cons_of_ne_nil (filterMap_accept?_ne_nil h hne)
  rw [ofArgs, hargs, take_append h, take_of_isLabel hrest, List.append_nil, hspecs]

theorem ofArgs_of_isLabel {args : Option String} (h : IsLabel cap (commandWords args)) :
    ofArgs cap args =
      match commandWords args with
      | [] => .nothing
      | word :: _ => .refused word := by
  rw [ofArgs, take_of_isLabel h]
  cases commandWords args <;> rfl

theorem ne_order_of_isLabel {args : Option String} (h : IsLabel cap (commandWords args))
    (order : DiceOrder) : ofArgs cap args ≠ .order order := by
  rw [ofArgs_of_isLabel h]
  cases commandWords args <;> exact nofun

theorem records_of_isLabel {args : Option String} (h : IsLabel cap (commandWords args)) :
    (ofArgs cap args).records = (commandWords args).head?.toList.map passedOver := by
  rw [ofArgs_of_isLabel h]
  cases commandWords args <;> rfl

theorem exists_order_iff (cap : Option Int) (args : Option String) :
    (∃ order, ofArgs cap args = .order order) ↔
      ∃ word ∈ (commandWords args).head?, (accept? cap word).isSome := by
  rw [ofArgs]
  cases commandWords args with
  | nil => simp [take]
  | cons word words => cases h : accept? cap word <;> simp [take, h]

/-! ## The longest run -/

/-- `k` words in front are expressions within the cap, and no greater number of them is. -/
structure IsLongestRun (cap : Option Int) (words : List String) (k : Nat) : Prop where
  le_length : k ≤ words.length
  expresses : ∀ word ∈ words.take k, ∃ spec, Expresses cap word spec
  longest : ∀ j ≤ words.length, (∀ word ∈ words.take j, ∃ spec, Expresses cap word spec) → j ≤ k

theorem isLongestRun_append (hfront : Accepted cap front) (hrest : IsLabel cap rest) :
    IsLongestRun cap (front ++ rest) front.length := by
  refine ⟨?_, ?_, ?_⟩
  · rw [List.length_append]
    omega
  · rw [List.take_left]
    exact accepted_iff.1 hfront
  · intro j hj hwords
    by_contra hlonger
    cases rest with
    | nil => rw [List.append_nil] at hj; omega
    | cons word rest =>
      -- a longer run would take the first word of the label too
      have hmem : word ∈ (front ++ word :: rest).take j := by
        rw [List.take_append, List.mem_append]
        obtain ⟨i, hi⟩ : ∃ i, j - front.length = i + 1 := ⟨j - front.length - 1, by omega⟩
        rw [hi, List.take_succ_cons]
        exact .inr List.mem_cons_self
      obtain ⟨spec, hspec⟩ := hwords word hmem
      rw [← accept?_eq_some_iff, hrest word rfl] at hspec
      cases hspec

/-! ## Writing back -/

/-- The line that an order is written as, if there are headers for its dice. -/
def line? (order : DiceOrder) : Option String :=
  (order.specs.mapM DieSpec.header?).map fun headers =>
    " ".intercalate (headers ++ order.label.toList)

theorem mapM_header? {specs : List DieSpec} (h : ∀ spec ∈ specs, spec.Fits) :
    specs.mapM DieSpec.header? = some (specs.map DieSpec.shorthand) := by
  induction specs with
  | nil => rfl
  | cons spec specs ih =>
    obtain ⟨hspec, hspecs⟩ := List.forall_mem_cons.1 h
    rw [List.mapM_cons, DieSpec.header?_of_fits hspec, ih hspecs]
    rfl

theorem words_labelOf (h : ∀ w ∈ rest, Text.IsWord w) :
    (labelOf rest).toList.flatMap Text.words = rest := by
  rw [labelOf]
  split
  · rename_i hnil
    rw [List.isEmpty_iff.1 hnil]
    rfl
  · rw [Option.toList_some, List.flatMap_singleton, Text.words_intercalate, Text.flatMap_words h]

theorem words_intercalate_shorthand {specs : List DieSpec} (h : ∀ w ∈ rest, Text.IsWord w) :
    Text.words (" ".intercalate (specs.map DieSpec.shorthand ++ (labelOf rest).toList)) =
      specs.map DieSpec.shorthand ++ rest := by
  have hheaders : ∀ w ∈ specs.map DieSpec.shorthand, Text.IsWord w := by
    intro w hw
    obtain ⟨spec, -, rfl⟩ := List.mem_map.1 hw
    exact Text.isWord_shorthand spec
  rw [Text.words_intercalate, List.flatMap_append, Text.flatMap_words hheaders, words_labelOf h]

theorem accept?_shorthand {word : String} {spec : DieSpec} (h : accept? cap word = some spec) :
    spec.Fits ∧ accept? cap spec.shorthand = some spec := by
  obtain ⟨hparse, hcap⟩ := accept?_eq_some_iff.1 h
  have hfits := DieSpec.fits_of_parse hparse
  exact ⟨hfits, accept?_eq_some_iff.2 ⟨DieSpec.parse_shorthand_of_fits hfits, hcap⟩⟩

theorem filterMap_accept?_shorthand {specs : List DieSpec}
    (h : ∀ spec ∈ specs, accept? cap spec.shorthand = some spec) :
    (specs.map DieSpec.shorthand).filterMap (accept? cap) = specs := by
  induction specs with
  | nil => rfl
  | cons spec specs ih =>
    obtain ⟨hspec, hspecs⟩ := List.forall_mem_cons.1 h
    rw [List.map_cons, List.filterMap_cons_some hspec, ih hspecs]

/-- An order that is written back makes itself again. -/
theorem ofArgs_line (hfront : Accepted cap front) (hne : front ≠ []) (hrest : IsLabel cap rest)
    (hwords : ∀ w ∈ rest, Text.IsWord w) :
    let order : DiceOrder := ⟨front.filterMap (accept? cap), labelOf rest⟩
    ∃ line, order.line? = some line ∧ ofArgs cap (some line) = .order order := by
  intro order
  have hheaders : ∀ spec ∈ order.specs, spec.Fits ∧ accept? cap spec.shorthand = some spec := by
    intro spec hspec
    obtain ⟨word, -, hword⟩ := List.mem_filterMap.1 hspec
    exact accept?_shorthand hword
  have haccepted : Accepted cap (order.specs.map DieSpec.shorthand) := by
    intro w hw
    obtain ⟨spec, hspec, rfl⟩ := List.mem_map.1 hw
    exact Option.isSome_of_eq_some (hheaders spec hspec).2
  have hnonempty : order.specs.map DieSpec.shorthand ≠ [] := by
    intro hnil
    exact filterMap_accept?_ne_nil hfront hne (List.map_eq_nil_iff.1 hnil)
  let line := " ".intercalate (order.specs.map DieSpec.shorthand ++ order.label.toList)
  have hline : order.line? = some line := by
    rw [line?, mapM_header? fun spec hspec => (hheaders spec hspec).1]
    rfl
  have hagain : commandWords (some line) = order.specs.map DieSpec.shorthand ++ rest :=
    words_intercalate_shorthand hwords
  refine ⟨line, hline, ?_⟩
  rw [ofArgs_of_words haccepted hnonempty hrest hagain,
    filterMap_accept?_shorthand fun spec hspec => (hheaders spec hspec).2]

end Words

/-- What a command line is taken for under a cap. The words in front that are expressions within
the cap are the dice, in order, and all others are the label; without dice there is no order, and a
record of the first word if there is one. An order that is written back is taken for itself. -/
theorem ofArgs_longest_run (cap : Option Int) (args : Option String) :
    ∃ k, IsLongestRun cap (commandWords args) k ∧
      ((∀ order, ofArgs cap args ≠ .order order) ↔ k = 0) ∧
      (k = 0 → (ofArgs cap args).records =
        (commandWords args).head?.toList.map passedOver) ∧
      ∀ order, ofArgs cap args = .order order →
        (ofArgs cap args).records = [] ∧
        List.Forall₂ (Expresses cap) ((commandWords args).take k) order.specs ∧
        (order.label = none ↔ k = (commandWords args).length) ∧
        (∀ label ∈ order.label, label = " ".intercalate ((commandWords args).drop k)) ∧
        ∃ line, order.line? = some line ∧ ofArgs cap (some line) = .order order := by
  obtain ⟨front, rest, hwords, hfront, hrest⟩ := exists_front cap (commandWords args)
  have hrun := isLongestRun_append hfront hrest
  rw [← hwords] at hrun
  refine ⟨front.length, hrun, ?_⟩
  by_cases hne : front = []
  · rw [hne, List.nil_append] at hwords
    rw [← hwords] at hrest
    have hnone := ne_order_of_isLabel hrest
    rw [hne]
    refine ⟨iff_of_true hnone rfl, fun _ => records_of_isLabel hrest, ?_⟩
    intro order horder
    exact absurd horder (hnone order)
  · have hofArgs := ofArgs_of_words hfront hne hrest hwords
    have hlength : front.length ≠ 0 := fun h => hne (List.length_eq_zero_iff.1 h)
    rw [hofArgs]
    refine ⟨by simp [hlength], fun h => absurd h hlength, ?_⟩
    rintro order ⟨⟩
    have hword : ∀ w ∈ rest, Text.IsWord w := by
      intro w hw
      exact isWord_of_mem_commandWords (hwords ▸ List.mem_append_right front hw)
    rw [hwords, List.take_left, List.drop_left]
    refine ⟨rfl, forall₂_filterMap_accept? hfront, ?_, ?_, ofArgs_line hfront hne hrest hword⟩
    · simp [labelOf]
    · intro label hlabel
      simp only [labelOf] at hlabel
      split at hlabel
      · cases hlabel
      · cases hlabel
        rfl

/-- Dice over the cap begin the label, and expressions after them belong to it. -/
theorem ofArgs_longest_run_over_cap :
    let args := some "2D06  d4 30d6 d4 fire"
    IsLongestRun (some 10) (commandWords args) 2 ∧
      ∃ order, ofArgs (some 10) args = .order order ∧ order.label = some "30d6 d4 fire" ∧
        order.line? = some "2d6 1d4 30d6 d4 fire" ∧
        ofArgs (some 10) (some "2d6 1d4 30d6 d4 fire") = .order order := by
  intro args
  obtain ⟨k, hrun, -, -, horder⟩ := ofArgs_longest_run (some 10) args
  let order : DiceOrder := ⟨[⟨2, 6, 0, by decide, by decide, by decide⟩,
    ⟨1, 4, 0, by decide, by decide, by decide⟩], some "30d6 d4 fire"⟩
  have hargs : ofArgs (some 10) args = .order order := by decide
  obtain ⟨-, hall, -, -, line, hline, hback⟩ := horder order hargs
  have hwritten : order.line? = some "2d6 1d4 30d6 d4 fire" := by decide
  rw [hwritten] at hline
  cases hline
  have htwo : min k (commandWords args).length = 2 := by
    rw [← List.length_take, hall.length_eq]
    rfl
  have hle := hrun.le_length
  have hk : k = 2 := by omega
  rw [hk] at hrun
  exact ⟨hrun, order, hargs, rfl, hwritten, hback⟩

end DiceOrder

/-! ## Checks -/

/-- The first word decides. -/
theorem CheckOrder.exists_order_iff (args : Option String) :
    (∃ order, ofArgs args = .order order) ↔
      ∃ word ∈ (commandWords args).head?, ∃ target, Target.parse (some word) = .ok target := by
  rw [ofArgs]
  cases commandWords args with
  | nil => simp
  | cons word words => cases h : Target.parse (some word) <;> simp [h]

end Croupier
