import Croupier.Json.Reader
import Croupier.Proofs.Numeral.Digits

/-!
# Croupier.Proofs.Json.Reads

What the reader makes of JSON text that is put together from parts. `Reads room cs v` says that
the reader takes `cs` for the value `v`, whatever follows; there is one lemma for each way to
write a value, with gaps after the opening and before the closing bracket and after a comma.

* `Reads.int`: whole numbers.
* `Reads.array`, `ItemsRead.last`, `ItemsRead.cons`: arrays.
* `Reads.object`, `FieldsRead.last`, `FieldsRead.cons`: objects.
* `Reads.ofString`: a whole text.
-/

namespace Croupier
namespace Json

open Numeral

/-! ## Where a token starts and ends -/

/-- A value or a field starts here: no gap, and no closing bracket or brace. -/
def Starts (cs : List Char) : Prop :=
  ∃ c rest, cs = c :: rest ∧ isGap c = false ∧ c ≠ ']' ∧ c ≠ '\x7d'

/-- Nothing that a number could go on with. -/
def Stops (cs : List Char) : Prop :=
  ∀ c ∈ cs.head?, c.isDigit = false ∧ c ≠ '.' ∧ c ≠ 'e' ∧ c ≠ 'E'

def IsGaps (cs : List Char) : Prop :=
  ∀ c ∈ cs, isGap c = true

theorem isGaps_nil : IsGaps [] := List.forall_mem_nil _

theorem Starts.append {cs : List Char} (h : Starts cs) (rest : List Char) :
    Starts (cs ++ rest) := by
  obtain ⟨c, cs, rfl, hc⟩ := h
  exact ⟨c, cs ++ rest, rfl, hc⟩

theorem stops_nil : Stops [] := fun _ h => by cases h

theorem stops_cons {c : Char} {cs : List Char}
    (h : c.isDigit = false ∧ c ≠ '.' ∧ c ≠ 'e' ∧ c ≠ 'E') : Stops (c :: cs) := by
  rintro _ ⟨⟩
  exact h

/-- Gaps end a number, and so does whatever ends it after them. -/
theorem stops_gaps {gaps cs : List Char} (hgaps : IsGaps gaps) (hcs : Stops cs) :
    Stops (gaps ++ cs) := by
  cases gaps with
  | nil => exact hcs
  | cons c gaps =>
    have hc := hgaps c List.mem_cons_self
    simp only [isGap, Bool.or_eq_true, decide_eq_true_eq] at hc
    rcases hc with ((rfl | rfl) | rfl) | rfl <;> exact stops_cons (by decide)

theorem skipGap_append {gaps : List Char} (hgaps : IsGaps gaps) {c : Char}
    (hc : isGap c = false) (cs : List Char) : skipGap (gaps ++ c :: cs) = c :: cs := by
  rw [skipGap, List.dropWhile_append_of_pos hgaps]
  exact List.dropWhile_cons_of_neg (by rw [hc]; exact Bool.false_ne_true)

theorem skipGap_starts {gaps cs : List Char} (hgaps : IsGaps gaps) (hcs : Starts cs) :
    skipGap (gaps ++ cs) = cs := by
  obtain ⟨c, cs, rfl, hc, -⟩ := hcs
  exact skipGap_append hgaps hc cs

/-! ## Numbers -/

section Number

variable {n : Nat} {rest : List Char}

theorem wholePart?_toDigits (hrest : Stops rest) :
    wholePart? (Nat.toDigits 10 n ++ rest) = some (Nat.toDigits 10 n, rest) := by
  rcases Nat.eq_zero_or_pos n with rfl | hpos
  · rfl
  · have hdigits : ∀ c ∈ Nat.toDigits 10 n, c.isDigit = true :=
      fun c hc => Nat.isDigit_of_mem_toDigits (by decide) (by decide) hc
    have hrun : ∀ c ∈ rest.head?, c.isDigit = false := fun c hc => (hrest c hc).1
    have htake := takeWhile_digits hdigits hrun
    have hdrop := dropWhile_digits hdigits hrun
    obtain ⟨c, cs, hcs, -, hzero⟩ := exists_toDigits_cons n
    rw [hcs] at htake hdrop ⊢
    unfold wholePart?
    split
    · rename_i heq
      exact absurd (List.cons.inj heq).1 (hzero hpos)
    · rw [htake, hdrop]
      rfl

theorem fraction_of_stops (hrest : Stops rest) : fraction rest = ([], rest) := by
  unfold fraction
  split
  · exact absurd rfl (hrest '.' rfl).2.1
  · rfl

theorem exponent?_of_stops (hrest : Stops rest) : exponent? rest = none := by
  unfold exponent?
  split
  · exact absurd rfl (hrest 'e' rfl).2.2.1
  · exact absurd rfl (hrest 'E' rfl).2.2.2
  · rfl

theorem unsigned?_toDigits (sign : Int) (hshort : (Nat.toDigits 10 n).length ≤ maxDigits)
    (hrest : Stops rest) :
    unsigned? sign (Nat.toDigits 10 n ++ rest) = some (.int (sign * n), rest) := by
  simp only [unsigned?, wholePart?_toDigits hrest, fraction_of_stops hrest,
    exponent?_of_stops hrest, List.append_nil, value_toDigits, List.isEmpty_nil, Bool.not_true,
    Bool.false_eq_true, if_false, if_pos hshort]

theorem number?_of_isDigit {c : Char} (hc : c.isDigit = true) (cs : List Char) :
    number? (c :: cs) = unsigned? 1 (c :: cs) := by
  unfold number?
  split
  · rename_i heq
    rw [(List.cons.inj heq).1] at hc
    cases hc
  · rfl

theorem number?_minus {c : Char} (hc : c.isDigit = true) (cs : List Char) :
    number? ('-' :: c :: cs) = unsigned? (-1) (c :: cs) := by
  have hword : after? "Infinity" (c :: cs) = none := by
    have hI : 'I' ≠ c := by rintro rfl; cases hc
    rw [after?, if_neg]
    simp [List.isPrefixOf, hI]
  rw [number?, hword]

theorem number?_ofInt {n : Int} (h : isWritable n = true) (hrest : Stops rest) :
    number? ((ofInt n).toList ++ rest) = some (.int n, rest) := by
  have hshort : (Nat.toDigits 10 n.natAbs).length ≤ maxDigits := by
    rw [isWritable, decide_eq_true_iff] at h
    rwa [← Nat.toList_repr, String.length_toList]
  have hunsigned := fun sign => unsigned?_toDigits sign hshort hrest
  obtain ⟨c, cs, hcs, hdigit, -⟩ := exists_toDigits_cons n.natAbs
  rw [hcs, List.cons_append] at hunsigned
  rw [ofInt, String.toList_append, Nat.toList_repr, hcs]
  by_cases hn : n < 0
  · have habs : -1 * (n.natAbs : Int) = n := by omega
    rw [if_pos hn]
    change number? ('-' :: c :: (cs ++ rest)) = _
    rw [number?_minus hdigit, hunsigned, habs]
  · have habs : 1 * (n.natAbs : Int) = n := by omega
    rw [if_neg hn]
    change number? (c :: (cs ++ rest)) = _
    rw [number?_of_isDigit hdigit, hunsigned, habs]

/-- A number starts with a minus sign or a digit. -/
theorem exists_ofInt_cons (n : Int) :
    ∃ c cs, (ofInt n).toList = c :: cs ∧ (c = '-' ∨ c.isDigit = true) := by
  obtain ⟨c, cs, hcs, hdigit, -⟩ := exists_toDigits_cons n.natAbs
  rw [ofInt, String.toList_append, Nat.toList_repr, hcs]
  by_cases hn : n < 0
  · rw [if_pos hn]
    exact ⟨'-', c :: cs, rfl, .inl rfl⟩
  · rw [if_neg hn]
    exact ⟨c, cs, rfl, .inr hdigit⟩

end Number

theorem ne_of_number {c d : Char} (hc : c = '-' ∨ c.isDigit = true)
    (hd : ¬ (d = '-' ∨ d.isDigit = true)) : c ≠ d := by
  rintro rfl
  exact hd hc

theorem starts_of_number {c : Char} (hc : c = '-' ∨ c.isDigit = true) (cs : List Char) :
    Starts (c :: cs) := by
  refine ⟨c, cs, rfl, ?_, ne_of_number hc (by decide), ne_of_number hc (by decide)⟩
  simp only [isGap, Bool.or_eq_false_iff, decide_eq_false_iff_not]
  exact ⟨⟨⟨ne_of_number hc (by decide), ne_of_number hc (by decide)⟩,
    ne_of_number hc (by decide)⟩, ne_of_number hc (by decide)⟩

theorem value_of_number {c : Char} (hc : c = '-' ∨ c.isDigit = true) (room steps : Nat)
    (cs : List Char) : value room (steps + 1) (c :: cs) = flat (number? (c :: cs)) := by
  -- every other value starts with a character of its own
  rw [value] <;> exact fun _ heq => ne_of_number hc (by decide) (List.cons.inj heq).1

/-! ## Strings -/

/-- A string of characters that are written as they are. -/
def IsPlain (s : String) : Prop :=
  ∀ c ∈ s.toList, c ≠ '"' ∧ c ≠ '\\' ∧ 0x20 ≤ c.toNat

instance (s : String) : Decidable (IsPlain s) :=
  List.decidableBAll _ s.toList

theorem pieces_append {cs : List Char} (h : ∀ c ∈ cs, c ≠ '"' ∧ c ≠ '\\' ∧ 0x20 ≤ c.toNat)
    (acc : List Piece) (rest : List Char) :
    pieces acc (cs ++ '"' :: rest) = some (acc.reverse ++ cs.map .char, rest) := by
  induction cs generalizing acc with
  | nil => rw [List.map_nil, List.append_nil, List.nil_append, pieces]
  | cons c cs ih =>
    obtain ⟨hquote, hslash, hcontrol⟩ := h c List.mem_cons_self
    have htail := ih (fun d hd => h d (List.mem_cons_of_mem c hd)) (.char c :: acc)
    rw [List.cons_append, pieces, if_neg (Nat.not_lt.2 hcontrol), htail]
    · simp
    · exact hquote
    · exact fun _ _ _ _ _ hc _ => hslash hc
    · exact fun _ _ hc _ => hslash hc

theorem join_chars (cs : List Char) : join (cs.map .char) = cs := by
  induction cs with
  | nil => rfl
  | cons c cs ih => rw [List.map_cons, join, ih]

theorem stringTail?_of_plain {s : String} (h : IsPlain s) (rest : List Char) :
    stringTail? (s.toList ++ '"' :: rest) = some (s, rest) := by
  rw [stringTail?, pieces_append h, Option.map_some, List.reverse_nil, List.nil_append]
  simp only
  rw [join_chars, String.ofList_toList]

/-! ## What is read -/

/-- The reader takes these characters for the value, and stops after them. -/
structure Reads (room : Nat) (cs : List Char) (v : Json) : Prop where
  starts : Starts cs
  value_eq : ∀ steps rest, cs.length ≤ steps → Stops rest →
    value room steps (cs ++ rest) = .ok (v, rest)

/-- The same of items and the closing bracket after them. -/
structure ItemsRead (room : Nat) (cs : List Char) (vs : List Json) : Prop where
  starts : Starts cs
  items_eq : ∀ steps acc rest, cs.length ≤ steps →
    items room steps acc (cs ++ rest) = .ok (acc.reverse ++ vs, rest)

/-- The same of fields and the closing brace after them. -/
structure FieldsRead (room : Nat) (cs : List Char) (fs : List (String × Json)) : Prop where
  starts : Starts cs
  fields_eq : ∀ steps acc rest, cs.length ≤ steps →
    fields room steps acc (cs ++ rest) = .ok (acc.reverse ++ fs, rest)

theorem exists_steps {c : Char} {cs : List Char} {steps : Nat} (h : (c :: cs).length ≤ steps) :
    ∃ n, steps = n + 1 ∧ cs.length ≤ n := by
  rw [List.length_cons] at h
  exact ⟨steps - 1, by omega, by omega⟩

theorem Reads.int {n : Int} (h : isWritable n = true) (room : Nat) :
    Reads room (ofInt n).toList (.int n) := by
  obtain ⟨c, cs, hcs, hc⟩ := exists_ofInt_cons n
  rw [hcs]
  refine ⟨starts_of_number hc cs, fun steps rest hsteps hrest => ?_⟩
  obtain ⟨k, rfl, -⟩ := exists_steps hsteps
  have hnumber := number?_ofInt h hrest
  rw [hcs, List.cons_append] at hnumber
  rw [List.cons_append, value_of_number hc, hnumber]
  rfl

theorem Reads.infinity (room : Nat) : Reads room "Infinity".toList (.infinity false) := by
  refine ⟨⟨'I', _, rfl, by decide⟩, fun steps rest hsteps _ => ?_⟩
  obtain ⟨k, rfl, -⟩ := exists_steps hsteps
  rfl

section Compound

variable {room : Nat} {cs gaps more : List Char} {v : Json} {vs : List Json}

theorem Reads.emptyArray (room : Nat) : Reads (room + 1) ['[', ']'] (.array []) := by
  refine ⟨⟨'[', [']'], rfl, by decide⟩, fun steps rest hsteps _ => ?_⟩
  obtain ⟨k, rfl, -⟩ := exists_steps hsteps
  rfl

section Item

variable {steps : Nat} {rest rest' : List Char}

theorem items_last (hvalue : value room steps cs = .ok (v, rest))
    (hrest : skipGap rest = ']' :: rest') (acc : List Json) :
    items room (steps + 1) acc cs = .ok ((v :: acc).reverse, rest') := by
  rw [items]
  simp only [hvalue, hrest]

theorem items_more (hvalue : value room steps cs = .ok (v, rest))
    (hrest : skipGap rest = ',' :: rest') (acc : List Json) :
    items room (steps + 1) acc cs = items room steps (v :: acc) (skipGap rest') := by
  rw [items]
  simp only [hvalue, hrest]

end Item

theorem ItemsRead.last (h : Reads room cs v) (hgaps : IsGaps gaps) :
    ItemsRead room (cs ++ (gaps ++ [']'])) [v] := by
  refine ⟨h.starts.append _, fun steps acc rest hsteps => ?_⟩
  rw [List.length_append, List.length_append, List.length_singleton] at hsteps
  obtain ⟨k, rfl⟩ : ∃ k, steps = k + 1 := ⟨steps - 1, by omega⟩
  have hvalue := h.value_eq k (gaps ++ ']' :: rest) (by omega)
    (stops_gaps hgaps (stops_cons (by decide)))
  have hrest := skipGap_append hgaps (c := ']') (by decide) rest
  rw [List.append_assoc, List.append_assoc, List.singleton_append, items_last hvalue hrest,
    List.reverse_cons]

theorem ItemsRead.cons (h : Reads room cs v) (hgaps : IsGaps gaps)
    (hmore : ItemsRead room more vs) :
    ItemsRead room (cs ++ ',' :: (gaps ++ more)) (v :: vs) := by
  refine ⟨h.starts.append _, fun steps acc rest hsteps => ?_⟩
  rw [List.length_append, List.length_cons, List.length_append] at hsteps
  obtain ⟨k, rfl⟩ : ∃ k, steps = k + 1 := ⟨steps - 1, by omega⟩
  have hvalue := h.value_eq k (',' :: (gaps ++ (more ++ rest))) (by omega) (stops_cons (by decide))
  have hrest : skipGap (',' :: (gaps ++ (more ++ rest))) = ',' :: (gaps ++ (more ++ rest)) := rfl
  have hitems := hmore.items_eq k (v :: acc) rest (by omega)
  rw [List.append_assoc, List.cons_append, List.append_assoc, items_more hvalue hrest,
    skipGap_starts hgaps (hmore.starts.append rest), hitems, List.reverse_cons, List.append_assoc]
  rfl

theorem Reads.array (hgaps : IsGaps gaps) (h : ItemsRead room cs vs) :
    Reads (room + 1) ('[' :: (gaps ++ cs)) (.array vs) := by
  refine ⟨⟨'[', gaps ++ cs, rfl, by decide⟩, fun steps rest hsteps _ => ?_⟩
  obtain ⟨k, rfl, hk⟩ := exists_steps hsteps
  have hitems := h.items_eq k [] rest (by rw [List.length_append] at hk; omega)
  rw [List.cons_append, List.append_assoc, value]
  simp only
  rw [skipGap_starts hgaps (h.starts.append rest)]
  obtain ⟨c, cs, rfl, -, hc, -⟩ := h.starts
  split
  · rename_i heq
    exact absurd (List.cons.inj heq).1 hc
  · rw [hitems]
    rfl

/-- A field in front of other text. -/
def fieldText (key : String) (cs : List Char) : List Char :=
  '"' :: (key.toList ++ '"' :: ':' :: ' ' :: cs)

section Field

variable {key : String} {steps : Nat} {rest rest' : List Char}

theorem skipGap_blank (h : Starts cs) : skipGap (' ' :: cs) = cs := by
  have hblank : IsGaps [' '] := fun c hc => by rw [List.mem_singleton.1 hc]; rfl
  exact skipGap_starts hblank h

theorem fields_last (hkey : IsPlain key) (h : Starts cs)
    (hvalue : value room steps cs = .ok (v, rest)) (hrest : skipGap rest = '\x7d' :: rest')
    (acc : List (String × Json)) :
    fields room (steps + 1) acc (fieldText key cs) = .ok (((key, v) :: acc).reverse, rest') := by
  have hcolon : skipGap (':' :: ' ' :: cs) = ':' :: ' ' :: cs := rfl
  rw [fieldText, fields]
  simp only [stringTail?_of_plain hkey, hcolon, skipGap_blank h, hvalue, hrest]

theorem fields_more (hkey : IsPlain key) (h : Starts cs)
    (hvalue : value room steps cs = .ok (v, rest)) (hrest : skipGap rest = ',' :: rest')
    (acc : List (String × Json)) :
    fields room (steps + 1) acc (fieldText key cs) =
      fields room steps ((key, v) :: acc) (skipGap rest') := by
  have hcolon : skipGap (':' :: ' ' :: cs) = ':' :: ' ' :: cs := rfl
  rw [fieldText, fields]
  simp only [stringTail?_of_plain hkey, hcolon, skipGap_blank h, hvalue, hrest]

end Field

theorem starts_fieldText (key : String) (cs : List Char) : Starts (fieldText key cs) :=
  ⟨'"', _, rfl, by decide⟩

theorem fieldText_append (key : String) (cs rest : List Char) :
    fieldText key cs ++ rest = fieldText key (cs ++ rest) := by
  simp [fieldText]

theorem length_fieldText (key : String) (cs : List Char) :
    (fieldText key cs).length = key.length + cs.length + 4 := by
  simp only [fieldText, List.length_cons, List.length_append, String.length_toList]
  omega

theorem FieldsRead.last {key : String} (hkey : IsPlain key) (h : Reads room cs v)
    (hgaps : IsGaps gaps) :
    FieldsRead room (fieldText key cs ++ (gaps ++ ['\x7d'])) [(key, v)] := by
  refine ⟨(starts_fieldText key cs).append _, fun steps acc rest hsteps => ?_⟩
  rw [List.length_append, length_fieldText] at hsteps
  obtain ⟨k, rfl⟩ : ∃ k, steps = k + 1 := ⟨steps - 1, by omega⟩
  have hvalue := h.value_eq k (gaps ++ '\x7d' :: rest) (by omega)
    (stops_gaps hgaps (stops_cons (by decide)))
  have hrest := skipGap_append hgaps (c := '\x7d') (by decide) rest
  rw [fieldText_append, fieldText_append, List.append_assoc, List.append_assoc,
    List.singleton_append, fields_last hkey (h.starts.append _) hvalue hrest, List.reverse_cons]

theorem FieldsRead.cons {key : String} {fs : List (String × Json)} (hkey : IsPlain key)
    (h : Reads room cs v) (hgaps : IsGaps gaps) (hmore : FieldsRead room more fs) :
    FieldsRead room (fieldText key cs ++ ',' :: (gaps ++ more)) ((key, v) :: fs) := by
  refine ⟨(starts_fieldText key cs).append _, fun steps acc rest hsteps => ?_⟩
  rw [List.length_append, length_fieldText, List.length_cons, List.length_append] at hsteps
  obtain ⟨k, rfl⟩ : ∃ k, steps = k + 1 := ⟨steps - 1, by omega⟩
  have hvalue := h.value_eq k (',' :: (gaps ++ (more ++ rest))) (by omega) (stops_cons (by decide))
  have hrest : skipGap (',' :: (gaps ++ (more ++ rest))) = ',' :: (gaps ++ (more ++ rest)) := rfl
  have hfields := hmore.fields_eq k ((key, v) :: acc) rest (by omega)
  rw [fieldText_append, fieldText_append, List.append_assoc, List.cons_append, List.append_assoc,
    fields_more hkey (h.starts.append _) hvalue hrest,
    skipGap_starts hgaps (hmore.starts.append rest), hfields, List.reverse_cons, List.append_assoc]
  rfl

theorem Reads.object {fs : List (String × Json)} (hgaps : IsGaps gaps)
    (h : FieldsRead room cs fs) : Reads (room + 1) ('\x7b' :: (gaps ++ cs)) (.object fs) := by
  refine ⟨⟨'\x7b', gaps ++ cs, rfl, by decide⟩, fun steps rest hsteps _ => ?_⟩
  obtain ⟨k, rfl, hk⟩ := exists_steps hsteps
  have hfields := h.fields_eq k [] rest (by rw [List.length_append] at hk; omega)
  rw [List.cons_append, List.append_assoc, value]
  simp only
  rw [skipGap_starts hgaps (h.starts.append rest)]
  obtain ⟨c, cs, rfl, -, -, hc⟩ := h.starts
  split
  · rename_i heq
    exact absurd (List.cons.inj heq).1 hc
  · rw [hfields]
    rfl

end Compound

theorem Reads.ofString {nesting : Nat} {text : String} {v : Json}
    (h : Reads nesting text.toList v) : Json.ofString nesting text = .ok v := by
  have hgap : skipGap text.toList = text.toList := skipGap_starts isGaps_nil h.starts
  have hvalue := h.value_eq (enoughSteps text.toList) [] (by rw [enoughSteps]; omega) stops_nil
  rw [List.append_nil] at hvalue
  rw [Json.ofString]
  simp only [hgap, hvalue]
  rfl

end Json
end Croupier
