import Croupier.Proofs.Json.Short
import Mathlib.Data.List.Infix

/-!
# Croupier.Proofs.Json.Depth

When a text nests too deeply. What a reader leaves is the end of what it was given, and every
level of nesting takes an opening bracket or brace of its own.

* `leavesSuffix`: what the readers leave.
* `openings_of_tooDeep`: a text that nests too deeply has more openings than levels are allowed.
* `tooDeep_of_brackets`: a text of that many brackets in a row does nest too deeply.
-/

namespace Croupier
namespace Json

/-! ## What the readers leave -/

section Flat

variable {cs rest : List Char}

theorem skipGap_suffix (cs : List Char) : skipGap cs <:+ cs :=
  List.dropWhile_suffix isGap

theorem suffix_of_sign {c : Char} (h : skipGap cs = c :: rest) : rest <:+ cs :=
  (List.suffix_cons c rest).trans (h ▸ skipGap_suffix cs)

/-- A sign and the gaps after it. -/
theorem skipGap_suffix_of_sign {c : Char} (h : skipGap cs = c :: rest) : skipGap rest <:+ cs :=
  (skipGap_suffix rest).trans (suffix_of_sign h)

theorem suffix_of_after? {word : String} (h : after? word cs = some rest) : rest <:+ cs := by
  rw [after?] at h
  split at h
  · cases h
    exact List.drop_suffix _ cs
  · cases h

theorem suffix_of_word {word : String} {v w : Json}
    (h : flat ((after? word cs).map fun rest => (w, rest)) = .ok (v, rest)) : rest <:+ cs := by
  obtain ⟨_, hafter, hw⟩ := Option.map_eq_some_iff.1 (some_of_flat h)
  cases hw
  exact suffix_of_after? hafter

theorem suffix_of_pieces {acc ps : List Piece} (h : pieces acc cs = some (ps, rest)) :
    rest <:+ cs := by
  fun_induction pieces acc cs with
  | case1 | case4 | case6 | case7 => cases h
  | case2 acc cs =>
    cases h
    exact List.suffix_cons '"' rest
  | case3 acc a b c d cs n hn ih =>
    exact (ih h).trans (List.drop_suffix 6 ('\\' :: 'u' :: a :: b :: c :: d :: cs))
  | case5 acc c cs hunit c' hc ih => exact (ih h).trans (List.drop_suffix 2 ('\\' :: c :: cs))
  | case8 acc c cs hquote hunit hslash hcontrol ih => exact (ih h).trans (List.suffix_cons c cs)

theorem suffix_of_stringTail? {s : String} (h : stringTail? cs = some (s, rest)) :
    rest <:+ cs := by
  obtain ⟨⟨ps, rest⟩, hpieces, hs⟩ := Option.map_eq_some_iff.1 h
  cases hs
  exact suffix_of_pieces hpieces

theorem suffix_of_wholePart? {whole : List Char} (h : wholePart? cs = some (whole, rest)) :
    rest <:+ cs := by
  unfold wholePart? at h
  split at h
  · cases h
    exact List.suffix_cons _ rest
  · simp only at h
    split at h
    · cases h
    · cases h
      exact List.dropWhile_suffix _

theorem fraction_suffix (cs : List Char) : (fraction cs).2 <:+ cs := by
  unfold fraction
  split
  · simp only
    split
    · exact List.suffix_rfl
    · exact (List.dropWhile_suffix _).trans (List.suffix_cons _ _)
  · exact List.suffix_rfl

theorem suffix_of_digits? {n : Nat} (h : exponent?.digits? cs = some (n, rest)) :
    rest <:+ cs := by
  rw [exponent?.digits?] at h
  split at h
  · cases h
  · cases h
    exact List.dropWhile_suffix _

theorem suffix_of_map_digits? {f : Nat × List Char → Int × List Char} (hf : ∀ x, (f x).2 = x.2)
    {e : Int} (h : (exponent?.digits? cs).map f = some (e, rest)) : rest <:+ cs := by
  obtain ⟨x, hx, hfx⟩ := Option.map_eq_some_iff.1 h
  have hrest : x.2 = rest := (hf x).symm.trans (congrArg Prod.snd hfx)
  exact hrest ▸ suffix_of_digits? hx

theorem suffix_of_exponent? {e : Int} (h : exponent? cs = some (e, rest)) : rest <:+ cs := by
  unfold exponent? at h
  split at h
  case h_1 | h_2 =>
    refine List.IsSuffix.trans ?_ (List.suffix_cons _ _)
    split at h
    · exact (suffix_of_map_digits? (fun _ => rfl) h).trans (List.suffix_cons _ _)
    · exact (suffix_of_map_digits? (fun _ => rfl) h).trans (List.suffix_cons _ _)
    · exact suffix_of_map_digits? (fun _ => rfl) h
  case h_3 => cases h

theorem suffix_of_unsigned? {sign : Int} {v : Json} (h : unsigned? sign cs = some (v, rest)) :
    rest <:+ cs := by
  unfold unsigned? at h
  split at h
  · cases h
  rename_i whole after hwhole
  have hplaces : (fraction after).2 <:+ cs :=
    (fraction_suffix after).trans (suffix_of_wholePart? hwhole)
  simp only at h
  split at h
  · rename_i hexponent
    cases h
    exact (suffix_of_exponent? hexponent).trans hplaces
  split at h
  · cases h
    exact hplaces
  split at h
  · cases h
    exact hplaces
  · cases h

theorem suffix_of_number? {v : Json} (h : number? cs = some (v, rest)) : rest <:+ cs := by
  unfold number? at h
  split at h
  · split at h
    · rename_i hword
      cases h
      exact (suffix_of_after? hword).trans (List.suffix_cons _ _)
    · exact (suffix_of_unsigned? h).trans (List.suffix_cons _ _)
  · exact suffix_of_unsigned? h

end Flat

/-- All readers leave the end of what they are given, within this many steps. -/
structure LeavesSuffix (steps : Nat) : Prop where
  value : ∀ {room cs v rest}, value room steps cs = .ok (v, rest) → rest <:+ cs
  items : ∀ {room acc cs vs rest}, items room steps acc cs = .ok (vs, rest) → rest <:+ cs
  fields : ∀ {room acc cs fs rest}, fields room steps acc cs = .ok (fs, rest) → rest <:+ cs

namespace LeavesSuffix

variable {room steps : Nat} {cs rest : List Char}

theorem value_succ (ih : LeavesSuffix steps) {v : Json}
    (h : Json.value room (steps + 1) cs = .ok (v, rest)) : rest <:+ cs := by
  rw [value.eq_def] at h
  simp only at h
  split at h
  case h_1 =>
    obtain ⟨x, hx, hv⟩ := ok_of_map h
    cases hv
    exact (suffix_of_stringTail? (some_of_flat hx)).trans (List.suffix_cons _ _)
  case h_2 =>
    split at h
    · cases h
    split at h
    · rename_i hgap
      cases h
      exact (suffix_of_sign hgap).trans (List.suffix_cons _ _)
    · obtain ⟨x, hx, hv⟩ := ok_of_map h
      cases hv
      exact ((ih.items hx).trans (skipGap_suffix _)).trans (List.suffix_cons _ _)
  case h_3 =>
    split at h
    · cases h
    split at h
    · rename_i hgap
      cases h
      exact (suffix_of_sign hgap).trans (List.suffix_cons _ _)
    · obtain ⟨x, hx, hv⟩ := ok_of_map h
      cases hv
      exact ((ih.fields hx).trans (skipGap_suffix _)).trans (List.suffix_cons _ _)
  case h_4 | h_5 | h_6 | h_7 | h_8 => exact suffix_of_word h
  case h_9 => exact suffix_of_number? (some_of_flat h)

theorem items_succ (ih : LeavesSuffix steps) {acc vs : List Json}
    (h : Json.items room (steps + 1) acc cs = .ok (vs, rest)) : rest <:+ cs := by
  rw [Json.items] at h
  split at h
  · cases h
  rename_i item after hitem
  have hafter : after <:+ cs := ih.value hitem
  split at h
  · rename_i hgap
    exact ((ih.items h).trans (skipGap_suffix_of_sign hgap)).trans hafter
  · rename_i hgap
    cases h
    exact (suffix_of_sign hgap).trans hafter
  · cases h

theorem fields_succ (ih : LeavesSuffix steps) {acc fs : List (String × Json)}
    (h : Json.fields room (steps + 1) acc cs = .ok (fs, rest)) : rest <:+ cs := by
  rw [fields.eq_def] at h
  simp only at h
  split at h
  case h_2 => cases h
  split at h
  · cases h
  rename_i hkey
  split at h
  case h_2 => cases h
  rename_i hcolon
  split at h
  · cases h
  rename_i item after hitem
  have hafter : after <:+ _ := ((ih.value hitem).trans (skipGap_suffix_of_sign hcolon)).trans
    ((suffix_of_stringTail? hkey).trans (List.suffix_cons '"' _))
  split at h
  · rename_i hgap
    exact ((ih.fields h).trans (skipGap_suffix_of_sign hgap)).trans hafter
  · rename_i hgap
    cases h
    exact (suffix_of_sign hgap).trans hafter
  · cases h

end LeavesSuffix

theorem leavesSuffix (steps : Nat) : LeavesSuffix steps := by
  induction steps with
  | zero => exact ⟨fun h => (by cases h), fun h => (by cases h), fun h => (by cases h)⟩
  | succ steps ih => exact ⟨ih.value_succ, ih.items_succ, ih.fields_succ⟩

/-! ## Levels of nesting -/

/-- The opening brackets and braces in a text. -/
def openings (cs : List Char) : Nat :=
  cs.countP fun c => c = '[' || c = '\x7b'

theorem openings_le {cs rest : List Char} (h : rest <:+ cs) : openings rest ≤ openings cs :=
  h.sublist.countP_le

theorem openings_cons {c : Char} (h : c = '[' ∨ c = '\x7b') (cs : List Char) :
    openings (c :: cs) = openings cs + 1 := by
  rw [openings, List.countP_cons_of_pos (by simpa using h)]
  rfl

theorem flat_ne_tooDeep {α : Type} {found : Option (α × List Char)} {c : Container} :
    flat found ≠ .error (.tooDeep c) := by
  cases found <;> exact nofun

theorem error_of_map {α β : Type} {step : Step α} {f : α × List Char → β × List Char}
    {e : Unread} (h : step.map f = .error e) : step = .error e := by
  cases step with
  | error e => cases h; rfl
  | ok x => cases h

/-- Within this many steps, no reader runs out of levels before it has met as many openings. -/
structure NeedsOpenings (steps : Nat) : Prop where
  value : ∀ {room cs c}, value room steps cs = .error (.tooDeep c) → room < openings cs
  items : ∀ {room acc cs c}, items room steps acc cs = .error (.tooDeep c) → room < openings cs
  fields : ∀ {room acc cs c}, fields room steps acc cs = .error (.tooDeep c) → room < openings cs

namespace NeedsOpenings

variable {room steps : Nat} {cs : List Char} {c : Container}

theorem value_succ (ih : NeedsOpenings steps)
    (h : Json.value room (steps + 1) cs = .error (.tooDeep c)) : room < openings cs := by
  rw [value.eq_def] at h
  simp only at h
  split at h
  case h_1 => exact absurd (error_of_map h) flat_ne_tooDeep
  case h_2 rest =>
    rw [openings_cons (.inl rfl)]
    split at h
    · exact Nat.succ_pos _
    split at h
    · cases h
    · have hitems := ih.items (error_of_map h)
      exact Nat.succ_lt_succ (Nat.lt_of_lt_of_le hitems (openings_le (skipGap_suffix rest)))
  case h_3 rest =>
    rw [openings_cons (.inr rfl)]
    split at h
    · exact Nat.succ_pos _
    split at h
    · cases h
    · have hfields := ih.fields (error_of_map h)
      exact Nat.succ_lt_succ (Nat.lt_of_lt_of_le hfields (openings_le (skipGap_suffix rest)))
  case h_4 | h_5 | h_6 | h_7 | h_8 | h_9 => exact absurd h flat_ne_tooDeep

theorem items_succ (ih : NeedsOpenings steps) {acc : List Json}
    (h : Json.items room (steps + 1) acc cs = .error (.tooDeep c)) : room < openings cs := by
  rw [Json.items] at h
  split at h
  · rename_i hitem
    cases h
    exact ih.value hitem
  rename_i item after hitem
  split at h
  · rename_i hgap
    exact Nat.lt_of_lt_of_le (ih.items h)
      (openings_le ((skipGap_suffix_of_sign hgap).trans ((leavesSuffix steps).value hitem)))
  · cases h
  · cases h

theorem fields_succ (ih : NeedsOpenings steps) {acc : List (String × Json)}
    (h : Json.fields room (steps + 1) acc cs = .error (.tooDeep c)) : room < openings cs := by
  rw [fields.eq_def] at h
  simp only at h
  split at h
  case h_2 => cases h
  split at h
  · cases h
  rename_i hkey
  split at h
  case h_2 => cases h
  rename_i hcolon
  have hvalue := (skipGap_suffix_of_sign hcolon).trans
    ((suffix_of_stringTail? hkey).trans (List.suffix_cons '"' _))
  split at h
  · rename_i hitem
    cases h
    exact Nat.lt_of_lt_of_le (ih.value hitem) (openings_le hvalue)
  rename_i item after hitem
  split at h
  · rename_i hgap
    have hafter := (skipGap_suffix_of_sign hgap).trans ((leavesSuffix steps).value hitem)
    exact Nat.lt_of_lt_of_le (ih.fields h) (openings_le (hafter.trans hvalue))
  · cases h
  · cases h

end NeedsOpenings

theorem needsOpenings (steps : Nat) : NeedsOpenings steps := by
  induction steps with
  | zero => exact ⟨fun h => (by cases h), fun h => (by cases h), fun h => (by cases h)⟩
  | succ steps ih => exact ⟨ih.value_succ, ih.items_succ, ih.fields_succ⟩

theorem openings_of_tooDeep {nesting : Nat} {text : String} {c : Container}
    (h : ofString nesting text = .error (.tooDeep c)) : nesting < openings text.toList := by
  unfold ofString at h
  simp only at h
  split at h
  · rename_i hvalue
    cases h
    exact Nat.lt_of_lt_of_le ((needsOpenings _).value hvalue)
      (openings_le (skipGap_suffix text.toList))
  · split at h <;> cases h

theorem value_brackets {room steps : Nat} (hsteps : 2 * room < steps) {n : Nat} (hn : room < n) :
    value room steps (List.replicate n '[') = .error (.tooDeep .array) := by
  induction room generalizing steps n with
  | zero =>
    obtain ⟨n, rfl⟩ : ∃ m, n = m + 1 := ⟨n - 1, by omega⟩
    obtain ⟨steps, rfl⟩ : ∃ k, steps = k + 1 := ⟨steps - 1, by omega⟩
    rw [List.replicate_succ, value]
  | succ room ih =>
    obtain ⟨n, rfl⟩ : ∃ m, n = m + 2 := ⟨n - 2, by omega⟩
    obtain ⟨steps, rfl⟩ : ∃ k, steps = k + 2 := ⟨steps - 2, by omega⟩
    have hrest : value room steps (List.replicate (n + 1) '[') = .error (.tooDeep .array) :=
      ih (by omega) (by omega)
    have hgap : skipGap (List.replicate (n + 1) '[') = List.replicate (n + 1) '[' := rfl
    rw [List.replicate_succ, value]
    simp only [hgap]
    split
    · rename_i heq
      cases heq
    · rw [items]
      simp only [hrest]
      rfl

theorem tooDeep_of_brackets {nesting n : Nat} (hn : nesting < n) :
    ofString nesting (String.ofList (List.replicate n '[')) = .error (.tooDeep .array) := by
  obtain ⟨m, rfl⟩ : ∃ m, n = m + 1 := ⟨n - 1, by omega⟩
  have hgap : skipGap (List.replicate (m + 1) '[') = List.replicate (m + 1) '[' := rfl
  have hsteps : 2 * nesting < enoughSteps (List.replicate (m + 1) '[') := by
    rw [enoughSteps, List.length_replicate]
    omega
  rw [ofString]
  simp only [String.toList_ofList, hgap, value_brackets hsteps hn]

end Json
end Croupier
