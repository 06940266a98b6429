import Croupier.Proofs.Text.Lines

/-!
# Croupier.Proofs.Message.Layout

Where the chunks of a text stand in it. A `Layout` writes the text as chunks with newlines before,
between and after them; only where a line was too long and had to be cut does a chunk follow
another without a newline between (`CutOff`).

* `exists_laid_pack`: packing lays out what is pending and the lines after it.
* `exists_groups_pack`: lines that fit and are not empty are packed whole, in groups.
* `chunks_layout`: both together, for the chunks of any text.
-/

namespace Croupier
namespace Message

/-- A chunk, and the newlines in front of it. -/
structure Placed where
  gap : List Char
  chunk : List Char

/-- The text that chunks make with what is in front of them. -/
def placedText (ps : List Placed) : List Char :=
  ps.flatMap fun p => p.gap ++ p.chunk

/-- Behind the last newline of the text, if there is any, stands `front`. -/
def EndsWithLine (text front : List Char) : Prop :=
  text = front ∨ ∃ earlier, text = earlier ++ '\n' :: front

/-- In front of the first newline of the text, if there is any, stands `back`. -/
def StartsWithLine (text back : List Char) : Prop :=
  text = back ∨ ∃ later, text = back ++ '\n' :: later

/-- In the text `before ++ piece ++ after` the piece is as long as a chunk may be, and was cut
from a longer line, which goes on behind it. -/
structure CutOff (limit : Nat) (before piece after : List Char) : Prop where
  length_eq : piece.length = limit
  exists_line : ∃ front back, back ≠ [] ∧ '\n' ∉ front ++ piece ++ back ∧
    limit < (front ++ piece ++ back).length ∧ EndsWithLine before front ∧ StartsWithLine after back

/-- The text is made of the chunks, with newlines in front of each and newlines behind the last,
and a newline is missing between two chunks only where a long line was cut. -/
structure Layout (limit : Nat) (text : List Char) (ps : List Placed) (rest : List Char) :
    Prop where
  text_eq : text = placedText ps ++ rest
  newline_of_gap : ∀ p ∈ ps, ∀ c ∈ p.gap, c = '\n'
  newline_of_rest : ∀ c ∈ rest, c = '\n'
  chunk_ne_nil : ∀ p ∈ ps, p.chunk ≠ []
  length_le : ∀ p ∈ ps, p.chunk.length ≤ limit
  cutOff : ∀ front p q back, ps = front ++ p :: q :: back → q.gap = [] →
    CutOff limit (placedText front ++ p.gap) p.chunk (placedText (q :: back) ++ rest)

/-! ## Laying out a text from its front -/

/-- The layout of the text that follows `before`, chunk by chunk. -/
inductive Laid (limit : Nat) (rest : List Char) : List Char → List Char → List Placed → Prop
  | rest {before : List Char} : (∀ c ∈ rest, c = '\n') → Laid limit rest before rest []
  | chunk {before after : List Char} {p : Placed} {ps : List Placed} :
      (∀ c ∈ p.gap, c = '\n') → p.chunk ≠ [] → p.chunk.length ≤ limit →
      (∀ q ∈ ps.head?, q.gap = [] → CutOff limit (before ++ p.gap) p.chunk after) →
      Laid limit rest (before ++ p.gap ++ p.chunk) after ps →
      Laid limit rest before (p.gap ++ p.chunk ++ after) (p :: ps)

section Laid

variable {limit : Nat} {rest before text : List Char} {ps : List Placed}

theorem Laid.text_eq (h : Laid limit rest before text ps) : text = placedText ps ++ rest := by
  induction h with
  | rest _ => rfl
  | chunk _ _ _ _ _ ih => rw [ih]; simp [placedText]

theorem Laid.cutOff (h : Laid limit rest before text ps) :
    ∀ front p q back, ps = front ++ p :: q :: back → q.gap = [] →
      CutOff limit (before ++ placedText front ++ p.gap) p.chunk
        (placedText (q :: back) ++ rest) := by
  induction h with
  | rest _ => intro front p q back hps; simp at hps
  | @chunk before after p₀ ps _ _ _ hcut htail ih =>
    intro front p q back hps hgap
    cases front with
    | nil =>
      obtain ⟨rfl, rfl⟩ := List.cons.inj hps
      rw [← htail.text_eq]
      simpa [placedText] using hcut q rfl hgap
    | cons p₁ front =>
      obtain ⟨rfl, rfl⟩ := List.cons.inj hps
      simpa [placedText] using ih front p q back rfl hgap

theorem Laid.layout (h : Laid limit rest [] text ps) : Layout limit text ps rest := by
  have hall : ∀ {before text ps}, Laid limit rest before text ps → (∀ c ∈ rest, c = '\n') ∧
      ∀ p ∈ ps, (∀ c ∈ p.gap, c = '\n') ∧ p.chunk ≠ [] ∧ p.chunk.length ≤ limit := by
    intro before text ps h
    induction h with
    | rest hrest => exact ⟨hrest, nofun⟩
    | chunk hgap hne hle _ _ ih =>
      refine ⟨ih.1, fun q hq => ?_⟩
      rcases List.mem_cons.1 hq with rfl | hq
      · exact ⟨hgap, hne, hle⟩
      · exact ih.2 q hq
  obtain ⟨hrest, hps⟩ := hall h
  exact ⟨h.text_eq, fun p hp => (hps p hp).1, hrest, fun p hp => (hps p hp).2.1,
    fun p hp => (hps p hp).2.2, h.cutOff⟩

/-- A newline in front of a text joins the first gap. -/
theorem Laid.newline (h : Laid limit rest (before ++ ['\n']) text ps) :
    ∃ rest' ps', ps'.map Placed.chunk = ps.map Placed.chunk ∧
      (∀ q ∈ ps'.head?, q.gap ≠ []) ∧ Laid limit rest' before ('\n' :: text) ps' := by
  cases h with
  | rest hrest =>
    refine ⟨'\n' :: rest, [], rfl, nofun, .rest fun c hc => ?_⟩
    rcases List.mem_cons.1 hc with rfl | hc
    · rfl
    · exact hrest c hc
  | @chunk _ after p ps hgap hne hle hcut htail =>
    refine ⟨rest, ⟨'\n' :: p.gap, p.chunk⟩ :: ps, rfl, by simp, ?_⟩
    refine .chunk (p := ⟨'\n' :: p.gap, p.chunk⟩) (fun c hc => ?_) hne hle (fun q hq hq' => ?_) ?_
    · rcases List.mem_cons.1 hc with rfl | hc
      · rfl
      · exact hgap c hc
    · simpa using hcut q hq hq'
    · simpa using htail

end Laid

/-! ## Packing -/

section Pack

variable {limit : Nat}

theorem cutLine_of_le {line : List Char} (h : line.length ≤ limit) :
    cutLine limit line = ([], line) := by
  have hdrop : line.drop limit = [] := List.drop_eq_nil_iff.2 h
  rw [cutLine, dif_neg (by simp [hdrop])]

theorem drop_ne_nil_of_lt {line : List Char} (h : limit < line.length) : line.drop limit ≠ [] := by
  rw [ne_eq, List.drop_eq_nil_iff]
  omega

theorem cutLine_of_lt {line : List Char} (hl : 0 < limit) (h : limit < line.length) :
    cutLine limit line =
      (line.take limit :: (cutLine limit (line.drop limit)).1,
        (cutLine limit (line.drop limit)).2) := by
  rw [cutLine, dif_pos ⟨hl, List.isEmpty_eq_false_iff.2 (drop_ne_nil_of_lt h)⟩]

/-- A line fits, or it is cut at the limit and what is left of it is looked at again. -/
@[elab_as_elim]
theorem line_induction {P : List Char → Prop} (hl : 0 < limit)
    (fits : ∀ line : List Char, line.length ≤ limit → P line)
    (long : ∀ line : List Char, limit < line.length → P (line.drop limit) → P line)
    (line : List Char) : P line := by
  by_cases h : line.length ≤ limit
  · exact fits line h
  · exact long line (Nat.not_le.1 h) (line_induction hl fits long (line.drop limit))
termination_by line.length
decreasing_by
  rw [List.length_drop]
  omega

/-- Packing goes on with what is pending as long as the next line fits behind it; otherwise the
line, cut if need be, starts anew. -/
theorem pack_cons (pending line : List Char) (lines : List (List Char)) :
    pack limit pending (line :: lines) =
      if pending ≠ [] ∧ pending.length + 1 + line.length ≤ limit then
        pack limit (pending ++ '\n' :: line) lines
      else
        flush pending ++ (cutLine limit line).1 ++ pack limit (cutLine limit line).2 lines := by
  rw [pack]
  by_cases hlong : limit < line.length
  · rw [if_pos hlong, if_neg (by omega)]
  · rw [if_neg hlong, cutLine_of_le (Nat.not_lt.1 hlong)]
    cases pending with
    | nil => simp [flush]
    | cons c pending => simp [flush]

theorem length_cutLine_le (hl : 0 < limit) (line : List Char) :
    (cutLine limit line).2.length ≤ limit := by
  induction line using line_induction hl with
  | fits line h => rw [cutLine_of_le h]; exact h
  | long line h ih => rw [cutLine_of_lt hl h]; exact ih

/-- The pieces of a long line follow one another without a newline. -/
theorem Laid.pieces {rest before front line after : List Char} {ps : List Placed}
    (hl : 0 < limit) (hbefore : EndsWithLine before front) (hafter : StartsWithLine after [])
    (hline : '\n' ∉ front ++ line)
    (h : Laid limit rest (before ++ (cutLine limit line).1.flatten)
      ((cutLine limit line).2 ++ after) ps) :
    Laid limit rest before (line ++ after)
      ((cutLine limit line).1.map (fun piece => ⟨[], piece⟩) ++ ps) := by
  induction line using line_induction hl generalizing before front with
  | fits line hfits =>
    rw [cutLine_of_le hfits] at h ⊢
    simpa using h
  | long line hlong ih =>
    have hpiece : (line.take limit).length = limit := List.length_take_of_le (Nat.le_of_lt hlong)
    have hne : line.take limit ≠ [] := by
      rw [ne_eq, ← List.length_eq_zero_iff, hpiece]
      omega
    have hwhole : line.take limit ++ line.drop limit = line := List.take_append_drop limit line
    rw [cutLine_of_lt hl hlong] at h ⊢
    have hcutOff : CutOff limit before (line.take limit) (line.drop limit ++ after) := by
      refine ⟨hpiece, front, line.drop limit, drop_ne_nil_of_lt hlong, ?_, ?_, hbefore, ?_⟩
      · rw [List.append_assoc, hwhole]; exact hline
      · rw [List.append_assoc, hwhole, List.length_append]; omega
      · rcases hafter with rfl | ⟨later, rfl⟩
        · exact .inl (List.append_nil _)
        · exact .inr ⟨later, rfl⟩
    have hfront : EndsWithLine (before ++ line.take limit) (front ++ line.take limit) := by
      rcases hbefore with rfl | ⟨earlier, rfl⟩
      · exact .inl rfl
      · exact .inr ⟨earlier, by simp⟩
    have htail := ih hfront (by rw [List.append_assoc, hwhole]; exact hline) (by simpa using h)
    have hlaid := Laid.chunk (p := ⟨[], line.take limit⟩) nofun hne (Nat.le_of_eq hpiece)
      (fun _ _ _ => by simpa using hcutOff) (by simpa using htail)
    simpa [← List.append_assoc, hwhole] using hlaid

/-- What is pending becomes a chunk, with the newline after it in front of what follows. -/
theorem Laid.pending {rest before pending text : List Char} {ps : List Placed}
    (hle : pending.length ≤ limit)
    (h : Laid limit rest (before ++ pending ++ ['\n']) text ps) :
    ∃ rest' ps', ps'.map Placed.chunk = flush pending ++ ps.map Placed.chunk ∧
      Laid limit rest' before (pending ++ '\n' :: text) ps' := by
  obtain ⟨rest', ps', hchunks, hgap, hlaid⟩ := h.newline
  cases pending with
  | nil => exact ⟨rest', ps', hchunks, by simpa using hlaid⟩
  | cons c pending =>
    refine ⟨rest', ⟨[], c :: pending⟩ :: ps', by simp [flush, hchunks], ?_⟩
    exact .chunk (p := ⟨[], c :: pending⟩) nofun (List.cons_ne_nil _ _) hle
      (fun q hq hnil => absurd hnil (hgap q hq)) (by simpa using hlaid)

/-- Lines that follow another one in a text. -/
def following (lines : List (List Char)) : List Char :=
  lines.flatMap fun line => '\n' :: line

theorem startsWithLine_following (lines : List (List Char)) :
    StartsWithLine (following lines) [] := by
  cases lines with
  | nil => exact .inl rfl
  | cons line lines => exact .inr ⟨line ++ following lines, by simp [following]⟩

/-- Induction on the lines; the text in front of them is any, so that it can grow. -/
theorem exists_laid_pack (hl : 0 < limit) (lines : List (List Char)) (pending before : List Char)
    (hlines : ∀ line ∈ lines, '\n' ∉ line) (hle : pending.length ≤ limit) :
    ∃ rest ps, ps.map Placed.chunk = pack limit pending lines ∧
      Laid limit rest before (pending ++ following lines) ps := by
  induction lines generalizing pending before with
  | nil =>
    have hrest : ∀ start, Laid limit [] start [] [] := fun _ => .rest nofun
    cases pending with
    | nil => exact ⟨[], [], rfl, hrest before⟩
    | cons c pending =>
      refine ⟨[], [⟨[], c :: pending⟩], rfl, ?_⟩
      exact .chunk (p := ⟨[], c :: pending⟩) nofun (List.cons_ne_nil _ _) hle nofun (hrest _)
  | cons line lines ih =>
    have hline := hlines line List.mem_cons_self
    have hlines' := fun other hother => hlines other (List.mem_cons_of_mem line hother)
    have htext : following (line :: lines) = '\n' :: (line ++ following lines) := rfl
    rw [pack_cons, htext]
    split
    · rename_i hfits
      have := ih (pending ++ '\n' :: line) before hlines' (by simp; omega)
      simpa using this
    · let start := before ++ pending ++ ['\n']
      obtain ⟨rest, ps, hchunks, hlaid⟩ := ih (cutLine limit line).2
        (start ++ (cutLine limit line).1.flatten) hlines' (length_cutLine_le hl line)
      have hstart : EndsWithLine start [] := .inr ⟨before ++ pending, rfl⟩
      have hcut := hlaid.pieces hl hstart (startsWithLine_following lines) hline
      obtain ⟨rest', ps', hchunks', hlaid'⟩ := hcut.pending hle
      exact ⟨rest', ps', by simp [hchunks', hchunks, Function.comp_def], hlaid'⟩

end Pack

/-! ## Lines that fit -/

theorem intercalate_append {sep : List Char} {xs ys : List (List Char)} (hx : xs ≠ [])
    (hy : ys ≠ []) :
    sep.intercalate (xs ++ ys) = sep.intercalate xs ++ sep ++ sep.intercalate ys := by
  induction xs with
  | nil => exact absurd rfl hx
  | cons x xs ih =>
    cases xs with
    | nil => simp [List.intercalate_cons_of_ne_nil hy]
    | cons x' xs =>
      rw [List.cons_append, List.intercalate_cons_of_ne_nil (by simp), ih (List.cons_ne_nil _ _)]
      simp

theorem intercalate_flatten {sep : List Char} {groups : List (List (List Char))}
    (h : [] ∉ groups) :
    sep.intercalate (groups.map sep.intercalate) = sep.intercalate groups.flatten := by
  induction groups with
  | nil => rfl
  | cons group groups ih =>
    have hgroup : group ≠ [] := fun hnil => h (hnil ▸ List.mem_cons_self)
    have hgroups : [] ∉ groups := fun hmem => h (List.mem_cons_of_mem group hmem)
    cases groups with
    | nil => simp
    | cons group' groups =>
      have hgroup' : group' ≠ [] := fun hnil => hgroups (hnil ▸ List.mem_cons_self)
      rw [List.map_cons, List.intercalate_cons_of_ne_nil (by simp), ih hgroups,
        List.flatten_cons (l := group), intercalate_append hgroup (by simp [hgroup'])]

theorem intercalate_cons_eq_following (line : List Char) (lines : List (List Char)) :
    ['\n'].intercalate (line :: lines) = line ++ following lines := by
  induction lines generalizing line with
  | nil => simp [following]
  | cons line' lines ih => rw [List.intercalate_cons_cons, ih]; simp [following]

theorem intercalate_ne_nil {group : List (List Char)} (hgroup : group ≠ [])
    (hne : ∀ line ∈ group, line ≠ []) : ['\n'].intercalate group ≠ [] := by
  obtain ⟨line, lines, rfl⟩ := List.exists_cons_of_ne_nil hgroup
  rw [intercalate_cons_eq_following]
  exact List.append_ne_nil_of_left_ne_nil (hne line List.mem_cons_self) _

/-- Lines that fit and are not empty stay whole; `group` are the lines that are pending. -/
theorem exists_groups_pack (limit : Nat) (lines group : List (List Char)) (hgroup : group ≠ [])
    (hne : ∀ line ∈ group ++ lines, line ≠ []) (hle : ∀ line ∈ lines, line.length ≤ limit) :
    ∃ groups : List (List (List Char)), [] ∉ groups ∧ groups.flatten = group ++ lines ∧
      pack limit (['\n'].intercalate group) lines = groups.map ['\n'].intercalate := by
  induction lines generalizing group with
  | nil =>
    have hpending := intercalate_ne_nil hgroup (by simpa using hne)
    exact ⟨[group], by simpa using hgroup.symm, by simp, by simp [pack, flush, hpending]⟩
  | cons line lines ih =>
    have hpending := intercalate_ne_nil hgroup fun l hl => hne l (List.mem_append_left _ hl)
    have hle' := fun l hl => hle l (List.mem_cons_of_mem line hl)
    rw [pack_cons]
    split
    · have hgrown : ['\n'].intercalate group ++ '\n' :: line =
          ['\n'].intercalate (group ++ [line]) := by
        rw [intercalate_append hgroup (by simp)]
        simp
      rw [hgrown]
      simpa using ih (group ++ [line]) (by simp) (by simpa using hne) hle'
    · obtain ⟨groups, hgroups, hflatten, hpack⟩ := ih [line] (by simp)
        (fun l hl => hne l (List.mem_append_right group hl)) hle'
      rw [List.intercalate_singleton] at hpack
      refine ⟨group :: groups, by simp [hgroups, hgroup.symm], by simp [hflatten], ?_⟩
      simp [flush, hpending, cutLine_of_le (hle line List.mem_cons_self), hpack]

/-! ## The chunks of a text -/

theorem exists_layout_split {limit : Nat} (hl : 0 < limit) (text : String) :
    ∃ ps rest, split limit text = ps.map (fun p => String.ofList p.chunk) ∧
      Layout limit text.toList ps rest := by
  obtain ⟨line, lines', hlines⟩ := List.exists_cons_of_ne_nil (lines_ne_nil text)
  have hnewline : ∀ l ∈ line :: lines', '\n' ∉ l := fun l hl =>
    newline_notMem_of_mem_lines (hlines ▸ hl)
  obtain ⟨rest, ps, hchunks, hlaid⟩ := exists_laid_pack hl lines' (cutLine limit line).2
    (cutLine limit line).1.flatten (fun l hl => hnewline l (List.mem_cons_of_mem line hl))
    (length_cutLine_le hl line)
  have hstart : EndsWithLine [] [] := .inl rfl
  have hwhole := hlaid.pieces hl hstart (startsWithLine_following lines')
    (hnewline line List.mem_cons_self)
  rw [← intercalate_cons_eq_following, ← hlines, intercalate_lines] at hwhole
  refine ⟨_, rest, ?_, hwhole.layout⟩
  rw [split, hlines, pack_cons, if_neg (by simp), ← hchunks]
  simp [flush, Function.comp_def]

/-- A chunk is a part of the text. -/
theorem infix_of_mem_split {limit : Nat} (hl : 0 < limit) {text chunk : String}
    (h : chunk ∈ split limit text) : chunk.toList <:+: text.toList := by
  obtain ⟨ps, rest, hsplit, hlayout⟩ := exists_layout_split hl text
  rw [hsplit] at h
  obtain ⟨p, hp, rfl⟩ := List.mem_map.1 h
  obtain ⟨front, back, rfl⟩ := List.append_of_mem hp
  rw [String.toList_ofList, hlayout.text_eq]
  exact ⟨placedText front ++ p.gap, placedText back ++ rest, by simp [placedText]⟩

/-- Only a text of newlines has no chunks. -/
theorem split_ne_nil {limit : Nat} (hl : 0 < limit) {text : String} {c : Char}
    (hc : c ∈ text.toList) (hne : c ≠ '\n') : split limit text ≠ [] := by
  obtain ⟨ps, rest, hsplit, hlayout⟩ := exists_layout_split hl text
  rw [hsplit]
  intro hnil
  obtain rfl := List.map_eq_nil_iff.1 hnil
  rw [hlayout.text_eq] at hc
  exact hne (hlayout.newline_of_rest c hc)

theorem exists_groups_split {limit : Nat} {text : String}
    (h : ∀ line ∈ lines text, line ≠ [] ∧ line.length ≤ limit) :
    ∃ groups : List (List (List Char)), [] ∉ groups ∧ groups.flatten = lines text ∧
      split limit text = groups.map fun group => String.ofList (['\n'].intercalate group) := by
  obtain ⟨line, lines', hlines⟩ := List.exists_cons_of_ne_nil (lines_ne_nil text)
  rw [hlines] at h ⊢
  obtain ⟨groups, hgroups, hflatten, hpack⟩ := exists_groups_pack limit lines' [line] (by simp)
    (fun l hl => (h l hl).1) (fun l hl => (h l (List.mem_cons_of_mem line hl)).2)
  refine ⟨groups, hgroups, hflatten, ?_⟩
  rw [List.intercalate_singleton] at hpack
  rw [split, hlines, pack_cons, if_neg (by simp), cutLine_of_le (h line List.mem_cons_self).2, hpack]
  simp [flush]

theorem intercalate_split {limit : Nat} {text : String}
    (h : ∀ line ∈ lines text, line ≠ [] ∧ line.length ≤ limit) :
    "\n".intercalate (split limit text) = text := by
  obtain ⟨groups, hgroups, hflatten, hsplit⟩ := exists_groups_split h
  rw [← String.toList_inj, String.toList_intercalate, hsplit, ← intercalate_lines text, ← hflatten,
    ← intercalate_flatten hgroups]
  simp [Function.comp_def]

/-- Cutting a text into messages loses nothing but newlines between messages, and cuts no line
that fits. -/
theorem chunks_layout (text : String) (limit : Int) (h : 1 ≤ limit) :
    ∃ cs, chunks text limit = .ok cs ∧
      (∃ ps rest, cs = ps.map (fun p => String.ofList p.chunk) ∧
        Layout limit.toNat text.toList ps rest) ∧
      ((∀ line ∈ lines text, line ≠ [] ∧ line.length ≤ limit) →
        "\n".intercalate cs = text ∧
        ∃ groups : List (List (List Char)), [] ∉ groups ∧ groups.flatten = lines text ∧
          cs = groups.map fun group => String.ofList (['\n'].intercalate group)) := by
  refine ⟨split limit.toNat text, if_neg (by omega), exists_layout_split (by omega) text, ?_⟩
  intro hlines
  have hfit : ∀ line ∈ lines text, line ≠ [] ∧ line.length ≤ limit.toNat := fun line hline =>
    ⟨(hlines line hline).1, by have := (hlines line hline).2; omega⟩
  exact ⟨intercalate_split hfit, exists_groups_split hfit⟩

/-- An empty line at the end of a chunk, a line that is cut, and lines that fit. -/
theorem chunks_layout_cut_and_whole :
    (∃ ps rest, ["ab\n", "cde", "fg", "h"] = ps.map (fun p => String.ofList p.chunk) ∧
      Layout 3 "ab\n\ncdefg\nh".toList ps rest) ∧
    chunks "a\nbc\nd" 4 = .ok ["a\nbc", "d"] ∧ "\n".intercalate ["a\nbc", "d"] = "a\nbc\nd" := by
  have hcut : chunks "ab\n\ncdefg\nh" 3 = .ok ["ab\n", "cde", "fg", "h"] := by cbv
  have hwhole : chunks "a\nbc\nd" 4 = .ok ["a\nbc", "d"] := by cbv
  obtain ⟨cs, hcs, hlayout, -⟩ := chunks_layout "ab\n\ncdefg\nh" 3 (by decide)
  obtain ⟨ds, hds, -, hfit⟩ := chunks_layout "a\nbc\nd" 4 (by decide)
  rw [hcut] at hcs
  rw [hwhole] at hds
  cases hcs
  cases hds
  exact ⟨hlayout, hwhole, (hfit (by decide)).1⟩

end Message
end Croupier
