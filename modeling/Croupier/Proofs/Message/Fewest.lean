import Croupier.Proofs.Message.Layout

/-!
# Croupier.Proofs.Message.Fewest

No grouping of the lines needs fewer messages than packing does, and no message is cut again.

The lines after a message that is `filled` long may be distributed in many ways (`Spread`). Packing
stays ahead of each of them (`Spread.length_pack_le`): it is never more than one message behind,
and it has caught up whenever what is pending is no longer than the other message.
-/

namespace Croupier
namespace Message

/-- The lines after a message of `filled` characters go into it and into at most `more` messages
behind it, one line at a time. -/
inductive Spread (limit : Nat) : Nat → List (List Char) → Nat → Prop
  | done {filled more : Nat} : Spread limit filled [] more
  | behind {filled more : Nat} {line : List Char} {lines : List (List Char)} :
      filled + 1 + line.length ≤ limit → Spread limit (filled + 1 + line.length) lines more →
      Spread limit filled (line :: lines) more
  | anew {filled more : Nat} {line : List Char} {lines : List (List Char)} :
      Spread limit line.length lines more → Spread limit filled (line :: lines) (more + 1)

/-- Lines in consecutive groups, each short enough for a message when newlines join it. -/
structure Grouping (limit : Nat) (lines : List (List Char)) (groups : List (List (List Char))) :
    Prop where
  flatten_eq : groups.flatten = lines
  length_le : ∀ group ∈ groups, (['\n'].intercalate group).length ≤ limit

section Spread

variable {limit filled more : Nat} {later : List (List Char)}

theorem Spread.succ (h : Spread limit filled later more) : Spread limit filled later (more + 1) := by
  induction h with
  | done => exact .done
  | behind hfits _ ih => exact .behind hfits ih
  | anew _ ih => exact .anew ih

/-- A line that fits and follows no pending one is pending next. -/
theorem pack_cons_of_le {pending line : List Char} (hle : line.length ≤ limit)
    (h : ¬ (pending ≠ [] ∧ pending.length + 1 + line.length ≤ limit)) :
    pack limit pending (line :: later) = flush pending ++ pack limit line later := by
  rw [pack_cons, if_neg h, cutLine_of_le hle, List.append_nil]

theorem length_flush_le (pending : List Char) : (flush pending).length ≤ 1 := by
  rw [flush]
  split <;> simp

/-- A line that starts anew ends at most one message. -/
theorem length_pack_le_succ {pending line : List Char} (later : List (List Char))
    (hle : line.length ≤ limit)
    (h : ¬ (pending ≠ [] ∧ pending.length + 1 + line.length ≤ limit)) :
    (pack limit pending (line :: later)).length ≤ (pack limit line later).length + 1 := by
  have hflush := length_flush_le pending
  rw [pack_cons_of_le hle h, List.length_append]
  omega

/-- Packing stays ahead. Induction on how the other way goes on; what is pending is any, so that
packing may have begun another message than the other way has. -/
theorem Spread.length_pack_le {pending : List Char} (h : Spread limit filled later more)
    (hlines : ∀ line ∈ later, line ≠ [] ∧ line.length ≤ limit) (hne : pending ≠ []) :
    (pack limit pending later).length ≤ more + 2 ∧
      (pending.length ≤ filled → (pack limit pending later).length ≤ more + 1) := by
  induction h generalizing pending with
  | done =>
    have hflush := length_flush_le pending
    rw [pack]
    omega
  | @behind filled more line later hfits _ ih =>
    have hline := hlines line List.mem_cons_self
    have hgo := fun pending =>
      @ih pending fun l hl => hlines l (List.mem_cons_of_mem line hl)
    by_cases hpack : pending ≠ [] ∧ pending.length + 1 + line.length ≤ limit
    · obtain ⟨hlate, hcaught⟩ := hgo (pending ++ '\n' :: line) (by simp)
      rw [pack_cons, if_pos hpack]
      refine ⟨hlate, fun hle => hcaught ?_⟩
      rw [List.length_append, List.length_cons]
      omega
    · have hnext := (hgo line hline.1).2 (by omega)
      have hanew := length_pack_le_succ later hline.2 hpack
      exact ⟨by omega, fun hle => absurd ⟨hne, by omega⟩ hpack⟩
  | @anew filled more line later _ ih =>
    have hline := hlines line List.mem_cons_self
    have hgo := fun pending =>
      @ih pending fun l hl => hlines l (List.mem_cons_of_mem line hl)
    by_cases hpack : pending ≠ [] ∧ pending.length + 1 + line.length ≤ limit
    · have hlate := (hgo (pending ++ '\n' :: line) (by simp)).1
      rw [pack_cons, if_pos hpack]
      omega
    · have hnext := (hgo line hline.1).2 (Nat.le_refl _)
      have hanew := length_pack_le_succ later hline.2 hpack
      omega

/-- The lines of one group go behind each other; after them the others may begin anywhere. -/
theorem Spread.group {group : List (List Char)} (hfits : filled + (following group).length ≤ limit)
    (hafter : ∀ filled, Spread limit filled later more) :
    Spread limit filled (group ++ later) more := by
  induction group generalizing filled with
  | nil => exact hafter filled
  | cons line group ih =>
    have hlength : (following (line :: group)).length =
        1 + line.length + (following group).length := by
      simp only [following, List.flatMap_cons, List.length_append, List.length_cons]
      omega
    exact .behind (by omega) (ih (by omega))

theorem Grouping.spread {groups : List (List (List Char))} (h : Grouping limit later groups)
    (filled : Nat) : Spread limit filled later groups.length := by
  obtain ⟨rfl, hle⟩ := h
  induction groups generalizing filled with
  | nil => exact .done
  | cons group groups ih =>
    have hrest := fun filled =>
      ih filled fun other hother => hle other (List.mem_cons_of_mem group hother)
    cases group with
    | nil => exact (hrest filled).succ
    | cons line group =>
      have hfits := hle _ List.mem_cons_self
      rw [intercalate_cons_eq_following, List.length_append] at hfits
      exact .anew (.group hfits hrest)

/-- Of all groupings, packing finds one with the fewest groups. -/
theorem Grouping.length_split_le {text : String} {groups : List (List (List Char))}
    (h : Grouping limit (lines text) groups)
    (hlines : ∀ line ∈ lines text, line ≠ [] ∧ line.length ≤ limit) :
    (split limit text).length ≤ groups.length := by
  -- nothing fits behind a message that is full
  have hspread := h.spread limit
  obtain ⟨line, rest, htext⟩ := List.exists_cons_of_ne_nil (lines_ne_nil text)
  rw [htext] at hspread hlines
  have hline := hlines line List.mem_cons_self
  rw [split, htext, List.length_map, pack_cons_of_le hline.2 (by simp), List.length_append]
  generalize groups.length = count at hspread
  cases hspread with
  | behind hfull _ => omega
  | anew hrest =>
    have hlength := (hrest.length_pack_le
      (fun l hl => hlines l (List.mem_cons_of_mem line hl)) hline.1).2 (Nat.le_refl _)
    simpa [flush] using hlength

theorem exists_grouping_split (hl : 0 < limit) {text : String}
    (hlines : ∀ line ∈ lines text, line ≠ [] ∧ line.length ≤ limit) :
    ∃ groups, Grouping limit (lines text) groups ∧
      split limit text = groups.map fun group => String.ofList (['\n'].intercalate group) := by
  obtain ⟨groups, -, hflatten, hgroups⟩ := exists_groups_split hlines
  obtain ⟨ps, rest, hps, hlayout⟩ := exists_layout_split hl text
  refine ⟨groups, ⟨hflatten, fun group hgroup => ?_⟩, hgroups⟩
  have hmem : String.ofList (['\n'].intercalate group) ∈ split limit text :=
    hgroups ▸ List.mem_map_of_mem hgroup
  obtain ⟨p, hp, hchunk⟩ := List.mem_map.1 (hps ▸ hmem)
  rw [← String.ofList_injective hchunk]
  exact hlayout.length_le p hp

end Spread

/-! ## Cutting a chunk again -/

section Again

variable {limit : Nat}

/-- What fits behind the pending characters is packed into one chunk with them. -/
theorem pack_of_le {pending : List Char} {lines : List (List Char)} (hne : pending ≠ [])
    (hfits : (pending ++ following lines).length ≤ limit) :
    pack limit pending lines = [pending ++ following lines] := by
  induction lines generalizing pending with
  | nil => simp [pack, flush, hne, following]
  | cons line lines ih =>
    have htext : pending ++ following (line :: lines) =
        pending ++ '\n' :: line ++ following lines := by simp [following]
    rw [htext] at hfits ⊢
    have hle : pending.length + 1 + line.length ≤ limit := by
      simp only [List.length_append, List.length_cons] at hfits
      omega
    rw [pack_cons, if_pos ⟨hne, hle⟩]
    exact ih (by simp) hfits

/-- A text that fits is one message, unless nothing stands in front of its first newline. -/
theorem split_of_le {text : String} (hne : text.toList ≠ []) (hhead : text.toList.head? ≠ some '\n')
    (hfits : text.toList.length ≤ limit) : split limit text = [text] := by
  obtain ⟨line, rest, hlines⟩ := List.exists_cons_of_ne_nil (lines_ne_nil text)
  have htext := intercalate_lines text
  rw [hlines, intercalate_cons_eq_following] at htext
  have hline : line ≠ [] := by
    rintro rfl
    cases rest with
    | nil => exact hne htext.symm
    | cons next rest => exact hhead (by rw [← htext]; rfl)
  have hle : line.length ≤ limit := by
    rw [← htext, List.length_append] at hfits
    omega
  rw [split, hlines, pack_cons_of_le hle (by simp), pack_of_le hline (by rwa [htext]), htext]
  simp [flush]

theorem flatten_cutLine (hl : 0 < limit) (line : List Char) :
    (cutLine limit line).1.flatten ++ (cutLine limit line).2 = line := by
  induction line using line_induction hl with
  | fits line h => rw [cutLine_of_le h, List.flatten_nil, List.nil_append]
  | long line h ih =>
    rw [cutLine_of_lt hl h, List.flatten_cons, List.append_assoc, ih, List.take_append_drop]

/-- A newline is only ever put behind a pending line. -/
theorem head?_ne_newline_of_mem_pack (hl : 0 < limit) {lines : List (List Char)}
    {pending chunk : List Char} (hlines : ∀ line ∈ lines, '\n' ∉ line)
    (hpending : pending.head? ≠ some '\n') (h : chunk ∈ pack limit pending lines) :
    chunk.head? ≠ some '\n' := by
  have hflush : ∀ {pending : List Char}, pending.head? ≠ some '\n' → chunk ∈ flush pending →
      chunk.head? ≠ some '\n' := by
    intro pending hpending hchunk
    rw [flush] at hchunk
    split at hchunk
    · cases hchunk
    · rwa [List.mem_singleton.1 hchunk]
  induction lines generalizing pending with
  | nil => exact hflush hpending h
  | cons line lines ih =>
    have hlines' := fun other hother => hlines other (List.mem_cons_of_mem line hother)
    have hpart := hlines line List.mem_cons_self
    rw [← flatten_cutLine hl line, List.mem_append, not_or] at hpart
    rw [pack_cons] at h
    split at h
    · rename_i hbehind
      obtain ⟨c, pending, rfl⟩ := List.exists_cons_of_ne_nil hbehind.1
      refine ih hlines' ?_ h
      simpa using hpending
    · rcases List.mem_append.1 h with hfront | hrest
      · rcases List.mem_append.1 hfront with hfront | hpiece
        · exact hflush hpending hfront
        · exact fun hhead =>
            hpart.1 (List.mem_flatten.2 ⟨chunk, hpiece, List.mem_of_head? hhead⟩)
      · exact ih hlines' (fun hhead => hpart.2 (List.mem_of_head? hhead)) hrest

/-- A chunk is cut no further. -/
theorem split_of_mem_split (hl : 0 < limit) {text c : String} (h : c ∈ split limit text) :
    split limit c = [c] := by
  obtain ⟨chunk, hchunk, rfl⟩ := List.mem_map.1 h
  have hhead := head?_ne_newline_of_mem_pack hl (fun _ => newline_notMem_of_mem_lines)
    (by simp) hchunk
  obtain ⟨ps, rest, hps, hlayout⟩ := exists_layout_split hl text
  obtain ⟨p, hp, hpchunk⟩ := List.mem_map.1 (hps ▸ h)
  obtain rfl := String.ofList_injective hpchunk
  exact split_of_le (by simpa using hlayout.chunk_ne_nil p hp) (by simpa using hhead)
    (by simpa using hlayout.length_le p hp)

end Again

/-- Lines that fit are sent in as few messages as any grouping of them needs, and sending a chunk
by itself sends it as it is. -/
theorem chunks_fewest (text : String) (limit : Int) (h : 1 ≤ limit) :
    ∃ cs, chunks text limit = .ok cs ∧
      ((∀ line ∈ lines text, line ≠ [] ∧ line.length ≤ limit) →
        (∃ groups, Grouping limit.toNat (lines text) groups ∧
          cs = groups.map fun group => String.ofList (['\n'].intercalate group)) ∧
        ∀ groups, Grouping limit.toNat (lines text) groups → cs.length ≤ groups.length) ∧
      ∀ c ∈ cs, chunks c limit = .ok [c] := by
  have hl : 0 < limit.toNat := by omega
  have hok : ∀ text, chunks text limit = .ok (split limit.toNat text) := fun _ => if_neg (by omega)
  refine ⟨split limit.toNat text, hok text, fun hlines => ?_, fun c hc => ?_⟩
  · have hfit : ∀ line ∈ lines text, line ≠ [] ∧ line.length ≤ limit.toNat := fun line hline =>
      ⟨(hlines line hline).1, by have := (hlines line hline).2; omega⟩
    exact ⟨exists_grouping_split hl hfit, fun groups hgroups => hgroups.length_split_le hfit⟩
  · rw [hok, split_of_mem_split hl hc]

/-- Three lines that no two messages hold, and a text whose first chunk ends with a newline. -/
theorem chunks_fewest_three_lines :
    (∀ groups, Grouping 4 (lines "ab\ncd\nef") groups → 3 ≤ groups.length) ∧
      chunks "ab\n\ncdefg\nh" 3 = .ok ["ab\n", "cde", "fg", "h"] ∧
      chunks "ab\n" 3 = .ok ["ab\n"] := by
  have hthree : chunks "ab\ncd\nef" 4 = .ok ["ab", "cd", "ef"] := by cbv
  have hfour : chunks "ab\n\ncdefg\nh" 3 = .ok ["ab\n", "cde", "fg", "h"] := by cbv
  obtain ⟨cs, hcs, hfewest, -⟩ := chunks_fewest "ab\ncd\nef" 4 (by decide)
  obtain ⟨ds, hds, -, hagain⟩ := chunks_fewest "ab\n\ncdefg\nh" 3 (by decide)
  rw [hthree] at hcs
  rw [hfour] at hds
  cases hcs
  cases hds
  exact ⟨(hfewest (by decide)).2, hfour, hagain "ab\n" (by decide)⟩

end Message
end Croupier
