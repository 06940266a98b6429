import Croupier.Proofs.Posts

/-!
# Croupier.Proofs.Fences

Where the fences of a posted block stand. A fence that the name or the label of a roll brings along
closes the block early; nothing else in a reply can.

* `isBlock_fenced_iff`: what may be put between fences.
* `hasFence_line`, `brought_of_hasFence_diceText`: where a reply gets its fences from.
* `fences_from_name_or_label`: the posts of a roll.
* `label_closes_block`: a roll whose label closes the block.
-/

namespace Croupier

/-! ## Patterns around a character -/

section Pattern

variable {α : Type} {p front back : List α} {c : α}

/-- A pattern stands wholly in front of a character that it lacks. -/
theorem prefix_append_cons_iff (hc : c ∉ p) : p <+: front ++ c :: back ↔ p <+: front := by
  constructor
  · intro h
    rcases List.prefix_or_prefix_of_prefix h (List.prefix_append front (c :: back)) with h' | h'
    · exact h'
    · obtain ⟨more, rfl⟩ := h'
      rw [List.prefix_append_right_inj] at h
      cases more with
      | nil => simp
      | cons d more =>
        obtain ⟨rfl, -⟩ := List.cons_prefix_cons.1 h
        exact absurd (List.mem_append_right front List.mem_cons_self) hc
  · exact fun h => h.trans (List.prefix_append front _)

/-- Or wholly behind it. -/
theorem prefix_drop_append_cons_iff (hc : c ∉ p) (hp : p ≠ []) {i : Nat} :
    p <+: (front ++ c :: back).drop i ↔
      p <+: front.drop i ∨ ∃ j, i = front.length + 1 + j ∧ p <+: back.drop j := by
  by_cases hle : i ≤ front.length
  · rw [List.drop_append_of_le_length hle, prefix_append_cons_iff hc]
    refine (or_iff_left ?_).symm
    rintro ⟨j, rfl, -⟩
    omega
  · obtain ⟨j, rfl⟩ : ∃ j, i = front.length + 1 + j := ⟨i - (front.length + 1), by omega⟩
    have hfront : front.drop (front.length + 1 + j) = [] := List.drop_of_length_le (by omega)
    have hback : (front ++ c :: back).drop (front.length + 1 + j) = back.drop j := by
      rw [List.drop_append, hfront, List.nil_append, Nat.add_assoc, Nat.add_sub_cancel_left,
        Nat.add_comm, List.drop_succ_cons]
    rw [hfront, hback, List.prefix_nil, or_iff_right hp]
    constructor
    · exact fun h => ⟨j, rfl, h⟩
    · rintro ⟨k, heq, h⟩
      rwa [Nat.add_left_cancel heq]

theorem infix_iff_exists_drop {l : List α} : p <:+: l ↔ ∃ i, p <+: l.drop i := by
  constructor
  · rintro ⟨before, after, rfl⟩
    refine ⟨before.length, after, ?_⟩
    rw [List.append_assoc, List.drop_left]
  · rintro ⟨i, h⟩
    exact h.isInfix.trans (List.drop_suffix i l).isInfix

theorem infix_append_cons_iff (hc : c ∉ p) (hp : p ≠ []) :
    p <:+: front ++ c :: back ↔ p <:+: front ∨ p <:+: back := by
  simp only [infix_iff_exists_drop, prefix_drop_append_cons_iff hc hp, exists_or]
  refine or_congr_right ⟨fun ⟨_, j, _, h⟩ => ⟨j, h⟩, fun ⟨j, h⟩ => ⟨_, j, rfl, h⟩⟩

theorem infix_intercalate_iff (hc : c ∉ p) (hp : p ≠ []) {parts : List (List α)} :
    p <:+: [c].intercalate parts ↔ ∃ part ∈ parts, p <:+: part := by
  induction parts with
  | nil => simp [List.intercalate, hp]
  | cons part parts ih =>
    cases parts with
    | nil => simp
    | cons next parts =>
      rw [List.intercalate_cons_cons, List.append_assoc, List.singleton_append,
        infix_append_cons_iff hc hp, ih, List.exists_mem_cons_iff _ part]

end Pattern

namespace Table

open Entropy Message

/-! ## Fences -/

/-- What opens and closes a block of code. -/
def fence : String := "```"

/-- A fence stands at a place of the text. -/
def FenceAt (text : String) (i : Nat) : Prop :=
  fence.toList <+: text.toList.drop i

instance (text : String) (i : Nat) : Decidable (FenceAt text i) :=
  inferInstanceAs (Decidable (fence.toList <+: text.toList.drop i))

def HasFence (text : String) : Prop :=
  fence.toList <:+: text.toList

/-- The message has a fence at its start, one at its end, and no other. -/
def IsBlock (message : String) : Prop :=
  ∀ i, FenceAt message i ↔ i = 0 ∨ i + fence.length = message.length

theorem fence_ne_nil : fence.toList ≠ [] := by decide

/-- What a fence is made of. -/
def tick : Char := Char.ofNat 96

theorem tick_mem_fence : tick ∈ fence.toList := by decide

theorem newline_notMem_fence : '\n' ∉ fence.toList := by decide

variable {text : String}

theorem hasFence_iff : HasFence text ↔ ∃ i, FenceAt text i :=
  infix_iff_exists_drop

theorem FenceAt.add_le {i : Nat} (h : FenceAt text i) : i + fence.length ≤ text.length := by
  have hlength := h.length_le
  rw [List.length_drop, String.length_toList, String.length_toList] at hlength
  have hpos : 0 < fence.length := by decide
  omega

theorem fenceAt_fence {i : Nat} : FenceAt fence i ↔ i = 0 := by
  constructor
  · intro h
    have hle := h.add_le
    omega
  · rintro rfl
    exact List.prefix_rfl

theorem not_hasFence_of_avoids (h : Avoids tick text) : ¬ HasFence text :=
  fun hfence => h (hfence.subset tick_mem_fence)

/-- Between the fences of a message stand those of the text. -/
theorem fenceAt_fenced {i : Nat} :
    FenceAt (fenced text) i ↔
      i = 0 ∨ (∃ j, i = fence.length + 1 + j ∧ FenceAt text j) ∨
        i + fence.length = (fenced text).length := by
  have htext : (fenced text).toList =
      fence.toList ++ '\n' :: (text.toList ++ '\n' :: fence.toList) := by
    simp [fenced, fenceOpening, fenceClosing, fence]
  have hlength : (fenced text).length = fence.length + 1 + (text.length + 1) + fence.length := by
    have hthree : fence.length = 3 := rfl
    rw [length_fenced, hthree]
    omega
  rw [FenceAt, htext, prefix_drop_append_cons_iff newline_notMem_fence fence_ne_nil]
  refine or_congr fenceAt_fence ?_
  simp only [prefix_drop_append_cons_iff newline_notMem_fence fence_ne_nil, String.length_toList,
    and_or_left, exists_or]
  refine or_congr_right ?_
  rw [hlength]
  constructor
  · rintro ⟨j, rfl, k, rfl, h⟩
    rw [fenceAt_fence.1 h]
  · intro h
    exact ⟨text.length + 1, by omega, 0, rfl, List.prefix_rfl⟩

/-- A block is made of what has no fence in it. -/
theorem isBlock_fenced_iff : IsBlock (fenced text) ↔ ¬ HasFence text := by
  rw [hasFence_iff, IsBlock]
  constructor
  · rintro h ⟨j, hj⟩
    have hplace := (h (fence.length + 1 + j)).1 (fenceAt_fenced.2 (.inr (.inl ⟨j, rfl, hj⟩)))
    have hle := hj.add_le
    have hlength := length_fenced text
    have hthree : fence.length = 3 := rfl
    omega
  · intro hnone i
    rw [fenceAt_fenced]
    refine or_congr_right (or_iff_right ?_)
    rintro ⟨j, -, hj⟩
    exact hnone ⟨j, hj⟩

/-! ## Fences in a reply -/

theorem hasFence_append_cons {front back : String} {c : Char} (hc : c ∉ fence.toList)
    (htext : text.toList = front.toList ++ c :: back.toList) :
    HasFence text ↔ HasFence front ∨ HasFence back := by
  rw [HasFence, htext]
  exact infix_append_cons_iff hc fence_ne_nil

/-- Around the brackets of a heading there is no fence. -/
theorem hasFence_bracketed {inner trace : String} (htrace : ¬ HasFence trace) :
    HasFence ("DICE" ++ " (" ++ inner ++ ")  ==> " ++ trace) ↔ HasFence inner := by
  have htag : ¬ HasFence "DICE " := not_hasFence_of_avoids (by decide)
  have harrow : ¬ HasFence "  ==>" := not_hasFence_of_avoids (by decide)
  have hrest : HasFence ("  ==> " ++ trace) ↔ HasFence "  ==>" ∨ HasFence trace :=
    hasFence_append_cons (c := ' ') (by decide) (by simp)
  have hclosed : HasFence (inner ++ ")  ==> " ++ trace) ↔
      HasFence inner ∨ HasFence ("  ==> " ++ trace) :=
    hasFence_append_cons (c := ')') (by decide) (by simp)
  have hopened : HasFence ("DICE" ++ " (" ++ inner ++ ")  ==> " ++ trace) ↔
      HasFence "DICE " ∨ HasFence (inner ++ ")  ==> " ++ trace) :=
    hasFence_append_cons (c := '(') (by decide) (by simp)
  rw [hopened, hclosed, hrest, or_iff_right htag, or_iff_left (not_or.2 ⟨harrow, htrace⟩)]

/-- A line has the fences of its name and its label. -/
theorem hasFence_line {who : String} {label : Option String} {trace : String}
    (htrace : ¬ HasFence trace) :
    HasFence (Reply.heading "DICE" who label ++ trace) ↔
      HasFence who ∨ ∃ l ∈ label, HasFence l := by
  cases label with
  | none =>
    rw [Reply.heading, hasFence_bracketed htrace]
    simp
  | some label =>
    have hinner : HasFence (who ++ " " ++ label) ↔ HasFence who ∨ HasFence label :=
      hasFence_append_cons (c := ' ') (by decide) (by simp)
    rw [Reply.heading, hasFence_bracketed htrace, hinner]
    simp

section Reply

variable {who : String} {args : Option String} {cap : Option Int} {order : DiceOrder}
  {s u : Source} {outcomes : List Outcome}

/-- Fences in an order come with the name or in the label. -/
def Brought (who : String) (order : DiceOrder) : Prop :=
  HasFence who ∨ ∃ l ∈ order.label, HasFence l

theorem hasFence_of_outcome (hroll : Reply.rollAll order.specs s = (.ok outcomes, u)) {o : Outcome}
    (ho : o ∈ outcomes) :
    HasFence (Reply.heading "DICE" who order.label ++ o.trace) ↔ Brought who order := by
  obtain ⟨spec, -, rolls, rfl⟩ := Reply.exists_spec_of_mem hroll ho
  have htrace : Avoids tick (spec.outcome rolls).trace :=
    .trace (by decide) (by decide) (by decide) (by decide) (by decide) spec rolls _
  exact hasFence_line (not_hasFence_of_avoids htrace)

theorem brought_of_hasFence_diceText (hroll : Reply.rollAll order.specs s = (.ok outcomes, u))
    (h : HasFence (Reply.diceText who order.label outcomes)) : Brought who order := by
  rw [HasFence, Reply.diceText, String.toList_intercalate] at h
  obtain ⟨line, hline, hfence⟩ :=
    (infix_intercalate_iff newline_notMem_fence fence_ne_nil).1 h
  rw [List.map_map] at hline
  obtain ⟨o, ho, rfl⟩ := List.mem_map.1 hline
  exact (hasFence_of_outcome hroll ho).1 hfence

/-- Where no line had to be cut, each chunk is made of lines, and each line has the heading. -/
theorem hasFence_of_mem_split (hwho : OneLine who)
    (horder : DiceOrder.ofArgs cap args = .order order)
    (hroll : Reply.rollAll order.specs s = (.ok outcomes, u))
    (hfit : ∀ line ∈ lines (Reply.diceText who order.label outcomes),
      line ≠ [] ∧ line.length ≤ 1992)
    (hbrought : Brought who order) {chunk : String}
    (hchunk : chunk ∈ split 1992 (Reply.diceText who order.label outcomes)) : HasFence chunk := by
  obtain ⟨groups, hgroups, hflatten, hsplit⟩ := exists_groups_split hfit
  rw [hsplit] at hchunk
  obtain ⟨group, hgroup, rfl⟩ := List.mem_map.1 hchunk
  obtain ⟨line, group', rfl⟩ := List.exists_cons_of_ne_nil fun hnil => hgroups (hnil ▸ hgroup)
  have hline : line ∈ groups.flatten := List.mem_flatten.2 ⟨_, hgroup, List.mem_cons_self⟩
  rw [hflatten, lines_diceText hwho horder hroll] at hline
  obtain ⟨o, ho, rfl⟩ := List.mem_map.1 hline
  rw [HasFence, String.toList_ofList, infix_intercalate_iff newline_notMem_fence fence_ne_nil]
  exact ⟨_, List.mem_cons_self, (hasFence_of_outcome hroll ho).2 hbrought⟩

end Reply

/-! ## The posts of a roll -/

theorem mem_of_mem_posts {t : Table} {who channel args reply : String} {refusal : Option Refusal}
    {s : Source} {post : String}
    (h : diceReply who (some args) (some t.store.settings.maxDice) t.source = (.ok (some reply), s))
    (hpost : post ∈ (t.step (.roll who channel args refusal)).1.posts) :
    post ∈ diceMessages reply := by
  simp only [step, h, conclude] at hpost
  cases refusal with
  | none => exact hpost
  | some r => exact List.mem_of_mem_take hpost

/-- A reply that is more than one short line is posted in blocks, at least one if the chat takes it.
Each has a part of the reply between its fences, and is one block just if there is no fence in that
part. There is none if neither the name nor the label has one; but if one of them has, then all posts
break, as long as no line is cut. -/
theorem fences_from_name_or_label {t : Table} {who channel args reply : String}
    {refusal : Option Refusal} {s : Source}
    (hreply : diceReply who (some args) (some t.store.settings.maxDice) t.source =
      (.ok (some reply), s))
    (hfenced : ¬ (OneLine reply ∧ reply.length ≤ 2000)) :
    ∃ order, DiceOrder.ofArgs (some t.store.settings.maxDice) (some args) = .order order ∧
      let posts := (t.step (.roll who channel args refusal)).1.posts
      (refusal = none → posts ≠ []) ∧
      (∀ post ∈ posts, ∃ chunk : String, chunk.toList <:+: reply.toList ∧
        post = "```\n" ++ chunk ++ "\n```" ∧ (IsBlock post ↔ ¬ HasFence chunk)) ∧
      (¬ Brought who order → ∀ post ∈ posts, IsBlock post) ∧
      (Brought who order → OneLine who → (∀ line ∈ lines reply, line.length ≤ 1992) →
        ∀ post ∈ posts, ¬ IsBlock post) := by
  obtain ⟨order, outcomes, horder, hroll, rfl⟩ := exists_outcomes hreply
  have hblock : ∀ post ∈ (t.step (.roll who channel args refusal)).1.posts,
      ∃ chunk ∈ split 1992 (Reply.diceText who order.label outcomes), post = fenced chunk := by
    intro post hpost
    have hmem := mem_of_mem_posts hreply hpost
    rw [diceMessages_fenced hfenced] at hmem
    obtain ⟨chunk, hchunk, rfl⟩ := List.mem_map.1 hmem
    exact ⟨chunk, hchunk, rfl⟩
  refine ⟨order, horder, ?_, fun post hpost => ?_, fun hnone post hpost => ?_,
    fun hbrought hwho hshort post hpost => ?_⟩
  · rintro rfl
    have hmem := Reply.mem_diceText (c := 'D') (by decide) who order.label
      (outcomes_ne_nil horder hroll)
    have htakes : Takes none (diceMessages (Reply.diceText who order.label outcomes)) := nofun
    rw [posts_of_diceReply hreply htakes]
    exact diceMessages_ne_nil hmem (by decide)
  all_goals obtain ⟨chunk, hchunk, rfl⟩ := hblock post hpost
  · exact ⟨chunk, infix_of_mem_split (by decide) hchunk, rfl, isBlock_fenced_iff⟩
  · rw [isBlock_fenced_iff]
    intro hfence
    have hinfix := infix_of_mem_split (by decide) hchunk
    exact hnone (brought_of_hasFence_diceText hroll (hfence.trans hinfix))
  · rw [isBlock_fenced_iff, not_not]
    have hlines := ne_nil_of_mem_lines hwho hreply
    exact hasFence_of_mem_split hwho horder hroll (fun line hline =>
      ⟨hlines line hline, hshort line hline⟩) hbrought hchunk

/-- Two rolls without a label, and none of the posts breaks. -/
theorem fences_from_name_or_label_none :
    let t : Table := ⟨.fresh 1 (by decide) (.stream [4, 0]), ⟨{}, .absent⟩⟩
    let reply := "DICE (ann)  ==> 1d6 ::= 5\nDICE (ann)  ==> 1d6 ::= 1"
    (diceReply "ann" (some "d6 d6") (some 100) t.source).1 = .ok (some reply) ∧
      ¬ (OneLine reply ∧ reply.length ≤ 2000) ∧
      (t.step (.roll "ann" "table" "d6 d6" none)).1.posts ≠ [] ∧
      ∀ post ∈ (t.step (.roll "ann" "table" "d6 d6" none)).1.posts, IsBlock post := by
  have hrolled : (diceReply "ann" (some "d6 d6") (some 100)
      (.fresh 1 (by decide) (.stream [4, 0]))).1 =
        .ok (some "DICE (ann)  ==> 1d6 ::= 5\nDICE (ann)  ==> 1d6 ::= 1") := by decide +kernel
  intro t reply
  have hreply : (diceReply "ann" (some "d6 d6") (some 100) t.source).1 = .ok (some reply) := hrolled
  have hdraw : diceReply "ann" (some "d6 d6") (some 100) t.source =
      (.ok (some reply), (diceReply "ann" (some "d6 d6") (some 100) t.source).2) := by
    rw [← hreply]
  have hlines : ¬ (OneLine reply ∧ reply.length ≤ 2000) := fun h => absurd h.1 (by decide)
  obtain ⟨order, horder, hposted, -, hnone, -⟩ :=
    @fences_from_name_or_label t "ann" "table" "d6 d6" reply none _ hdraw hlines
  let d6 : DieSpec := ⟨1, 6, 0, by decide, by decide, by decide⟩
  have htaken : DiceOrder.ofArgs (some 100) (some "d6 d6") = .order ⟨[d6, d6], none⟩ := rfl
  cases horder.symm.trans htaken
  have hbrought : ¬ Brought "ann" ⟨[d6, d6], none⟩ :=
    not_or.2 ⟨not_hasFence_of_avoids (by decide), nofun⟩
  exact ⟨hreply, hlines, hposted rfl, hnone hbrought⟩

/-- A label that is a fence closes the block in its first line. -/
theorem label_closes_block :
    ∃ post,
      (Table.step ⟨.fresh 1 (by decide) (.stream [4, 0]), ⟨{}, .absent⟩⟩
        (.roll "ann" "table" "d6 d6 ```" none)).1.posts = [post] ∧
      FenceAt post 14 ∧ ¬ IsBlock post := by
  refine ⟨"```\nDICE (ann ```)  ==> 1d6 ::= 5\nDICE (ann ```)  ==> 1d6 ::= 1\n```",
    by decide +kernel, by decide, fun h => ?_⟩
  have hplace := (h 14).1 (by decide)
  revert hplace
  decide

end Table
end Croupier
