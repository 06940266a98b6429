import Croupier.Proofs.Message.Layout
import Croupier.Proofs.Replies
import Croupier.Table

/-!
# Croupier.Proofs.Posts

What is posted is the whole reply, within the limit of the chat. A text without empty lines is made
of its chunks and single newlines, of which exactly those are missing where a long line was cut
(`Rejoins`); the fences around a chunk are short enough for the limit.

* `Layout.rejoins`: the chunks of a text without empty lines.
* `posts_whole_reply`: the posts of rolls and checks.
-/

namespace Croupier
namespace Message

/-- The text is made of the chunks and a newline between each and the next, but for the places
where a long line was cut. -/
structure Rejoins (limit : Nat) (text : List Char) (ps : List Placed) : Prop where
  text_eq : text = placedText ps
  gap_of_head : ∀ p ∈ ps.head?, p.gap = []
  chunk_ne_nil : ∀ p ∈ ps, p.chunk ≠ []
  length_le : ∀ p ∈ ps, p.chunk.length ≤ limit
  gap : ∀ front p q back, ps = front ++ p :: q :: back →
    q.gap = [] ∧
      CutOff limit (placedText front ++ p.gap) p.chunk (placedText (q :: back)) ∨
    q.gap = ['\n'] ∧
      ¬ CutOff limit (placedText front ++ p.gap) p.chunk (placedText (q :: back))

/-- In a text without empty lines a newline stands between two other characters. -/
theorem around_newline {text before after : List Char} (h : [] ∉ text.splitOn '\n')
    (ht : text = before ++ '\n' :: after) :
    before ≠ [] ∧ after ≠ [] ∧ ∀ rest, after ≠ '\n' :: rest := by
  have hempty : [] ∈ ([] : List Char).splitOn '\n' := by rw [List.splitOn_nil]; exact .head _
  rw [ht, List.splitOn_append_cons_self, List.mem_append, not_or] at h
  refine ⟨fun hbefore => ?_, fun hafter => ?_, fun rest hafter => ?_⟩
  · exact h.1 (hbefore ▸ hempty)
  · exact h.2 (hafter ▸ hempty)
  · have hsplit := List.splitOn_append_cons_self (a := '\n') [] rest
    refine h.2 ?_
    rw [hafter, ← List.nil_append ('\n' :: rest), hsplit]
    exact List.mem_append_left _ hempty

theorem eq_cons_of_newlines {cs : List Char} (h : ∀ c ∈ cs, c = '\n') (hne : cs ≠ []) :
    ∃ rest, cs = '\n' :: rest ∧ ∀ c ∈ rest, c = '\n' := by
  obtain ⟨c, rest, rfl⟩ := List.exists_cons_of_ne_nil hne
  exact ⟨rest, by rw [h c List.mem_cons_self], fun d hd => h d (List.mem_cons_of_mem c hd)⟩

theorem not_cutOff_newline {limit : Nat} {before piece after : List Char} :
    ¬ CutOff limit before piece ('\n' :: after) := by
  rintro ⟨-, front, back, hback, hline, -, -, hafter⟩
  obtain ⟨c, back, rfl⟩ := List.exists_cons_of_ne_nil hback
  have hc : c = '\n' := by
    rcases hafter with hafter | ⟨later, hafter⟩
    · exact (List.cons.inj hafter).1.symm
    · exact (List.cons.inj hafter).1.symm
  exact hline (by simp [hc])

section NoEmptyLine

variable {limit : Nat} {text rest : List Char} {ps : List Placed}

theorem Layout.rest_eq_nil (hlayout : Layout limit text ps rest)
    (h : [] ∉ text.splitOn '\n') : rest = [] := by
  by_contra hne
  obtain ⟨rest', hrest, hnewlines⟩ := eq_cons_of_newlines hlayout.newline_of_rest hne
  have htext := hlayout.text_eq
  rw [hrest] at htext
  obtain ⟨-, hafter, hnext⟩ := around_newline h htext
  obtain ⟨rest'', hrest', -⟩ := eq_cons_of_newlines hnewlines hafter
  exact hnext rest'' hrest'

/-- A gap is at most one newline, and the first gap none at all. -/
theorem Layout.gap_cases (hlayout : Layout limit text ps rest) (h : [] ∉ text.splitOn '\n')
    (front : List Placed) {back : List Placed} {q : Placed} (hps : ps = front ++ q :: back) :
    q.gap = [] ∨ q.gap = ['\n'] ∧ front ≠ [] := by
  by_cases hgap : q.gap = []
  · exact .inl hgap
  have hmem : q ∈ ps := by rw [hps]; simp
  obtain ⟨more, hq, hnewlines⟩ := eq_cons_of_newlines (hlayout.newline_of_gap q hmem) hgap
  have htext : text = placedText front ++ '\n' :: (more ++ q.chunk ++ placedText back ++ rest) := by
    rw [hlayout.text_eq, hps]
    simp [placedText, hq]
  obtain ⟨hbefore, -, hnext⟩ := around_newline h htext
  refine .inr ⟨?_, fun hfront => hbefore (by rw [hfront]; rfl)⟩
  rw [hq]
  by_contra hmore
  obtain ⟨more', hmore', -⟩ := eq_cons_of_newlines hnewlines fun hnil => hmore (by rw [hnil])
  rw [hmore'] at hnext
  exact hnext (more' ++ q.chunk ++ placedText back ++ rest) rfl

theorem Layout.rejoins (hlayout : Layout limit text ps rest) (h : [] ∉ text.splitOn '\n') :
    Rejoins limit text ps := by
  have hrest := hlayout.rest_eq_nil h
  refine ⟨?_, fun p hp => ?_, hlayout.chunk_ne_nil, hlayout.length_le, fun front p q back hps => ?_⟩
  · rw [hlayout.text_eq, hrest, List.append_nil]
  · obtain ⟨back, hback⟩ := List.head?_eq_some_iff.1 hp
    rcases hlayout.gap_cases h [] hback with hgap | ⟨-, hfront⟩
    · exact hgap
    · exact absurd rfl hfront
  · rcases hlayout.gap_cases h (front ++ [p]) (by simpa using hps) with hgap | ⟨hgap, -⟩
    · have := hlayout.cutOff front p q back hps hgap
      rw [hrest, List.append_nil] at this
      exact .inl ⟨hgap, this⟩
    · refine .inr ⟨hgap, ?_⟩
      have htext : placedText (q :: back) = '\n' :: (q.chunk ++ placedText back) := by
        simp [placedText, hgap]
      rw [htext]
      exact not_cutOff_newline

end NoEmptyLine

end Message

/-! ## Posts -/

theorem Reply.mem_heading {c : Char} {tag : String} (h : c ∈ tag.toList) (who : String)
    (label : Option String) : c ∈ (heading tag who label).toList := by
  simp [heading, h]

theorem Reply.mem_diceText {c : Char} (h : c ∈ "DICE".toList) (who : String)
    (label : Option String) {outcomes : List Outcome} (hne : outcomes ≠ []) :
    c ∈ (diceText who label outcomes).toList := by
  obtain ⟨o, outcomes, rfl⟩ := List.exists_cons_of_ne_nil hne
  rw [diceText, String.toList_intercalate, List.map_cons, List.map_cons]
  change c ∈ ['\n'].intercalate _
  rw [Message.intercalate_cons_eq_following, String.toList_append]
  exact List.mem_append_left _ (List.mem_append_left _ (mem_heading h who label))

namespace Table

open Entropy Message

/-- No send of these messages fails. -/
def Takes (refusal : Option Refusal) (messages : List String) : Prop :=
  ∀ r ∈ refusal, messages.length ≤ r.taken

theorem deliver_of_takes {refusal : Option Refusal} {messages : List String}
    (h : Takes refusal messages) : deliver refusal messages = (messages, none) := by
  cases refusal with
  | none => rfl
  | some r =>
    have hr := h r rfl
    rw [deliver, List.take_of_length_le hr, if_neg (Nat.not_lt.2 hr)]

section Posts

variable {t : Table} {who channel args reply : String} {refusal : Option Refusal} {s : Source}

theorem posts_of_diceReply
    (h : diceReply who (some args) (some t.store.settings.maxDice) t.source = (.ok (some reply), s))
    (hsent : Takes refusal (diceMessages reply)) :
    (t.step (.roll who channel args refusal)).1.posts = diceMessages reply := by
  simp only [step, h, conclude, deliver_of_takes hsent]

theorem posts_of_checkReply
    (h : checkReply who (some args) t.source = (.ok (some reply), s))
    (hsent : Takes refusal (checkMessages reply)) :
    (t.step (.check who channel args refusal)).1.posts = checkMessages reply := by
  simp only [step, h, conclude, deliver_of_takes hsent]

end Posts

/-- What a fenced message may hold. -/
theorem fenced_limit : Message.limit - (fenceOpening.length + fenceClosing.length) = 1992 := by
  decide

theorem isPlain_iff {reply : String} :
    (!reply.toList.contains '\n' && decide (reply.length ≤ Message.limit)) = true ↔
      OneLine reply ∧ reply.length ≤ 2000 := by
  rw [Bool.and_eq_true, decide_eq_true_iff, Message.limit]
  simp [OneLine]

theorem diceMessages_plain {reply : String} (h : OneLine reply ∧ reply.length ≤ 2000) :
    diceMessages reply = [reply] := by
  rw [diceMessages, if_pos (isPlain_iff.2 h)]

theorem diceMessages_fenced {reply : String} (h : ¬ (OneLine reply ∧ reply.length ≤ 2000)) :
    diceMessages reply = (split 1992 reply).map fenced := by
  rw [diceMessages, if_neg (fun hplain => h (isPlain_iff.1 hplain)), fenced_limit]

theorem diceMessages_ne_nil {reply : String} {c : Char} (hc : c ∈ reply.toList) (hne : c ≠ '\n') :
    diceMessages reply ≠ [] := by
  by_cases h : OneLine reply ∧ reply.length ≤ 2000
  · rw [diceMessages_plain h]
    exact List.cons_ne_nil _ _
  · rw [diceMessages_fenced h, ne_eq, List.map_eq_nil_iff]
    exact split_ne_nil (by decide) hc hne

theorem length_fenced (text : String) : (fenced text).length = text.length + 8 := by
  have hfences : fenceOpening.length = 4 ∧ fenceClosing.length = 4 := by decide
  rw [fenced, String.length_append, String.length_append, hfences.1, hfences.2]
  omega

theorem ne_nil_of_mem_lines {who reply : String} {args : Option String} {cap : Option Int}
    {s u : Source} (hwho : OneLine who) (h : diceReply who args cap s = (.ok (some reply), u)) :
    ∀ line ∈ lines reply, line ≠ [] := by
  obtain ⟨texts, hne, htexts, rfl⟩ := exists_lines hwho h
  intro line hline
  rw [lines_intercalate hne fun x hx => (htexts x hx).2] at hline
  obtain ⟨x, hx, rfl⟩ := List.mem_map.1 hline
  exact fun hnil => (htexts x hx).1 (String.toList_eq_nil_iff.1 hnil)

/-- The fenced messages of a reply whose lines are not empty. -/
theorem exists_rejoins {reply : String} (hlines : ∀ line ∈ lines reply, line ≠ [])
    (h : ¬ (OneLine reply ∧ reply.length ≤ 2000)) :
    ∃ ps, Rejoins 1992 reply.toList ps ∧
      diceMessages reply = ps.map (fun p => fenced (String.ofList p.chunk)) ∧
      ((∀ line ∈ lines reply, line.length ≤ 1992) →
        "\n".intercalate (ps.map fun p => String.ofList p.chunk) = reply) := by
  obtain ⟨ps, rest, hsplit, hlayout⟩ := exists_layout_split (show 0 < 1992 by decide) reply
  have hempty : [] ∉ reply.toList.splitOn '\n' := fun hmem => hlines [] hmem rfl
  refine ⟨ps, hlayout.rejoins hempty, ?_, fun hshort => ?_⟩
  · rw [diceMessages_fenced h, hsplit, List.map_map]
    rfl
  · rw [← hsplit]
    exact intercalate_split fun line hline => ⟨hlines line hline, hshort line hline⟩

/-- A line that is too long is cut into messages, which make up the line. -/
theorem checkMessages_of_oneLine {reply : String} (h : OneLine reply) :
    (∀ m ∈ checkMessages reply, 1 ≤ m.length ∧ m.length ≤ 2000) ∧
      String.join (checkMessages reply) = reply := by
  obtain ⟨ps, rest, hsplit, hlayout⟩ := exists_layout_split (show 0 < 2000 by decide) reply
  have hnil : ∀ cs : List Char, (∀ c ∈ cs, c = '\n') → cs ⊆ reply.toList → cs = [] := by
    intro cs hnewlines hsub
    by_contra hne
    obtain ⟨more, rfl, -⟩ := eq_cons_of_newlines hnewlines hne
    exact h (hsub List.mem_cons_self)
  have hrest : rest = [] := hnil rest hlayout.newline_of_rest fun c hc => by
    rw [hlayout.text_eq]
    exact List.mem_append_right _ hc
  have hgap : ∀ p ∈ ps, p.gap = [] := fun p hp =>
    hnil p.gap (hlayout.newline_of_gap p hp) fun c hc => by
      rw [hlayout.text_eq]
      exact List.mem_append_left _ (List.mem_flatMap.2 ⟨p, hp, List.mem_append_left _ hc⟩)
  have hmessages : checkMessages reply = ps.map fun p => String.ofList p.chunk := hsplit
  rw [hmessages]
  constructor
  · intro m hm
    obtain ⟨p, hp, rfl⟩ := List.mem_map.1 hm
    have hne := List.length_pos_iff.2 (hlayout.chunk_ne_nil p hp)
    rw [String.length_ofList]
    exact ⟨hne, hlayout.length_le p hp⟩
  · rw [← String.toList_inj, hlayout.text_eq, hrest, List.append_nil, String.toList_join,
      List.flatMap_map, placedText]
    refine List.flatMap_congr fun p hp => ?_
    rw [String.toList_ofList, hgap p hp, List.nil_append]

/-- What is posted in answer to a roll or a check is the whole reply, in messages within the limit
of the chat. -/
theorem posts_whole_reply (t : Table) (who channel args : String) (refusal : Option Refusal)
    (hwho : OneLine who) :
    (∀ reply s,
      diceReply who (some args) (some t.store.settings.maxDice) t.source = (.ok (some reply), s) →
      Takes refusal (diceMessages reply) →
      let posts := (t.step (.roll who channel args refusal)).1.posts
      if OneLine reply ∧ reply.length ≤ 2000 then posts = [reply]
      else
        ∃ ps, Rejoins 1992 reply.toList ps ∧
          posts = ps.map (fun p => "```\n" ++ String.ofList p.chunk ++ "\n```") ∧
          (∀ post ∈ posts, post.length ≤ 2000) ∧
          ((∀ line ∈ lines reply, line.length ≤ 1992) →
            "\n".intercalate (ps.map fun p => String.ofList p.chunk) = reply)) ∧
    (∀ reply s, checkReply who (some args) t.source = (.ok (some reply), s) →
      Takes refusal (checkMessages reply) →
      let posts := (t.step (.check who channel args refusal)).1.posts
      (∀ post ∈ posts, 1 ≤ post.length ∧ post.length ≤ 2000) ∧ String.join posts = reply) := by
  refine ⟨fun reply s hreply hsent => ?_, fun reply s hreply hsent => ?_⟩
  · rw [posts_of_diceReply hreply hsent]
    intro posts
    have hlines := ne_nil_of_mem_lines hwho hreply
    split
    · rename_i hplain
      exact diceMessages_plain hplain
    · rename_i hfenced
      obtain ⟨ps, hrejoins, hmessages, hjoin⟩ := exists_rejoins hlines hfenced
      refine ⟨ps, hrejoins, hmessages, fun post hpost => ?_, hjoin⟩
      rw [show posts = _ from hmessages] at hpost
      obtain ⟨p, hp, rfl⟩ := List.mem_map.1 hpost
      have hle := hrejoins.length_le p hp
      rw [length_fenced, String.length_ofList]
      omega
  · rw [posts_of_checkReply hreply hsent]
    exact checkMessages_of_oneLine (oneLine_of_checkReply hwho hreply)

/-- Two rolls in one command, and a check: a fenced message and a plain one. -/
theorem posts_whole_reply_two_rolls :
    let t : Table := ⟨.fresh 1 (by decide) (.stream [4, 0]), ⟨{}, .absent⟩⟩
    let reply := "DICE (ann)  ==> 1d6 ::= 5\nDICE (ann)  ==> 1d6 ::= 1"
    let graded := "EPD (ann)  ==> 04 vs 50 -- Excellent Success! (MoS = 46)"
    OneLine "ann" ∧
      (diceReply "ann" (some "d6 d6") (some 100) t.source).1 = .ok (some reply) ∧
      (checkReply "ann" (some "50") t.source).1 = .ok (some graded) ∧
      (∃ ps, Rejoins 1992 reply.toList ps ∧
        (t.step (.roll "ann" "table" "d6 d6" none)).1.posts =
          ps.map fun p => "```\n" ++ String.ofList p.chunk ++ "\n```") ∧
      String.join (t.step (.check "ann" "table" "50" none)).1.posts = graded := by
  have hrolled : (diceReply "ann" (some "d6 d6") (some 100)
      (.fresh 1 (by decide) (.stream [4, 0]))).1 =
        .ok (some "DICE (ann)  ==> 1d6 ::= 5\nDICE (ann)  ==> 1d6 ::= 1") := by decide +kernel
  have hchecked : (checkReply "ann" (some "50") (.fresh 1 (by decide) (.stream [4, 0]))).1 =
      .ok (some "EPD (ann)  ==> 04 vs 50 -- Excellent Success! (MoS = 46)") := by decide +kernel
  intro t reply graded
  have hwho : OneLine "ann" := by decide
  have hreply : (diceReply "ann" (some "d6 d6") (some 100) t.source).1 = .ok (some reply) := hrolled
  have hgraded : (checkReply "ann" (some "50") t.source).1 = .ok (some graded) := hchecked
  have hdraw : diceReply "ann" (some "d6 d6") (some 100) t.source =
      (.ok (some reply), (diceReply "ann" (some "d6 d6") (some 100) t.source).2) := by
    rw [← hreply]
  have hcheck : checkReply "ann" (some "50") t.source =
      (.ok (some graded), (checkReply "ann" (some "50") t.source).2) := by
    rw [← hgraded]
  obtain ⟨hroll, -⟩ := posts_whole_reply t "ann" "table" "d6 d6" none hwho
  obtain ⟨-, hep⟩ := posts_whole_reply t "ann" "table" "50" none hwho
  have hposts := hroll reply _ hdraw nofun
  rw [if_neg (by decide)] at hposts
  obtain ⟨ps, hrejoins, hps, -⟩ := hposts
  exact ⟨hwho, hreply, hgraded, ⟨ps, hrejoins, hps⟩, (hep graded _ hcheck nofun).2⟩

end Table
end Croupier
