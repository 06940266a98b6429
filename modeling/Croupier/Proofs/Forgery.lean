import Croupier.Proofs.Orders
import Croupier.Proofs.Replies
import Mathlib.Data.List.Chain

/-!
# Croupier.Proofs.Forgery

A label cannot pass for a result. The separator in front of a result has two spaces in a row, which
no label has, as its words are joined by single spaces; so of a player whose name has none either
every line of a reply holds the separator once, and what follows it was drawn.

* `gap_unique`: two spaces in a row that are the only ones show where a text has to be cut.
* `readsOnce_heading`: a heading in front of a text with single spaces.
* `label_forges_nothing`: the replies to rolls and checks.
-/

namespace Croupier

open Entropy Drawing

/-- No two spaces in a row. -/
def SingleSpaced (s : String) : Prop :=
  s.toList.IsChain fun a b => ¬ (a = ' ' ∧ b = ' ')

/-- No two spaces in a row, and none in front. -/
structure Tight (s : String) : Prop where
  singleSpaced : SingleSpaced s
  head?_ne : s.toList.head? ≠ some ' '

instance (s : String) : Decidable (SingleSpaced s) :=
  inferInstanceAs (Decidable (List.IsChain _ _))

section Spaces

variable {s t : String}

theorem Avoids.getLast?_ne (h : Avoids ' ' s) : s.toList.getLast? ≠ some ' ' :=
  fun hlast => h (List.mem_of_getLast? hlast)

theorem Avoids.singleSpaced (h : Avoids ' ' s) : SingleSpaced s := by
  refine List.Pairwise.isChain (List.pairwise_of_forall_mem_list ?_)
  rintro a ha b - ⟨rfl, -⟩
  exact h ha

theorem Avoids.tight (h : Avoids ' ' s) : Tight s :=
  ⟨h.singleSpaced, fun hhead => h (List.mem_of_head? hhead)⟩

/-- Two texts can be joined if there is no space on both sides of the joint. -/
theorem SingleSpaced.append (hs : SingleSpaced s) (ht : SingleSpaced t)
    (h : s.toList.getLast? ≠ some ' ' ∨ t.toList.head? ≠ some ' ') : SingleSpaced (s ++ t) := by
  rw [SingleSpaced, String.toList_append, List.isChain_append]
  refine ⟨hs, ht, ?_⟩
  rintro a ha b hb ⟨rfl, rfl⟩
  rcases h with h | h
  · exact h ha
  · exact h hb

theorem SingleSpaced.append_tight (hs : SingleSpaced s) (ht : Tight t) : SingleSpaced (s ++ t) :=
  hs.append ht.singleSpaced (.inr ht.head?_ne)

theorem Tight.append (hs : Tight s) (hne : s ≠ "") (ht : SingleSpaced t)
    (h : s.toList.getLast? ≠ some ' ' ∨ t.toList.head? ≠ some ' ') : Tight (s ++ t) := by
  have hchars : s.toList ≠ [] := fun hnil => hne (String.toList_eq_nil_iff.1 hnil)
  refine ⟨hs.singleSpaced.append ht h, ?_⟩
  rw [String.toList_append, List.head?_append_of_ne_nil _ hchars]
  exact hs.head?_ne

theorem Avoids.append_tight (hs : Avoids ' ' s) (hne : s ≠ "") (ht : SingleSpaced t) :
    Tight (s ++ t) :=
  hs.tight.append hne ht (.inl hs.getLast?_ne)

end Spaces

/-! ## Labels -/

theorem tight_intercalate {words : List String} (h : ∀ w ∈ words, Avoids ' ' w ∧ w ≠ "") :
    Tight (" ".intercalate words) := by
  induction words with
  | nil => exact ⟨by decide, by simp⟩
  | cons w words ih =>
    obtain ⟨⟨hw, hne⟩, hwords⟩ := List.forall_mem_cons.1 h
    cases words with
    | nil => simpa using hw.tight
    | cons v words =>
      have hspace : SingleSpaced " " := by decide
      rw [String.intercalate_cons_cons, String.append_assoc]
      exact hw.append_tight hne (hspace.append_tight (ih hwords))

theorem tight_labelOf {args : Option String} {words : List String}
    (hwords : ∀ w ∈ words, w ∈ commandWords args) : ∀ l ∈ labelOf words, Tight l := by
  intro l hl
  rw [labelOf] at hl
  split at hl
  · cases hl
  · cases hl
    refine tight_intercalate fun w hw => ?_
    have hword := isWord_of_mem_commandWords (hwords w hw)
    exact ⟨Avoids.commandWord (by decide) (hwords w hw), hword.ne_empty⟩

theorem DiceOrder.tight_label {cap : Option Int} {args : Option String} {order : DiceOrder}
    (h : ofArgs cap args = .order order) : ∀ l ∈ order.label, Tight l := by
  obtain ⟨-, rest, htake, hlabel⟩ := take_of_ofArgs h
  have hrest := take_suffix cap (commandWords args)
  rw [htake] at hrest
  rw [hlabel]
  exact tight_labelOf fun w hw => hrest.subset hw

theorem CheckOrder.tight_label {args : Option String} {order : CheckOrder}
    (h : ofArgs args = .order order) : ∀ l ∈ order.label, Tight l := by
  obtain ⟨word, rest, hwords, -, hlabel⟩ := words_of_ofArgs h
  rw [hlabel]
  exact tight_labelOf fun w hw => hwords ▸ List.mem_cons_of_mem word hw

/-! ## Results -/

theorem ofInt_ne_empty (n : Int) : Numeral.ofInt n ≠ "" :=
  fun h => Numeral.repr_ne_empty _ (String.append_eq_empty_iff.1 h).2

theorem twoPlaces_ne_empty (n : Int) : Numeral.twoPlaces n ≠ "" := by
  rw [Numeral.twoPlaces]
  split
  · exact fun h => ofInt_ne_empty n (String.append_eq_empty_iff.1 h).2
  · exact ofInt_ne_empty n

namespace DieSpec

theorem shownRolls_ne_empty (spec : DieSpec) {rolls : List Int} (h : rolls ≠ []) :
    spec.shownRolls rolls ≠ "" := by
  intro hempty
  rw [shownRolls] at hempty
  split at hempty
  · cases rolls with
    | nil => exact h rfl
    | cons n rolls =>
      cases rolls with
      | nil => exact ofInt_ne_empty n (by simpa using hempty)
      | cons m rolls =>
        rw [List.map_cons, List.map_cons, String.intercalate_cons_cons] at hempty
        have := String.append_eq_empty_iff.1 (String.append_eq_empty_iff.1 hempty).1
        exact ofInt_ne_empty n this.1
  · have := String.append_eq_empty_iff.1 (String.append_eq_empty_iff.1 hempty).1
    exact absurd this.2 (by decide)

theorem tight_trace (spec : DieSpec) {rolls : List Int} (h : rolls ≠ []) (total : Int) :
    Tight (spec.trace rolls total) := by
  have hheader : Avoids ' ' spec.shorthand := spec.avoids_shorthand (by decide) (by decide)
  have hrolls : Avoids ' ' (spec.shownRolls rolls) :=
    .shownRolls (by decide) spec (by decide) (by decide) rolls
  have hmark : SingleSpaced " ::= " := by decide
  have hequals : SingleSpaced " = " := by decide
  have htotal : SingleSpaced
      (if spec.bonus ≠ 0 ∨ 1 < spec.count then " = " ++ Numeral.ofInt total else "") := by
    split
    · exact hequals.append_tight (Avoids.ofInt (by decide) total).tight
    · decide
  rw [spec.trace_eq, String.append_assoc, String.append_assoc]
  exact hheader.append_tight spec.shorthand_ne_empty
    (hmark.append_tight (hrolls.append_tight (spec.shownRolls_ne_empty h) htotal))

end DieSpec

theorem tight_grade (g : Grade) : Tight g.line := by
  have hplaces : ∀ n, Avoids ' ' (Numeral.twoPlaces n) := Avoids.twoPlaces (by decide)
  have hversus : SingleSpaced " vs " := by decide
  have hdashes : SingleSpaced " -- " := by decide
  have hlabel : SingleSpaced g.verdict.label ∧ g.verdict.label.toList.head? ≠ some ' ' ∧
      g.verdict.label ≠ "" ∧ g.verdict.label.toList.getLast? ≠ some ' ' := by
    cases g.verdict <;> decide
  have hmargin : SingleSpaced (if 0 < g.margin then
      " (" ++ (if g.isSuccess then "MoS" else "MoF") ++ " = " ++ Numeral.ofInt g.margin ++ ")"
      else "") := by
    split
    · have hnumber : Avoids ' ' (Numeral.ofInt g.margin ++ ")") :=
        .append (.ofInt (by decide) _) (by decide)
      have hkind : SingleSpaced (" (" ++ (if g.isSuccess then "MoS" else "MoF") ++ " = ") := by
        split <;> decide
      rw [String.append_assoc]
      exact hkind.append_tight hnumber.tight
    · decide
  rw [Grade.line, String.append_assoc, String.append_assoc, String.append_assoc, String.append_assoc]
  refine (hplaces _).append_tight (twoPlaces_ne_empty _) (hversus.append_tight ?_)
  refine (hplaces _).append_tight (twoPlaces_ne_empty _) (hdashes.append_tight ?_)
  exact Tight.append ⟨hlabel.1, hlabel.2.1⟩ hlabel.2.2.1 hmargin (.inl hlabel.2.2.2)

/-! ## The separator -/

/-- `sep` stands in the text once, and `after` is what follows it. -/
def ReadsOnce (sep after text : String) : Prop :=
  ∃ before, text = before ++ sep ++ after ∧
    ∀ front back, text = front ++ sep ++ back → front = before ∧ back = after

theorem gap_unique {front before back after : List Char}
    (h : before ++ ' ' :: ' ' :: after = front ++ ' ' :: ' ' :: back)
    (hbefore : before.IsChain fun a b => ¬ (a = ' ' ∧ b = ' '))
    (hlast : before.getLast? ≠ some ' ')
    (hafter : (' ' :: after).IsChain fun a b => ¬ (a = ' ' ∧ b = ' ')) : front = before := by
  rcases List.append_eq_append_iff.1 h with ⟨cs, hfront, hcs⟩ | ⟨cs, hsplit, hcs⟩
  · -- a gap further to the back lies after the second space
    cases cs with
    | nil => rw [hfront, List.append_nil]
    | cons c cs =>
      rw [List.cons_append] at hcs
      rw [(List.cons.inj hcs).2, List.isChain_append_cons_cons] at hafter
      exact absurd ⟨rfl, rfl⟩ hafter.2.1
  · -- one further to the front lies in `before`, or in its last space
    match cs with
    | [] => rw [hsplit, List.append_nil]
    | [c] =>
      have hc := (List.cons.inj hcs).1
      rw [hsplit, ← hc, List.getLast?_concat] at hlast
      exact absurd rfl hlast
    | c :: d :: cs =>
      obtain ⟨hc, hrest⟩ := List.cons.inj hcs
      rw [hsplit, ← hc, ← (List.cons.inj hrest).1, List.isChain_append_cons_cons] at hbefore
      exact absurd ⟨rfl, rfl⟩ hbefore.2.1

theorem readsOnce_heading {tag who : String} {label : Option String} {result : String}
    (htag : Avoids ' ' tag) (hwho : SingleSpaced who) (hlast : who.toList.getLast? ≠ some ' ')
    (hlabel : ∀ l ∈ label, Tight l) (hresult : Tight result) :
    ReadsOnce ")  ==> " result (Reply.heading tag who label ++ result) := by
  have hopening : SingleSpaced (tag ++ " (") := htag.singleSpaced.append (by decide)
    (.inl htag.getLast?_ne)
  have hparts : ∃ inner, SingleSpaced inner ∧
      Reply.heading tag who label = tag ++ " (" ++ inner ++ ")  ==> " := by
    cases label with
    | none => exact ⟨who, hwho, rfl⟩
    | some label =>
      have hspace : SingleSpaced " " := by decide
      have hassoc : who ++ " " ++ label = who ++ (" " ++ label) := String.append_assoc
      refine ⟨who ++ (" " ++ label), ?_, by rw [Reply.heading, hassoc]⟩
      exact hwho.append (hspace.append_tight (hlabel label rfl)) (.inl hlast)
  obtain ⟨inner, hinner, hheading⟩ := hparts
  have hbefore : SingleSpaced (tag ++ " (" ++ inner ++ ")") := by
    have hjoint : (tag ++ " (").toList.getLast? ≠ some ' ' := by simp
    exact .append (hopening.append hinner (.inl hjoint)) (by decide) (.inr (by decide))
  have hafter : SingleSpaced (" ==> " ++ result) := by
    have harrow : SingleSpaced " ==> " := by decide
    exact harrow.append_tight hresult
  refine ⟨tag ++ " (" ++ inner, by rw [hheading], fun front back htext => ?_⟩
  -- both cuts of the line lie at its two spaces in a row
  have hcut : front.toList ++ [')'] = (tag ++ " (" ++ inner).toList ++ [')'] := by
    have hchars := congrArg String.toList htext
    rw [hheading] at hchars
    refine gap_unique (by simpa using hchars) ?_ ?_ ?_
    · simpa [SingleSpaced] using hbefore
    · rw [List.getLast?_concat]
      decide
    · simpa [SingleSpaced] using hafter
  have hfront : front = tag ++ " (" ++ inner :=
    String.toList_inj.1 (List.append_cancel_right hcut)
  refine ⟨hfront, ?_⟩
  rw [hheading, hfront, String.append_right_inj] at htext
  exact htext.symm

/-! ## Replies -/

/-- The outcomes of dice that are rolled one specification after another. -/
inductive Drawn : List DieSpec → Source → List Outcome → Source → Prop where
  | nil (s : Source) : Drawn [] s [] s
  | cons {spec : DieSpec} {specs : List DieSpec} {s t u : Source} {o : Outcome}
      {outcomes : List Outcome} :
      spec.evaluate 1 s = (.ok o, t) → Drawn specs t outcomes u →
        Drawn (spec :: specs) s (o :: outcomes) u

theorem drawn_of_rollAll {specs : List DieSpec} {s t : Source} {outcomes : List Outcome}
    (h : Reply.rollAll specs s = (.ok outcomes, t)) : Drawn specs s outcomes t := by
  induction specs generalizing s outcomes with
  | nil => cases h; exact .nil _
  | cons spec specs ih =>
    rw [Reply.rollAll_cons] at h
    obtain ⟨o, u, ho, hmap⟩ := ok_of_andThen h
    obtain ⟨rest, hrest, rfl⟩ := ok_of_map hmap
    exact .cons ho (ih hrest)

theorem Drawn.length_eq {specs : List DieSpec} {s t : Source} {outcomes : List Outcome}
    (h : Drawn specs s outcomes t) : outcomes.length = specs.length := by
  induction h with
  | nil => rfl
  | cons _ _ ih => rw [List.length_cons, List.length_cons, ih]

theorem DieSpec.tight_of_evaluate {spec : DieSpec} {offset : Int} {s t : Source} {o : Outcome}
    (h : spec.evaluate offset s = (.ok o, t)) : Tight o.trace := by
  obtain ⟨rolls, hrolls, rfl⟩ := exists_rolls h
  exact spec.tight_trace (rolls_ne_nil hrolls) _

theorem Drawn.tight {specs : List DieSpec} {s t : Source} {outcomes : List Outcome}
    (h : Drawn specs s outcomes t) : ∀ o ∈ outcomes, Tight o.trace := by
  induction h with
  | nil => exact List.forall_mem_nil _
  | cons ho _ ih => exact List.forall_mem_cons.2 ⟨DieSpec.tight_of_evaluate ho, ih⟩

/-- Of a player whose name is one line, has no two spaces in a row and none at its end, a roll is
answered by one line for each expression that was taken, and a check by one line; and whatever the
label is, the separator stands in each line once, in front of what was drawn for it. -/
theorem label_forges_nothing {who : String} (hline : OneLine who) (hwho : SingleSpaced who)
    (hlast : who.toList.getLast? ≠ some ' ') :
    (∀ args cap s reply t, diceReply who args cap s = (.ok (some reply), t) →
      ∃ order outcomes, DiceOrder.ofArgs cap args = .order order ∧
        Drawn order.specs s outcomes t ∧
        (Message.lines reply).length = order.specs.length ∧
        List.Forall₂ (fun line o => ReadsOnce ")  ==> " o.trace (String.ofList line))
          (Message.lines reply) outcomes) ∧
    (∀ args s reply t, checkReply who args s = (.ok (some reply), t) →
      ∃ order o g line, CheckOrder.ofArgs args = .order order ∧
        DieSpec.d100.evaluate 0 s = (.ok o, t) ∧ grade o.total order.target = .ok g ∧
        g.text? = some line ∧ Message.lines reply = [reply.toList] ∧
        ReadsOnce ")  ==> " line reply) := by
  constructor
  · intro args cap s reply t hreply
    obtain ⟨order, outcomes, horder, hroll, rfl⟩ := exists_outcomes hreply
    have hdrawn := drawn_of_rollAll hroll
    have hlines := lines_diceText hline horder hroll
    refine ⟨order, outcomes, horder, hdrawn, ?_, ?_⟩
    · rw [hlines, List.length_map, hdrawn.length_eq]
    · rw [hlines, List.forall₂_map_left_iff, List.forall₂_same]
      intro o ho
      rw [String.ofList_toList]
      exact readsOnce_heading (by decide) hwho hlast (DiceOrder.tight_label horder)
        (hdrawn.tight o ho)
  · intro args s reply t hreply
    obtain ⟨order, o, g, line, horder, ho, hg, htext, rfl⟩ := exists_grade hreply
    refine ⟨order, o, g, line, horder, ho, hg, htext, ?_, ?_⟩
    · have hone := oneLine_of_checkReply hline hreply
      have hlines : Message.lines ("\n".intercalate [_]) = _ :=
        Message.lines_intercalate (by simp) (List.forall_mem_singleton.2 hone)
      simpa using hlines
    · obtain ⟨-, rfl⟩ := Grade.text?_eq_some_iff.1 htext
      exact readsOnce_heading (by decide) hwho hlast (CheckOrder.tight_label horder) (tight_grade g)

/-- A label that looks like a six does not hide the one that was rolled. -/
theorem label_forges_nothing_forged_six :
    let s : Source := .fresh 1 (by decide) (.stream [0])
    let reply := "DICE (ann x) ==> 1d6 ::= 6)  ==> 1d6 ::= 1"
    OneLine "ann" ∧ SingleSpaced "ann" ∧ "ann".toList.getLast? ≠ some ' ' ∧
      (diceReply "ann" (some "d6 x)  ==> 1d6 ::= 6") none s).1 = .ok (some reply) ∧
      ReadsOnce ")  ==> " "1d6 ::= 1" reply := by
  have hrolled : (diceReply "ann" (some "d6 x)  ==> 1d6 ::= 6") none
      (.fresh 1 (by decide) (.stream [0]))).1 =
        .ok (some "DICE (ann x) ==> 1d6 ::= 6)  ==> 1d6 ::= 1") := by decide +kernel
  intro s reply
  have hline : OneLine "ann" := by decide
  have hwho : SingleSpaced "ann" := by decide
  have hlast : "ann".toList.getLast? ≠ some ' ' := by decide
  refine ⟨hline, hwho, hlast, hrolled, ?_⟩
  obtain ⟨hdice, -⟩ := label_forges_nothing hline hwho hlast
  obtain ⟨order, outcomes, -, -, -, hlines⟩ := hdice (some "d6 x)  ==> 1d6 ::= 6") none s reply _
    (Prod.ext hrolled rfl)
  have hreply : Message.lines reply = [reply.toList] := by decide +kernel
  rw [hreply, List.forall₂_cons_left_iff] at hlines
  obtain ⟨o, -, hreads, -, -⟩ := hlines
  rw [String.ofList_toList] at hreads
  have htrace : "1d6 ::= 1" = o.trace := by
    obtain ⟨before, -, hunique⟩ := hreads
    exact (hunique "DICE (ann x) ==> 1d6 ::= 6" "1d6 ::= 1" rfl).2
  rw [htrace]
  exact hreads

end Croupier
