import Croupier.Proofs.Message.Layout
import Croupier.Proofs.Orders
import Croupier.Proofs.Replies

/-!
# Croupier.Proofs.Bundles

A line with several expressions comes to the same as two lines with a part of them each, given one
after the other under the same label: the same draws in the same order, the same failure at the
same point, and the two replies one below the other.

* `Reply.rollAll_append`: the dice of a row of expressions are those of its parts.
* `bundled_in_sequence`: one line against two.
-/

namespace Croupier

open Entropy Drawing

namespace Reply

theorem rollAll_append (xs ys : List DieSpec) :
    rollAll (xs ++ ys) = andThen (rollAll xs) fun os => map (os ++ ·) (rollAll ys) := by
  induction xs with
  | nil =>
    change rollAll ys = andThen (give []) fun os => map (os ++ ·) (rollAll ys)
    rw [give_andThen]
    funext s
    rw [map_apply]
    rcases rollAll ys s with ⟨r, t⟩
    cases r <;> rfl
  | cons spec xs ih =>
    simp only [List.cons_append, rollAll_cons, ih, map, andThen_assoc, give_andThen]

theorem diceText_append (who : String) (label : Option String) {xs ys : List Outcome}
    (hx : xs ≠ []) (hy : ys ≠ []) :
    diceText who label (xs ++ ys) = diceText who label xs ++ "\n" ++ diceText who label ys := by
  rw [← String.toList_inj]
  simp only [diceText, String.toList_append, String.toList_intercalate, List.map_append]
  exact Message.intercalate_append (by simpa using hx) (by simpa using hy)

end Reply

/-- Two replies, one below the other. -/
def below (first second : Option String) : Option String :=
  match first, second with
  | some a, some b => some (a ++ "\n" ++ b)
  | _, _ => none

theorem exists_reply {args : Option String} {cap : Option Int} {order : DiceOrder} {who : String}
    {s t : Source} {reply : Option String} (horder : DiceOrder.ofArgs cap args = .order order)
    (h : diceReply who args cap s = (.ok reply, t)) : ∃ text, reply = some text := by
  rw [diceReply_of_order horder] at h
  obtain ⟨text, -, rfl⟩ := ok_of_map h
  exact ⟨text, rfl⟩

theorem diceReply_append {cap : Option Int} {first second label : List String}
    {args argsFirst argsSecond : Option String} (who : String)
    (hfirst : DiceOrder.Accepted cap first) (hsecond : DiceOrder.Accepted cap second)
    (hnfirst : first ≠ []) (hnsecond : second ≠ []) (hlabel : DiceOrder.IsLabel cap label)
    (hargs : commandWords args = first ++ second ++ label)
    (hargsFirst : commandWords argsFirst = first ++ label)
    (hargsSecond : commandWords argsSecond = second ++ label) :
    diceReply who args cap = andThen (diceReply who argsFirst cap) fun a =>
      map (below a) (diceReply who argsSecond cap) := by
  have hboth : DiceOrder.Accepted cap (first ++ second) := fun w hw =>
    (List.mem_append.1 hw).elim (hfirst w) (hsecond w)
  have hnboth : first ++ second ≠ [] := List.append_ne_nil_of_left_ne_nil hnfirst second
  rw [diceReply_of_order (DiceOrder.ofArgs_of_words hboth hnboth hlabel hargs),
    diceReply_of_order (DiceOrder.ofArgs_of_words hfirst hnfirst hlabel hargsFirst),
    diceReply_of_order (DiceOrder.ofArgs_of_words hsecond hnsecond hlabel hargsSecond)]
  simp only [Reply.toDice_eq, List.filterMap_append, Reply.rollAll_append, map, andThen_assoc,
    give_andThen]
  refine andThen_congr fun s t xs hxs => congrFun (andThen_congr fun u v ys hys => ?_) t
  have hnx := Reply.rollAll_ne_nil (DiceOrder.filterMap_accept?_ne_nil hfirst hnfirst) hxs
  have hny := Reply.rollAll_ne_nil (DiceOrder.filterMap_accept?_ne_nil hsecond hnsecond) hys
  rw [Reply.diceText_append who _ hnx hny]
  rfl

/-- A line with several expressions fails where two lines with a part of them each would have
failed, or its reply is theirs, one below the other. Either way the source is left in the same
state, with the same requests to its provider. -/
theorem bundled_in_sequence (who : String) (cap : Option Int) {first second label : List String}
    (hfirst : DiceOrder.Accepted cap first) (hsecond : DiceOrder.Accepted cap second)
    (hnfirst : first ≠ []) (hnsecond : second ≠ []) (hlabel : DiceOrder.IsLabel cap label)
    {args argsFirst argsSecond : Option String}
    (hargs : commandWords args = first ++ second ++ label)
    (hargsFirst : commandWords argsFirst = first ++ label)
    (hargsSecond : commandWords argsSecond = second ++ label) (s : Source) :
    (∃ a b t u, diceReply who argsFirst cap s = (.ok (some a), t) ∧
      diceReply who argsSecond cap t = (.ok (some b), u) ∧
      diceReply who args cap s = (.ok (some (a ++ "\n" ++ b)), u)) ∨
    ∃ e u,
      (diceReply who argsFirst cap s = (.error e, u) ∨
        ∃ a t, diceReply who argsFirst cap s = (.ok (some a), t) ∧
          diceReply who argsSecond cap t = (.error e, u)) ∧
      diceReply who args cap s = (.error e, u) := by
  rw [diceReply_append who hfirst hsecond hnfirst hnsecond hlabel hargs hargsFirst hargsSecond]
  rcases ha : diceReply who argsFirst cap s with ⟨a, t⟩
  cases a with
  | error e => exact .inr ⟨e, t, .inl rfl, andThen_of_error ha⟩
  | ok a =>
    obtain ⟨a, rfl⟩ :=
      exists_reply (DiceOrder.ofArgs_of_words hfirst hnfirst hlabel hargsFirst) ha
    rw [andThen_of_ok ha]
    rcases hb : diceReply who argsSecond cap t with ⟨b, u⟩
    cases b with
    | error e => exact .inr ⟨e, u, .inr ⟨a, t, rfl, hb⟩, andThen_of_error hb⟩
    | ok b =>
      obtain ⟨b, rfl⟩ :=
        exists_reply (DiceOrder.ofArgs_of_words hsecond hnsecond hlabel hargsSecond) hb
      exact .inl ⟨a, b, t, u, rfl, hb, andThen_of_ok hb⟩

/-- Two expressions and a label in one line, over a stream that lasts for both of them, and over
one that ends in the second. -/
theorem bundled_in_sequence_fire :
    let cap : Option Int := some 100
    let long : Source := .fresh 1 (by decide) (.stream [4, 0, 1])
    let short : Source := .fresh 1 (by decide) (.stream [4, 0])
    let dry : Failure := .unavailable (.providerFailed "script exhausted")
    let five := "DICE (ann fire d4)  ==> 1d6 ::= 5"
    let three := "DICE (ann fire d4)  ==> 2d6 ::= 1+2 = 3"
    DiceOrder.Accepted cap ["d6"] ∧ DiceOrder.Accepted cap ["2d6"] ∧
      DiceOrder.IsLabel cap ["fire", "d4"] ∧
      commandWords (some "d6  2d6 fire d4") = ["d6"] ++ ["2d6"] ++ ["fire", "d4"] ∧
      commandWords (some "d6 fire d4") = ["d6"] ++ ["fire", "d4"] ∧
      commandWords (some "2d6 fire d4") = ["2d6"] ++ ["fire", "d4"] ∧
      (∃ t u, diceReply "ann" (some "d6 fire d4") cap long = (.ok (some five), t) ∧
        diceReply "ann" (some "2d6 fire d4") cap t = (.ok (some three), u) ∧
        diceReply "ann" (some "d6  2d6 fire d4") cap long =
          (.ok (some (five ++ "\n" ++ three)), u)) ∧
      ∃ a t u, diceReply "ann" (some "d6 fire d4") cap short = (.ok (some a), t) ∧
        diceReply "ann" (some "2d6 fire d4") cap t = (.error dry, u) ∧
        diceReply "ann" (some "d6  2d6 fire d4") cap short = (.error dry, u) := by
  intro cap long short dry five three
  have hfirst : DiceOrder.Accepted cap ["d6"] := by decide +kernel
  have hsecond : DiceOrder.Accepted cap ["2d6"] := by decide +kernel
  have hlabel : DiceOrder.IsLabel cap ["fire", "d4"] := by decide +kernel
  have hargs : commandWords (some "d6  2d6 fire d4") = ["d6"] ++ ["2d6"] ++ ["fire", "d4"] := by
    decide +kernel
  have hargsFirst : commandWords (some "d6 fire d4") = ["d6"] ++ ["fire", "d4"] := by
    decide +kernel
  have hargsSecond : commandWords (some "2d6 fire d4") = ["2d6"] ++ ["fire", "d4"] := by
    decide +kernel
  have hsequence := bundled_in_sequence "ann" cap hfirst hsecond (by simp) (by simp) hlabel hargs
    hargsFirst hargsSecond
  refine ⟨hfirst, hsecond, hlabel, hargs, hargsFirst, hargsSecond, ?_, ?_⟩
  · have hfive : (diceReply "ann" (some "d6 fire d4") cap long).1 = .ok (some five) := by
      decide +kernel
    have hboth : (diceReply "ann" (some "d6  2d6 fire d4") cap long).1 =
        .ok (some (five ++ "\n" ++ three)) := by decide +kernel
    rcases hsequence long with ⟨a, b, t, u, ha, hb, hab⟩ | ⟨e, u, -, hab⟩
    · rw [ha] at hfive
      obtain rfl : a = five := Option.some.inj (Except.ok.inj hfive)
      rw [hab] at hboth
      obtain rfl : b = three :=
        (String.append_right_inj _).1 (Option.some.inj (Except.ok.inj hboth))
      exact ⟨t, u, ha, hb, hab⟩
    · rw [hab] at hboth
      cases hboth
  · have hfirst : (diceReply "ann" (some "d6 fire d4") cap short).1 = .ok (some five) := by
      decide +kernel
    have hboth : (diceReply "ann" (some "d6  2d6 fire d4") cap short).1 = .error dry := by
      decide +kernel
    rcases hsequence short with ⟨a, b, t, u, -, -, hab⟩ | ⟨e, u, hfails, hab⟩
    · rw [hab] at hboth
      cases hboth
    · rw [hab] at hboth
      obtain rfl : e = dry := Except.error.inj hboth
      rcases hfails with ha | ⟨a, t, ha, hb⟩
      · rw [ha] at hfirst
        cases hfirst
      · exact ⟨a, t, u, ha, hb, hab⟩

end Croupier
