import Croupier.Proofs.Posts
import Croupier.Proofs.RaisedCaps

/-!
# Croupier.Proofs.Lengths

How long numbers, traces and replies get, and what the cap on dice is good for.

* `Numeral.length_ofInt_le`: a minus sign takes the place of a digit.
* `DieSpec.length_trace_le`: four characters for each die, and at most 54 for all the rest.
* `single_roll_single_post`: under a cap of up to 100 a roll of one expression is one message.
-/

namespace Croupier

open Entropy Drawing

/-! ## Numbers -/

namespace Numeral

theorem length_signed (n : Int) : (signed n).length = (Nat.repr n.natAbs).length + 1 := by
  rw [← String.length_toList, toList_signed, List.length_cons, ← Nat.toList_repr,
    String.length_toList]

theorem length_ofInt_le {n : Int} {k : Nat} (hk : 0 < k) (hlow : 0 ≤ n ∨ n.natAbs < 10 ^ k)
    (hhigh : n.natAbs < 10 ^ (k + 1)) : (ofInt n).length ≤ k + 1 := by
  rw [ofInt, String.length_append]
  split
  · rename_i hneg
    have hdigits := (Nat.length_repr_le_iff hk).2 (hlow.resolve_left (by omega))
    have hminus : "-".length = 1 := rfl
    omega
  · have hdigits := (Nat.length_repr_le_iff k.succ_pos).2 hhigh
    have hnone : "".length = 0 := rfl
    omega

end Numeral

/-- Texts of at most `k` characters that are joined. -/
theorem length_intercalate_le (sep : String) {parts : List String} {k : Nat}
    (h : ∀ s ∈ parts, s.length ≤ k) (hne : parts ≠ []) :
    (sep.intercalate parts).length + sep.length ≤ parts.length * (k + sep.length) := by
  induction parts with
  | nil => exact absurd rfl hne
  | cons s parts ih =>
    obtain ⟨hs, hparts⟩ := List.forall_mem_cons.1 h
    cases parts with
    | nil => simpa using hs
    | cons t parts =>
      have htail := ih hparts (List.cons_ne_nil t parts)
      rw [String.intercalate_cons_cons, String.length_append, String.length_append,
        List.length_cons, Nat.succ_mul]
      omega

/-! ## Traces -/

namespace DieSpec

variable {spec : DieSpec} {rolls : List Int}

theorem length_signed_bonus_le (hspec : spec.Fits) : (Numeral.signed spec.bonus).length ≤ 10 := by
  have hbonus := hspec.natAbs_bonus_le
  have hdigits : (Nat.repr spec.bonus.natAbs).length ≤ 9 :=
    (Nat.length_repr_le_iff (by omega)).2 (by omega)
  rw [Numeral.length_signed]
  omega

theorem length_shorthand_le (hspec : spec.Fits) : spec.shorthand.length ≤ 23 := by
  have hcount := hspec.count_le
  have hsides : spec.sides ≤ 255 := spec.le_maxSides
  have hcount' : (Nat.repr spec.count).length ≤ 9 :=
    (Nat.length_repr_le_iff (by omega)).2 (by omega)
  have hsides' : (Nat.repr spec.sides).length ≤ 3 :=
    (Nat.length_repr_le_iff (by omega)).2 (by omega)
  have hletter : "d".length = 1 := rfl
  have hbonus := length_signed_bonus_le hspec
  simp only [shorthand, String.length_append]
  split
  · have hnone : "".length = 0 := rfl
    omega
  · omega

/-- Rolls have three digits at most, and a plus sign stands between each and the next. -/
theorem length_sum_le (hrolls : spec.Rolled rolls) :
    ("+".intercalate (rolls.map Numeral.ofInt)).length + 1 ≤ 4 * spec.count := by
  have hshort : ∀ s ∈ rolls.map Numeral.ofInt, s.length ≤ 3 := by
    intro s hs
    obtain ⟨x, hx, rfl⟩ := List.mem_map.1 hs
    obtain ⟨hlow, hhigh⟩ := hrolls.isByte x hx
    exact Numeral.length_ofInt_le (by omega) (.inl hlow) (by omega)
  have hne : rolls.map Numeral.ofInt ≠ [] := by
    intro hnil
    have hlength := congrArg List.length hnil
    rw [List.length_map, hrolls.length_eq, List.length_nil] at hlength
    have hone := spec.one_le_count
    omega
  have hplus : "+".length = 1 := rfl
  have hjoined := length_intercalate_le "+" hshort hne
  rw [List.length_map, hrolls.length_eq, hplus] at hjoined
  omega

theorem length_shownRolls_le (hspec : spec.Fits) (hrolls : spec.Rolled rolls) :
    (spec.shownRolls rolls).length ≤ 4 * spec.count + 11 := by
  have hsum := length_sum_le hrolls
  have hbonus := length_signed_bonus_le hspec
  have hbrackets : "(".length = 1 ∧ ")".length = 1 := ⟨rfl, rfl⟩
  simp only [shownRolls]
  split
  · omega
  · simp only [String.length_append]
    omega

/-- Without a bonus the total is not negative, and a bonus takes at most nine digits off. -/
theorem length_total_le (hspec : spec.Fits) (hrolls : spec.Rolled rolls) :
    (Numeral.ofInt (spec.outcome rolls).total).length ≤ 12 := by
  obtain ⟨hcount, hbonus⟩ := hspec
  obtain ⟨hlow, hhigh⟩ := sum_of_bytes hrolls.isByte
  rw [hrolls.length_eq] at hhigh
  have htotal : (spec.outcome rolls).total = rolls.foldr (· + ·) 0 + spec.bonus := rfl
  rw [htotal]
  exact Numeral.length_ofInt_le (by omega) (by omega) (by omega)

theorem length_trace_le (hspec : spec.Fits) (hrolls : spec.Rolled rolls) :
    (spec.outcome rolls).trace.length ≤ 4 * spec.count + 54 := by
  have hheader := length_shorthand_le hspec
  have hshown := length_shownRolls_le hspec hrolls
  have htotal := length_total_le hspec hrolls
  have hmark : " ::= ".length = 5 := rfl
  have hequals : " = ".length = 3 := rfl
  have htrace : (spec.outcome rolls).trace = spec.trace rolls (spec.outcome rolls).total := rfl
  -- header, mark, rolls with what stands around them, and total: 23 + 5 + (4 * count + 11) + 15
  rw [htrace, trace_eq, String.length_append, String.length_append, String.length_append]
  split
  · rw [String.length_append]
    omega
  · have hnone : "".length = 0 := rfl
    omega

theorem exists_rolled {s t : Source} {o : Outcome} (h : spec.evaluate 1 s = (.ok o, t)) :
    ∃ rolls, spec.Rolled rolls ∧ o = spec.outcome rolls := by
  obtain ⟨rolls, hroll, rfl⟩ := exists_rolls h
  obtain ⟨hlength, hdraws⟩ := rollMany_eq_ok_iff.1 hroll
  have hrange := hdraws.mem_range
  refine ⟨rolls, ⟨hlength, fun x hx => (hrange x hx).1, fun x hx => ?_⟩, rfl⟩
  have hx := hrange x hx
  omega

theorem length_trace_of_evaluate (hspec : spec.Fits) {s t : Source} {o : Outcome}
    (h : spec.evaluate 1 s = (.ok o, t)) : o.trace.length ≤ 4 * spec.count + 54 := by
  obtain ⟨rolls, hrolls, rfl⟩ := exists_rolled h
  exact length_trace_le hspec hrolls

end DieSpec

/-! ## Replies -/

namespace Reply

/-- A label stands behind a space. -/
theorem length_heading_le (tag who : String) (label : Option String) :
    (heading tag who label).length ≤ tag.length + who.length + (label.getD "").length + 10 := by
  have hopening : " (".length = 2 := rfl
  have hclosing : ")  ==> ".length = 7 := rfl
  cases label with
  | none =>
    simp only [heading, String.length_append]
    omega
  | some label =>
    have hspace : " ".length = 1 := rfl
    simp only [heading, String.length_append, Option.getD_some]
    omega

theorem rollAll_singleton {spec : DieSpec} {s t : Source} {outcomes : List Outcome}
    (h : rollAll [spec] s = (.ok outcomes, t)) :
    ∃ o, spec.evaluate 1 s = (.ok o, t) ∧ outcomes = [o] := by
  rw [rollAll_cons] at h
  obtain ⟨o, u, ho, hrest⟩ := ok_of_andThen h
  cases hrest
  exact ⟨o, ho, rfl⟩

end Reply

section Single

variable {who reply : String} {args : Option String} {cap : Option Int} {order : DiceOrder}
  {spec : DieSpec} {s t : Source}

theorem exists_trace_of_single (hreply : diceReply who args cap s = (.ok (some reply), t))
    (horder : DiceOrder.ofArgs cap args = .order order) (hsingle : order.specs = [spec]) :
    ∃ o, spec.evaluate 1 s = (.ok o, t) ∧
      reply = Reply.heading "DICE" who order.label ++ o.trace := by
  obtain ⟨order', outcomes, horder', hroll, rfl⟩ := exists_outcomes hreply
  cases horder.symm.trans horder'
  rw [hsingle] at hroll
  obtain ⟨o, ho, rfl⟩ := Reply.rollAll_singleton hroll
  exact ⟨o, ho, String.intercalate_singleton⟩

theorem oneLine_of_single (hwho : OneLine who)
    (hreply : diceReply who args cap s = (.ok (some reply), t))
    (horder : DiceOrder.ofArgs cap args = .order order) (hsingle : order.specs = [spec]) :
    OneLine reply := by
  obtain ⟨o, ho, rfl⟩ := exists_trace_of_single hreply horder hsingle
  obtain ⟨rolls, -, rfl⟩ := DieSpec.exists_rolls ho
  have hheading : OneLine (Reply.heading "DICE" who order.label) :=
    .heading (by decide) hwho (DiceOrder.oneLine_label horder)
  exact hheading.append (.trace spec rolls _)

theorem length_of_single (hreply : diceReply who args cap s = (.ok (some reply), t))
    (horder : DiceOrder.ofArgs cap args = .order order) (hsingle : order.specs = [spec]) :
    reply.length ≤ 4 * spec.count + who.length + (order.label.getD "").length + 68 := by
  obtain ⟨o, ho, rfl⟩ := exists_trace_of_single hreply horder hsingle
  have hfits : spec.Fits := DiceOrder.fits_of_ofArgs horder spec (by simp [hsingle])
  have htrace := DieSpec.length_trace_of_evaluate hfits ho
  have hheading := Reply.length_heading_le "DICE" who order.label
  have htag : "DICE".length = 4 := rfl
  rw [String.length_append]
  omega

theorem count_le_of_single {n : Int} (horder : DiceOrder.ofArgs (some n) args = .order order)
    (hsingle : order.specs = [spec]) : (spec.count : Int) ≤ n := by
  have hmem : spec ∈ (DiceOrder.ofArgs (some n) args).specs := by
    rw [horder]
    simp [DiceOrder.Taken.specs, hsingle]
  exact DiceOrder.count_le_of_mem_ofArgs hmem n rfl

end Single

namespace Table

/-- A trace has four characters for each die and at most 54 more. So under a cap of up to 100, if
name and label have at most 1500 characters, the reply to an order of one expression is one line
within the limit of the chat, and is posted as it is. -/
theorem single_roll_single_post :
    (∀ (text : String) (spec : DieSpec) (s u : Source) (o : Outcome),
      DieSpec.parse (some text) = .ok spec → spec.evaluate 1 s = (.ok o, u) →
      o.trace.length ≤ 4 * spec.count + 54) ∧
    ∀ (t : Table) (who channel args reply : String) (refusal : Option Refusal) (order : DiceOrder)
      (u : Source),
      t.store.settings.maxDice ≤ 100 →
      diceReply who (some args) (some t.store.settings.maxDice) t.source = (.ok (some reply), u) →
      DiceOrder.ofArgs (some t.store.settings.maxDice) (some args) = .order order →
      order.specs.length = 1 → OneLine who → who.length + (order.label.getD "").length ≤ 1500 →
      OneLine reply ∧ reply.length ≤ 2000 ∧ diceMessages reply = [reply] ∧
        (Takes refusal [reply] → (t.step (.roll who channel args refusal)).1.posts = [reply]) := by
  constructor
  · intro text spec s u o hparse hevaluate
    exact DieSpec.length_trace_of_evaluate (DieSpec.fits_of_parse hparse) hevaluate
  · intro t who channel args reply refusal order u hcap hreply horder hspecs hwho hshort
    obtain ⟨spec, hsingle⟩ := List.length_eq_one_iff.1 hspecs
    have hcount := count_le_of_single horder hsingle
    have hlength := length_of_single hreply horder hsingle
    have hline := oneLine_of_single hwho hreply horder hsingle
    have hfits : reply.length ≤ 2000 := by omega
    have hplain := diceMessages_plain ⟨hline, hfits⟩
    refine ⟨hline, hfits, hplain, fun htaken => ?_⟩
    rw [← hplain] at htaken
    rw [posts_of_diceReply hreply htaken, hplain]

/-- A roll with a negative bonus and a label. -/
theorem single_roll_single_post_fire :
    let t : Table := ⟨.fresh 1 (by decide) (.stream [4, 0]), ⟨{}, .absent⟩⟩
    let spec : DieSpec := ⟨2, 6, -9, by decide, by decide, by decide⟩
    let reply := "DICE (ann fire)  ==> 2d6-9 ::= (5+1)-9 = -3"
    DieSpec.parse (some "2d6-9") = .ok spec ∧
      (∃ o u, spec.evaluate 1 t.source = (.ok o, u) ∧ o.trace = "2d6-9 ::= (5+1)-9 = -3" ∧
        o.trace.length ≤ 4 * spec.count + 54) ∧
      (diceReply "ann" (some "2d6-9 fire") (some 100) t.source).1 = .ok (some reply) ∧
      OneLine reply ∧ diceMessages reply = [reply] ∧
      (t.step (.roll "ann" "table" "2d6-9 fire" none)).1.posts = [reply] := by
  have hrolled : (diceReply "ann" (some "2d6-9 fire") (some 100)
      (.fresh 1 (by decide) (.stream [4, 0]))).1 =
        .ok (some "DICE (ann fire)  ==> 2d6-9 ::= (5+1)-9 = -3") := by decide +kernel
  intro t spec reply
  let o : Outcome := ⟨[5, 1], -9, -3, "2d6-9 ::= (5+1)-9 = -3"⟩
  have hparse : DieSpec.parse (some "2d6-9") = .ok spec := by decide +kernel
  have houtcome : (spec.evaluate 1 t.source).1 = .ok o := by decide +kernel
  have hevaluate : spec.evaluate 1 t.source = (.ok o, (spec.evaluate 1 t.source).2) :=
    Prod.ext houtcome rfl
  have hreply : (diceReply "ann" (some "2d6-9 fire") (some 100) t.source).1 =
      .ok (some reply) := hrolled
  have hdraw : diceReply "ann" (some "2d6-9 fire") (some 100) t.source =
      (.ok (some reply), (diceReply "ann" (some "2d6-9 fire") (some 100) t.source).2) :=
    Prod.ext hreply rfl
  have horder : DiceOrder.ofArgs (some 100) (some "2d6-9 fire") = .order ⟨[spec], some "fire"⟩ := by
    decide +kernel
  obtain ⟨htraces, hposts⟩ := single_roll_single_post
  have hlength := htraces "2d6-9" spec t.source _ o hparse hevaluate
  obtain ⟨hline, -, hplain, hposted⟩ :=
    hposts t "ann" "table" "2d6-9 fire" reply none ⟨[spec], some "fire"⟩ _ (by decide) hdraw horder
      rfl (by decide) (by decide)
  exact ⟨hparse, ⟨o, _, hevaluate, rfl, hlength⟩, hreply, hline, hplain, hposted nofun⟩

end Table
end Croupier
