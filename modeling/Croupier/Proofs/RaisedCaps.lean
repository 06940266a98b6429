import Croupier.Proofs.Bundles

/-!
# Croupier.Proofs.RaisedCaps

A raised cap adds dice and changes nothing else. What was taken is still taken, further words may
be taken after it, out of what was the label, and the dice that were rolled are rolled in the same
places of the stream.

* `DiceOrder.take_prefix`, `DiceOrder.labelWords_suffix`: what is taken, and what is left.
* `Reply.traces_prefix`: the dice of a longer row of expressions.
* `raised_cap_adds_dice`: one line under two caps.
-/

namespace Croupier

open Entropy Drawing

/-- The first cap is not above the second; no cap is above all. -/
def CapLe (low high : Option Int) : Prop :=
  ∀ n' ∈ high, ∃ n ∈ low, n ≤ n'

namespace DiceOrder

namespace Taken

def specs : Taken → List DieSpec
  | .order o => o.specs
  | _ => []

/-- The words of the label; where nothing was taken there is no label. -/
def labelWords : Taken → List String
  | .order o => o.label.toList.flatMap Text.words
  | _ => []

end Taken

/-! ## What is taken -/

section

variable {cap low high : Option Int}

theorem accept?_of_capLe (h : CapLe low high) {word : String} {spec : DieSpec}
    (hword : accept? low word = some spec) : accept? high word = some spec := by
  obtain ⟨hparse, hcap⟩ := accept?_eq_some_iff.1 hword
  refine accept?_eq_some_iff.2 ⟨hparse, fun n' hn' => ?_⟩
  obtain ⟨n, hn, hle⟩ := h n' hn'
  exact Int.le_trans (hcap n hn) hle

theorem take_prefix (h : CapLe low high) (words : List String) :
    (take low words).1 <+: (take high words).1 := by
  induction words with
  | nil => exact List.prefix_rfl
  | cons word words ih =>
    cases hword : accept? low word with
    | none =>
      rw [take, hword]
      exact List.nil_prefix
    | some spec =>
      simp only [take, hword, accept?_of_capLe h hword]
      exact List.cons_prefix_cons.2 ⟨rfl, ih⟩

theorem specs_ofArgs (cap : Option Int) (args : Option String) :
    (ofArgs cap args).specs = (take cap (commandWords args)).1 := by
  rw [ofArgs]
  rcases take cap (commandWords args) with ⟨specs, rest⟩
  cases specs with
  | nil => cases rest <;> rfl
  | cons spec specs => rfl

theorem count_le_of_mem_ofArgs {args : Option String} {spec : DieSpec}
    (h : spec ∈ (ofArgs cap args).specs) : ∀ n ∈ cap, (spec.count : Int) ≤ n := by
  rw [specs_ofArgs] at h
  obtain ⟨word, -, hword⟩ := exists_word_of_mem_take h
  exact (accept?_eq_some_iff.1 hword).2

theorem labelWords_suffix (cap : Option Int) (args : Option String) :
    (ofArgs cap args).labelWords <:+ (commandWords args).drop (ofArgs cap args).specs.length := by
  cases horder : ofArgs cap args with
  | nothing => exact List.nil_suffix
  | refused word => exact List.nil_suffix
  | order order =>
    obtain ⟨-, rest, htake, hlabel⟩ := take_of_ofArgs horder
    have hrest := take_snd cap (commandWords args)
    simp only [htake] at hrest
    have hwords : ∀ w ∈ rest, Text.IsWord w := by
      intro w hw
      rw [hrest] at hw
      exact isWord_of_mem_commandWords (List.mem_of_mem_drop hw)
    simp only [Taken.labelWords, Taken.specs]
    rw [hlabel, words_labelOf hwords]
    exact hrest ▸ List.suffix_rfl

end

end DiceOrder

/-! ## What is rolled -/

theorem Reply.traces_prefix {specs specs' : List DieSpec} (h : specs <+: specs') {s t t' : Source}
    {outcomes outcomes' : List Outcome} (hroll : rollAll specs s = (.ok outcomes, t))
    (hroll' : rollAll specs' s = (.ok outcomes', t')) :
    outcomes.map Outcome.trace <+: outcomes'.map Outcome.trace := by
  obtain ⟨more, rfl⟩ := h
  rw [rollAll_append, andThen_of_ok hroll] at hroll'
  obtain ⟨added, -, rfl⟩ := ok_of_map hroll'
  rw [List.map_append]
  exact List.prefix_append _ _

/-- One line under two caps. Under the higher cap the same dice come first, and what follows them
was part of what the lower cap left over. If there is a reply under both caps over the same source,
then the traces in the one are the first traces in the other. -/
theorem raised_cap_adds_dice {low high : Option Int} (h : CapLe low high) (args : Option String) :
    let taken := DiceOrder.ofArgs low args
    let taken' := DiceOrder.ofArgs high args
    (∀ spec ∈ taken.specs, ∀ n ∈ low, (spec.count : Int) ≤ n) ∧
      taken.specs <+: taken'.specs ∧
      taken'.labelWords <:+ (commandWords args).drop taken.specs.length ∧
      ∀ (who : String) (s t t' : Source) (reply reply' : String),
        diceReply who args low s = (.ok (some reply), t) →
        diceReply who args high s = (.ok (some reply'), t') →
        ∃ order order' outcomes outcomes',
          taken = .order order ∧ Reply.rollAll order.specs s = (.ok outcomes, t) ∧
          reply = Reply.diceText who order.label outcomes ∧
          taken' = .order order' ∧ Reply.rollAll order'.specs s = (.ok outcomes', t') ∧
          reply' = Reply.diceText who order'.label outcomes' ∧
          outcomes.map Outcome.trace <+: outcomes'.map Outcome.trace := by
  intro taken taken'
  have hspecs : taken.specs <+: taken'.specs := by
    simp only [taken, taken', DiceOrder.specs_ofArgs]
    exact DiceOrder.take_prefix h (commandWords args)
  refine ⟨fun spec hspec => DiceOrder.count_le_of_mem_ofArgs hspec, hspecs, ?_, ?_⟩
  · exact (DiceOrder.labelWords_suffix high args).trans
      (List.drop_suffix_drop_left _ hspecs.length_le)
  · intro who s t t' reply reply' hreply hreply'
    obtain ⟨order, outcomes, horder, hroll, htext⟩ := exists_outcomes hreply
    obtain ⟨order', outcomes', horder', hroll', htext'⟩ := exists_outcomes hreply'
    simp only [taken, taken', horder, horder', DiceOrder.Taken.specs] at hspecs
    exact ⟨order, order', outcomes, outcomes', horder, hroll, htext, horder', hroll', htext',
      Reply.traces_prefix hspecs hroll hroll'⟩

/-- Three dice are part of the label under a cap of two, and are rolled where there is no cap. -/
theorem raised_cap_adds_dice_fire :
    let args := some "d6 3d6 fire"
    let s : Source := .fresh 1 (by decide) (.stream [4, 0, 1, 2])
    let one := "1d6 ::= 5"
    let three := "3d6 ::= 1+2+3 = 6"
    let reply := "DICE (ann 3d6 fire)  ==> " ++ one
    let reply' := "DICE (ann fire)  ==> " ++ one ++ "\n" ++ "DICE (ann fire)  ==> " ++ three
    CapLe (some 2) none ∧
      (DiceOrder.ofArgs none args).labelWords <:+ ["3d6", "fire"] ∧
      ∃ t t', diceReply "ann" args (some 2) s = (.ok (some reply), t) ∧
        diceReply "ann" args none s = (.ok (some reply'), t') ∧
        ∃ label label' outcomes outcomes',
          reply = Reply.diceText "ann" label outcomes ∧
          reply' = Reply.diceText "ann" label' outcomes' ∧
          outcomes.map Outcome.trace <+: outcomes'.map Outcome.trace := by
  intro args s one three reply reply'
  have hcap : CapLe (some 2) none := nofun
  have hleft : (commandWords args).drop (DiceOrder.ofArgs (some 2) args).specs.length =
      ["3d6", "fire"] := by decide +kernel
  have hlow : (diceReply "ann" args (some 2) s).1 = .ok (some reply) := by decide +kernel
  have hhigh : (diceReply "ann" args none s).1 = .ok (some reply') := by decide +kernel
  rcases ht : diceReply "ann" args (some 2) s with ⟨r, t⟩
  rcases ht' : diceReply "ann" args none s with ⟨r', t'⟩
  rw [ht] at hlow
  rw [ht'] at hhigh
  obtain rfl : r = .ok (some reply) := hlow
  obtain rfl : r' = .ok (some reply') := hhigh
  obtain ⟨-, -, hlabel, hdrawn⟩ := raised_cap_adds_dice hcap args
  rw [hleft] at hlabel
  obtain ⟨order, order', outcomes, outcomes', -, -, htext, -, -, htext', htraces⟩ :=
    hdrawn "ann" s t t' reply reply' ht ht'
  exact ⟨hcap, hlabel, t, t', rfl, rfl, order.label, order'.label, outcomes, outcomes', htext,
    htext', htraces⟩

end Croupier
