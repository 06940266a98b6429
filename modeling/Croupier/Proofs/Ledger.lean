import Croupier.Proofs.Drawing
import Croupier.Proofs.Scenes
import Mathlib.Data.List.Forall2

/-!
# Croupier.Proofs.Ledger

No byte is lost, repeated or invented. A `Trail` leads through all the states a source passes
while bytes are asked of it and buffers filled from it, and keeps the bytes that were handed out.

* `Trail.balance`: what was handed out and what is unread together are what was unread before and
  what the provider has since put into the block.
* `Drawing.ByBytes.exists_trail`: what is drawn is made of the bytes that were handed out for it.
* `Session.GivesBack`: how what a call gives back comes from those bytes.
* `Session.trail_of_run`: a session moves its source along a trail, whatever its calls come to.
* `Accounted`: what this comes to at a point of a session that began with an unused source.
-/

namespace Croupier
namespace Entropy

/-- The bytes that a request brought into the block. -/
def Request.taken (r : Request) : List UInt8 :=
  match r.purpose, r.answer with
  | .block, .bytes data => if data.length = r.size then data else []
  | _, _ => []

/-- The answers that were taken for the block, one after another. -/
def Supply.accepted (s : Supply) : List UInt8 :=
  s.history.toList.flatMap Request.taken

theorem Supply.accepted_asked (purpose : Purpose) (n : Nat) (s : Supply) :
    (s.asked purpose n).accepted =
      s.accepted ++ Request.taken ⟨purpose, n, (s.provider.ask n).1⟩ := by
  simp [Supply.accepted, Supply.asked]

/-- An answer to a request for `n` bytes that is not taken, and the failure it makes. -/
inductive Refused (n : Nat) : Answer → Failure → Prop
  | outage {how : Breakdown} {message : String} : how = .system ∨ how = .unsupported →
      Refused n (.broke how message) (.unavailable (.providerFailed message))
  | defect {how : Breakdown} {message : String} : how = .badValue ∨ how = .internal →
      Refused n (.broke how message) (.defect how message)
  | nothing : Refused n .nothing (.unavailable (.wrongLength n 0))
  | length {data : List UInt8} : data.length ≠ n →
      Refused n (.bytes data) (.unavailable (.wrongLength n data.length))

theorem refused_of_judge {n : Nat} {answer : Answer} {e : Failure}
    (h : Supply.judge n answer = .error e) : Refused n answer e := by
  cases answer with
  | bytes data =>
    simp only [Supply.judge] at h
    split at h
    · cases h
    · cases h; exact .length ‹_›
  | nothing => cases h; exact .nothing
  | broke how message =>
    cases how with
    | system => cases h; exact .outage (.inl rfl)
    | unsupported => cases h; exact .outage (.inr rfl)
    | badValue => cases h; exact .defect (.inl rfl)
    | internal => cases h; exact .defect (.inr rfl)

theorem taken_of_refused {n : Nat} {answer : Answer} {e : Failure} (h : Refused n answer e)
    (purpose : Purpose) : Request.taken ⟨purpose, n, answer⟩ = [] := by
  cases purpose <;> cases h <;> simp [Request.taken, *]

/-- A byte is refused when the provider fails, or answers with a wrong number of bytes. -/
theorem Refused.failure_cases {n : Nat} {answer : Answer} {e : Failure} (h : Refused n answer e) :
    (∃ outage, e = .unavailable outage) ∨
      ∃ how message, (how = .badValue ∨ how = .internal) ∧ e = .defect how message := by
  cases h with
  | outage _ => exact .inl ⟨_, rfl⟩
  | defect hhow => exact .inr ⟨_, _, hhow, rfl⟩
  | nothing => exact .inl ⟨_, rfl⟩
  | length _ => exact .inl ⟨_, rfl⟩

namespace Source

/-- From one state of a source to another by requests for a byte, granted or refused, and by
fillings of other buffers, successful or not. The list is what was handed out on the way. -/
inductive Trail : Source → List UInt8 → Source → Prop
  | refl {s : Source} : Trail s [] s
  | byte {s t u : Source} {b : UInt8} {handed : List UInt8} :
      s.nextByte = (.ok b, t) → Trail t handed u → Trail s (b :: handed) u
  | refused {s t u : Source} {e : Failure} {handed : List UInt8} :
      s.nextByte = (.error e, t) → Trail t handed u → Trail s handed u
  | fill {s t u : Source} {n : Nat} {buffer buffer' : Buffer n} {outcome : Except Failure Unit}
      {handed : List UInt8} :
      s.fill buffer = (outcome, buffer', t) → Trail t handed u → Trail s handed u

theorem Trail.trans {s t u : Source} {xs ys : List UInt8} (h₁ : Trail s xs t)
    (h₂ : Trail t ys u) : Trail s (xs ++ ys) u := by
  induction h₁ with
  | refl => exact h₂
  | byte h _ ih => exact .byte h (ih h₂)
  | refused h _ ih => exact .refused h (ih h₂)
  | fill h _ ih => exact .fill h (ih h₂)

/-! ## What single steps do -/

section Step

variable {s t : Source}

theorem balance_of_byte {b : UInt8} (h : s.nextByte = (.ok b, t)) :
    ∃ blocks, t.supply.accepted = s.supply.accepted ++ blocks ∧
      s.unread ++ blocks = b :: t.unread := by
  rcases nextByte_cases h with ⟨c, hc, hu, -, hsupply⟩ | ⟨c, hc, hu, -, hask, hlen, hsupply⟩ |
    ⟨e, he, -⟩
  · cases hc
    exact ⟨[], by rw [hsupply, List.append_nil], by rw [hu, List.append_nil]⟩
  · cases hc
    refine ⟨b :: t.unread, ?_, by rw [hu, List.nil_append]⟩
    rw [hsupply, Supply.accepted_asked, hask]
    simp [Request.taken, hlen]
  · cases he

theorem refusal_of_nextByte {e : Failure} (h : s.nextByte = (.error e, t)) :
    Refused s.blockSize (s.supply.provider.ask s.blockSize).1 e ∧
      t = { s with supply := s.supply.asked .block s.blockSize } := by
  rcases nextByte_cases h with ⟨c, hc, -⟩ | ⟨c, hc, -⟩ | ⟨e', he, -, hj, ht⟩
  · cases hc
  · cases hc
  · cases he
    exact ⟨refused_of_judge hj, ht⟩

theorem balance_of_refused {e : Failure} (h : s.nextByte = (.error e, t)) :
    t.supply.accepted = s.supply.accepted ∧ t.unread = s.unread := by
  obtain ⟨hrefused, rfl⟩ := refusal_of_nextByte h
  refine ⟨?_, rfl⟩
  rw [Supply.accepted_asked, taken_of_refused hrefused, List.append_nil]

theorem fill_eq {n : Nat} {buffer buffer' : Buffer n} {outcome : Except Failure Unit}
    (h : s.fill buffer = (outcome, buffer', t)) :
    t = { s with supply := s.supply.asked .buffer n } ∧
      (outcome = .ok () → (s.supply.provider.ask n).1 = .bytes buffer'.bytes) ∧
      ∀ e, outcome = .error e → Refused n (s.supply.provider.ask n).1 e ∧ buffer' = buffer := by
  cases hj : Supply.judge n (s.supply.provider.ask n).1 with
  | ok filled =>
    rw [fill, Supply.fill_of_ok hj] at h
    cases h
    exact ⟨rfl, fun _ => Supply.eq_bytes_of_judge hj, nofun⟩
  | error e =>
    rw [fill, Supply.fill_of_error hj] at h
    cases h
    refine ⟨rfl, nofun, fun e' he => ?_⟩
    cases he
    exact ⟨refused_of_judge hj, rfl⟩

theorem balance_of_fill {n : Nat} {buffer buffer' : Buffer n} {outcome : Except Failure Unit}
    (h : s.fill buffer = (outcome, buffer', t)) :
    t.supply.accepted = s.supply.accepted ∧ t.unread = s.unread := by
  obtain ⟨rfl, -⟩ := fill_eq h
  refine ⟨?_, rfl⟩
  rw [Supply.accepted_asked]
  simp [Request.taken]

end Step

theorem Trail.balance {s t : Source} {handed : List UInt8} (h : Trail s handed t) :
    ∃ blocks, t.supply.accepted = s.supply.accepted ++ blocks ∧
      s.unread ++ blocks = handed ++ t.unread := by
  induction h with
  | refl => exact ⟨[], (List.append_nil _).symm, by simp⟩
  | byte h _ ih =>
    obtain ⟨blocks, haccepted, hunread⟩ := balance_of_byte h
    obtain ⟨blocks', haccepted', hunread'⟩ := ih
    refine ⟨blocks ++ blocks', by rw [haccepted', haccepted, List.append_assoc], ?_⟩
    rw [← List.append_assoc, hunread, List.cons_append, hunread', List.cons_append]
  | refused h _ ih =>
    obtain ⟨haccepted, hunread⟩ := balance_of_refused h
    rw [haccepted, hunread] at ih
    exact ih
  | fill h _ ih =>
    obtain ⟨haccepted, hunread⟩ := balance_of_fill h
    rw [haccepted, hunread] at ih
    exact ih

/-! ## The sizes that are asked for -/

/-- Blocks have `n` bytes, and every request for one has asked for `n`. -/
structure Uniform (n : Nat) (s : Source) : Prop where
  blockSize_eq : s.blockSize = n
  size_eq : ∀ r ∈ s.supply.history.toList, r.purpose = .block → r.size = n

theorem Uniform.nextByte {n : Nat} {s t : Source} {r : Except Failure UInt8} (hs : Uniform n s)
    (h : s.nextByte = (r, t)) : Uniform n t := by
  obtain ⟨hsize, hrequests⟩ := hs
  have hasked : ∀ r ∈ (s.supply.asked .block s.blockSize).history.toList,
      r.purpose = .block → r.size = n := by
    intro r hr
    simp only [Supply.asked, Array.toList_push, List.mem_append, List.mem_singleton] at hr
    rcases hr with hr | rfl
    · exact hrequests r hr
    · exact fun _ => hsize
  rcases nextByte_cases h with ⟨-, -, -, hblock, hsupply⟩ | ⟨-, -, -, hblock, -, -, hsupply⟩ |
    ⟨-, -, -, -, rfl⟩
  · exact ⟨hblock.trans hsize, by rw [hsupply]; exact hrequests⟩
  · exact ⟨hblock.trans hsize, by rw [hsupply]; exact hasked⟩
  · exact ⟨hsize, hasked⟩

theorem Uniform.fill {n m : Nat} {s t : Source} {buffer buffer' : Buffer m}
    {outcome : Except Failure Unit} (hs : Uniform n s)
    (h : s.fill buffer = (outcome, buffer', t)) : Uniform n t := by
  obtain ⟨rfl, -⟩ := fill_eq h
  refine ⟨hs.blockSize_eq, fun r hr => ?_⟩
  simp only [Supply.asked, Array.toList_push, List.mem_append, List.mem_singleton] at hr
  rcases hr with hr | rfl
  · exact hs.size_eq r hr
  · exact fun hpurpose => by cases hpurpose

theorem Trail.uniform {n : Nat} {s t : Source} {handed : List UInt8} (h : Trail s handed t)
    (hs : Uniform n s) : Uniform n t := by
  induction h with
  | refl => exact hs
  | byte h _ ih => exact ih (hs.nextByte h)
  | refused h _ ih => exact ih (hs.nextByte h)
  | fill h _ ih => exact ih (hs.fill h)

end Source
end Entropy

open Entropy Drawing

/-! ## What is made of the bytes -/

/-- Any source that has the bytes unread makes this of them, and leaves the rest alone. -/
def Drawing.Makes {α : Type} (d : Drawing α) (handed : List UInt8) (a : α) : Prop :=
  ∀ (s : Source) (rest : List UInt8), s.unread = handed ++ rest →
    ∃ t, d s = (.ok a, t) ∧ t.unread = rest ∧ t.supply = s.supply

namespace Drawing

variable {α β : Type} {d : Drawing α} {f : α → Drawing β}

theorem makes_give (a : α) : (give a).Makes [] a :=
  fun s _ h => ⟨s, rfl, h, rfl⟩

theorem makes_nextByte (b : UInt8) : Makes Source.nextByte [b] b := by
  intro s rest h
  obtain ⟨t, ht, hrest, -, hsupply⟩ := Source.nextByte_of_unread h
  exact ⟨t, ht, hrest, hsupply⟩

theorem makes_andThen {xs ys : List UInt8} {a : α} {b : β} (hd : d.Makes xs a)
    (hf : (f a).Makes ys b) : (d.andThen f).Makes (xs ++ ys) b := by
  intro s rest h
  rw [List.append_assoc] at h
  obtain ⟨t, ht, hunread, hsupply⟩ := hd s (ys ++ rest) h
  obtain ⟨u, hu, hrest, hsupply'⟩ := hf t rest hunread
  exact ⟨u, by rw [andThen_of_ok ht, hu], hrest, hsupply'.trans hsupply⟩

end Drawing

/-! ## Sessions move along trails -/

theorem exists_trail_drawWithin (bound fuel : Nat) (s : Source) :
    ∃ handed, s.Trail handed (drawWithin bound fuel s).2 ∧
      ∀ b, (drawWithin bound fuel s).1 = .ok b →
        ∀ enough, handed.length ≤ enough → Makes (drawWithin bound enough) handed b := by
  induction fuel generalizing s with
  | zero => exact ⟨[], .refl, nofun⟩
  | succ fuel ih =>
    rcases h : s.nextByte with ⟨r, t⟩
    cases r with
    | error e =>
      rw [drawWithin_succ_of_error h]
      exact ⟨[], .refused h .refl, nofun⟩
    | ok b =>
      by_cases hb : b.toNat < bound
      · rw [drawWithin_succ_of_lt h hb]
        refine ⟨[b], .byte h .refl, ?_⟩
        rintro b ⟨⟩ (_ | enough) hlength s' rest hs'
        · cases hlength
        · obtain ⟨t', ht', hrest, hsupply⟩ := makes_nextByte b s' rest hs'
          exact ⟨t', drawWithin_succ_of_lt ht' hb, hrest, hsupply⟩
      · rw [drawWithin_succ_of_le h (Nat.not_lt.1 hb)]
        obtain ⟨handed, ht, hmakes⟩ := ih t
        refine ⟨b :: handed, .byte h ht, ?_⟩
        rintro c hc (_ | enough) hlength s' rest hs'
        · cases hlength
        · obtain ⟨t', ht', hrest', hsupply'⟩ := makes_nextByte b s' (handed ++ rest) hs'
          obtain ⟨u, hu, hrest, hsupply⟩ :=
            hmakes c hc enough (Nat.le_of_succ_le_succ hlength) t' rest hrest'
          refine ⟨u, ?_, hrest, hsupply.trans hsupply'⟩
          rw [drawWithin_succ_of_le ht' (Nat.not_lt.1 hb), hu]

/-- Whatever is drawn moves the source along a trail, and what it gives is made of the bytes that
were handed out on the way. -/
theorem Drawing.ByBytes.exists_trail {α : Type} {d : Drawing α} (hd : ByBytes d) (s : Source) :
    ∃ handed, s.Trail handed (d s).2 ∧ ∀ a, (d s).1 = .ok a → d.Makes handed a := by
  induction hd generalizing s with
  | give a =>
    refine ⟨[], .refl, ?_⟩
    rintro a ⟨⟩
    exact makes_give a
  | fail e => exact ⟨[], .refl, nofun⟩
  | byte =>
    rcases h : s.nextByte with ⟨r, t⟩
    cases r with
    | error e => exact ⟨[], .refused h .refl, nofun⟩
    | ok b =>
      refine ⟨[b], .byte h .refl, ?_⟩
      rintro b ⟨⟩
      exact makes_nextByte b
  | draw _ _ =>
    obtain ⟨handed, htrail, hmakes⟩ := exists_trail_drawWithin _ (s.horizon + 1) s
    refine ⟨handed, htrail, fun b hb s' rest hs' => ?_⟩
    -- the horizon of a source lies behind its unread bytes
    have hlength := congrArg List.length hs'
    rw [Source.length_unread, List.length_append] at hlength
    exact hmakes b hb (s'.horizon + 1) (by rw [Source.horizon]; omega) s' rest hs'
  | @andThen _ _ d f _ _ ihd ihf =>
    obtain ⟨handed, ht, hmakes⟩ := ihd s
    rcases h : d s with ⟨r, t⟩
    rw [h] at ht hmakes
    cases r with
    | error e =>
      rw [andThen_of_error h]
      exact ⟨handed, ht, nofun⟩
    | ok a =>
      obtain ⟨handed', ht', hmakes'⟩ := ihf a t
      rw [andThen_of_ok h]
      exact ⟨handed ++ handed', ht.trans ht', fun b hb => makes_andThen (hmakes a rfl) (hmakes' b hb)⟩

namespace Session

/-- How what a call gives back comes from the bytes that were handed out for it. A byte is the one
that was; a buffer is filled with what the provider answers, and nothing is handed out; everything
else is what any source makes that has these bytes unread. -/
inductive GivesBack (s : Source) : Call → List UInt8 → Except Failure Product → Prop
  | byte {b : UInt8} : GivesBack s .byte [b] (.ok (.byte b))
  | noByte {e : Failure} : Refused s.blockSize (s.supply.provider.ask s.blockSize).1 e →
      GivesBack s .byte [] (.error e)
  | fill {n : Nat} {data : List UInt8} : (s.supply.provider.ask n).1 = .bytes data →
      data.length = n → GivesBack s (.fill n) [] (.ok (.bytes data))
  | noFill {n : Nat} {e : Failure} : Refused n (s.supply.provider.ask n).1 e →
      GivesBack s (.fill n) [] (.error e)
  | drawn {call : Call} {d : Drawing Product} {handed : List UInt8} {p : Product} :
      call ≠ .byte → call.drawing? = some d → d.Makes handed p → GivesBack s call handed (.ok p)
  | undrawn {call : Call} {d : Drawing Product} {handed : List UInt8} {e : Failure} :
      call ≠ .byte → call.drawing? = some d → (d s).1 = .error e →
      GivesBack s call handed (.error e)

theorem givesBack_byte (s : Source) :
    ∃ handed, s.Trail handed (Call.run s .byte).2 ∧
      GivesBack s .byte handed (Call.run s .byte).1.product := by
  simp only [Call.run, product]
  rcases h : s.nextByte with ⟨r, t⟩
  cases r with
  | error e => exact ⟨[], .refused h .refl, .noByte (Source.refusal_of_nextByte h).1⟩
  | ok b => exact ⟨[b], .byte h .refl, .byte⟩

theorem givesBack_fill (s : Source) (n : Nat) :
    GivesBack s (.fill n) [] (Call.run s (.fill n)).1.product := by
  simp only [Call.run, product]
  rcases h : s.fill (.blank : Buffer n) with ⟨outcome, buffer, t⟩
  obtain ⟨-, hfilled, hfails⟩ := Source.fill_eq h
  cases outcome with
  | error e => exact .noFill (hfails e rfl).1
  | ok _ => exact .fill (hfilled rfl) buffer.length_bytes

theorem exists_givesBack (call : Call) (s : Source) :
    ∃ handed, s.Trail handed (call.run s).2 ∧ GivesBack s call handed (call.run s).1.product := by
  by_cases hbyte : call = .byte
  · rw [hbyte]
    exact givesBack_byte s
  cases hfill : call.isFill with
  | false =>
    obtain ⟨d, records, hdrawing, hd, hrun⟩ := drawing_of_call hfill
    obtain ⟨handed, htrail, hmakes⟩ := hd.exists_trail s
    rw [hrun]
    refine ⟨handed, htrail, ?_⟩
    cases hresult : (d s).1 with
    | error e => exact .undrawn hbyte hdrawing hresult
    | ok p => exact .drawn hbyte hdrawing (hmakes p hresult)
  | true =>
    cases call with
    | fill n => exact ⟨[], .fill rfl .refl, givesBack_fill s n⟩
    | _ => cases hfill

/-- A call of a session, and the bytes that were handed out for it. -/
def Settles (x : Scene Source Call Turn) (handed : List UInt8) : Prop :=
  x.before.Trail handed x.after ∧ GivesBack x.before x.event handed x.turn.product

theorem trail_of_run (calls : List Call) (s : Source) :
    ∃ handed, List.Forall₂ Settles (scenes Call.run s calls) handed ∧
      s.Trail handed.flatten (run s calls).2 := by
  induction calls generalizing s with
  | nil => exact ⟨[], .nil, .refl⟩
  | cons call calls ih =>
    obtain ⟨handed, ht, hgives⟩ := exists_givesBack call s
    obtain ⟨rest, hrest, ht'⟩ := ih (call.run s).2
    exact ⟨handed :: rest, .cons ⟨ht, hgives⟩ hrest, ht.trans ht'⟩

end Session

/-! ## The account -/

/-- The account of an unused source with blocks of `n` bytes, at a point where `handed` has been
handed out. -/
structure Accounted (n : Nat) (handed : List UInt8) (s : Source) : Prop where
  balance : handed ++ s.unread = s.supply.accepted
  sizes : ∀ r ∈ s.supply.history.toList, r.purpose = .block → r.size = n
  /-- While there are unread bytes nothing is asked for. -/
  reads : s.unread ≠ [] → s.nextByte.2.supply = s.supply
  /-- A refill comes when all there was has been handed out, and asks for one block. -/
  refills : s.unread = [] → handed = s.supply.accepted ∧
    s.nextByte.2.supply = s.supply.asked .block n
  /-- A refill that fails leaves block and cursor alone. -/
  refusals : ∀ e t, s.nextByte = (.error e, t) →
    Refused n (s.supply.provider.ask n).1 e ∧ t = { s with supply := s.supply.asked .block n }
  /-- A filling leaves block and cursor alone, and one that fails its buffer, too. -/
  fillings : ∀ m (buffer buffer' : Buffer m) outcome t, s.fill buffer = (outcome, buffer', t) →
    t = { s with supply := s.supply.asked .buffer m } ∧
    (outcome = .ok () → (s.supply.provider.ask m).1 = .bytes buffer'.bytes) ∧
    ∀ e, outcome = .error e → Refused m (s.supply.provider.ask m).1 e ∧ buffer' = buffer

theorem accounted_of_balance {n : Nat} {handed : List UInt8} {s : Source} (hs : s.Uniform n)
    (hb : handed ++ s.unread = s.supply.accepted) : Accounted n handed s := by
  obtain ⟨rfl, hsizes⟩ := hs
  rcases hn : s.nextByte with ⟨r, t⟩
  refine ⟨hb, hsizes, fun hu => ?_, fun hu => ⟨?_, ?_⟩, fun e t h => Source.refusal_of_nextByte h,
    fun m buffer buffer' outcome t h => Source.fill_eq h⟩
  · rcases Source.nextByte_cases hn with ⟨-, -, -, -, hsupply⟩ | ⟨-, -, hnil, -⟩ | ⟨-, -, hnil, -⟩
    · rw [hn]; exact hsupply
    · exact absurd hnil hu
    · exact absurd hnil hu
  · rw [← hb, hu, List.append_nil]
  · rcases Source.nextByte_cases hn with ⟨b, -, hcons, -⟩ | ⟨-, -, -, -, -, -, hsupply⟩ |
      ⟨-, -, -, -, rfl⟩
    · rw [hu] at hcons; cases hcons
    · rw [hn]; exact hsupply
    · rw [hn]

/-- Whatever the provider answers and whatever the calls come to, a session moves its source along
a trail, call by call; what the calls give back comes from the bytes that are handed out for them,
and at every point of every trail the account is in order. -/
theorem every_byte_once (n : Nat) (hn : 1 ≤ n) (provider : Provider) (calls : List Session.Call) :
    (∃ handed, List.Forall₂ Session.Settles
        (scenes Session.Call.run (Source.fresh n hn provider) calls) handed ∧
      (Session.run (Source.fresh n hn provider) calls).1 =
        (scenes Session.Call.run (Source.fresh n hn provider) calls).map Scene.turn ∧
      (Source.fresh n hn provider).Trail handed.flatten
        (Session.run (Source.fresh n hn provider) calls).2) ∧
    ∀ handed s, (Source.fresh n hn provider).Trail handed s → Accounted n handed s := by
  refine ⟨?_, fun handed s h => ?_⟩
  · obtain ⟨handed, hsettles, htrail⟩ := Session.trail_of_run calls (Source.fresh n hn provider)
    exact ⟨handed, hsettles, turns_eq_map_scenes (fun _ => rfl) (fun _ _ _ => rfl) _ calls, htrail⟩
  · have huniform : (Source.fresh n hn provider).Uniform n := ⟨rfl, by simp [Source.fresh]⟩
    obtain ⟨blocks, haccepted, hunread⟩ := h.balance
    refine accounted_of_balance (h.uniform huniform) ?_
    rw [haccepted, ← hunread]
    simp [Supply.accepted, Source.fresh, Source.unread]

/-- Two refusals before the first block is had, and one byte handed out of it. -/
theorem every_byte_once_over_refusals :
    let answers : List Answer := [.nothing, .bytes [7], .bytes [1, 2]]
    let s := (Session.run (Source.fresh 2 (by decide) (.script answers)) [.byte, .byte, .byte]).2
    s.unread = [2] ∧ Accounted 2 [1] s := by
  intro answers s
  obtain ⟨⟨handed, -, -, htrail⟩, haccounted⟩ :=
    every_byte_once 2 (by decide) (.script answers) [.byte, .byte, .byte]
  have hs := haccounted handed.flatten s htrail
  have hbalance : handed.flatten ++ [2] = [1] ++ [2] := hs.balance
  exact ⟨rfl, by rw [← List.append_cancel_right hbalance]; exact hs⟩

end Croupier
