import Croupier.Entropy.Source

/-!
# Croupier.Proofs.Entropy.Forecast

What a source is going to hand out. `forecast s n` is what the `n`-th request for a byte from now
on comes to, counted from zero, and `after n s` is the source before it.

* `forecast_of_streams`: over a finite stream these are the unread bytes and the whole blocks of
  the stream, and then failures without end.
* `forecast_of_cycles`: over a cycle they are the unread bytes and then the cycle, whatever the
  size of the blocks.
* `exists_failure_le_horizon`: a source that does not go round for ever fails within its horizon.
-/

namespace Croupier
namespace Entropy

/-- A provider that comes to an end: anything but a cycle with bytes in it. -/
def Provider.Ends : Provider → Prop
  | .cycle period _ => period.size = 0
  | _ => True

/-- Every block such a provider gives brings its end nearer. -/
theorem Provider.Ends.ask {p : Provider} (hp : p.Ends) {n : Nat} (hn : 1 ≤ n) {data : List UInt8}
    (h : (p.ask n).1 = .bytes data) (hlen : data.length = n) :
    (p.ask n).2.Ends ∧ (p.ask n).2.horizon + n ≤ p.horizon := by
  cases p with
  | stream rest =>
    simp only [Provider.ask] at h ⊢
    split at h
    · rename_i hle
      rw [if_pos hle]
      refine ⟨trivial, ?_⟩
      simp only [horizon, List.length_drop]
      omega
    · cases h
  | cycle period position =>
    have hempty : period.isEmpty = true := by simpa [Ends] using hp
    simp only [Provider.ask, spin, hempty, if_true] at h
    cases h
    simp only [List.length_nil] at hlen
    omega
  | script answers =>
    cases answers with
    | nil => cases h
    | cons answer rest =>
      simp only [Provider.ask] at h ⊢
      subst h
      refine ⟨trivial, ?_⟩
      simp only [horizon, List.flatMap_cons, List.length_append, Answer.contents]
      omega

/-- The longest beginning of a byte string that can be had in blocks of `n` bytes. -/
def wholeBlocks (n : Nat) (bytes : List UInt8) : List UInt8 :=
  bytes.take (bytes.length / n * n)

theorem length_wholeBlocks (n : Nat) (bytes : List UInt8) :
    (wholeBlocks n bytes).length = bytes.length / n * n := by
  rw [wholeBlocks, List.length_take, Nat.min_eq_left (Nat.div_mul_le_self _ _)]

theorem wholeBlocks_one (bytes : List UInt8) : wholeBlocks 1 bytes = bytes := by
  rw [wholeBlocks, Nat.div_one, Nat.mul_one, List.take_length]

theorem wholeBlocks_of_lt {n : Nat} {bytes : List UInt8} (h : bytes.length < n) :
    wholeBlocks n bytes = [] := by
  rw [wholeBlocks, Nat.div_eq_of_lt h, Nat.zero_mul, List.take_zero]

theorem wholeBlocks_of_le {n : Nat} {bytes : List UInt8} (hn : 1 ≤ n) (h : n ≤ bytes.length) :
    wholeBlocks n bytes = bytes.take n ++ wholeBlocks n (bytes.drop n) := by
  have hq : bytes.length / n = (bytes.length - n) / n + 1 := by
    rw [← Nat.add_div_right _ hn, Nat.sub_add_cancel h]
  rw [wholeBlocks, wholeBlocks, List.length_drop, hq, Nat.succ_mul, Nat.add_comm, List.take_add]

theorem dvd_length_wholeBlocks (n : Nat) (bytes : List UInt8) :
    n ∣ (wholeBlocks n bytes).length := by
  rw [length_wholeBlocks]
  exact Nat.dvd_mul_left _ _

/-- No beginning that falls into blocks is longer. -/
theorem prefix_wholeBlocks {n : Nat} {start bytes : List UInt8} (h : start <+: bytes)
    (hdvd : n ∣ start.length) : start <+: wholeBlocks n bytes := by
  refine List.prefix_take_iff.2 ⟨h, ?_⟩
  obtain ⟨k, hk⟩ := hdvd
  have hle := h.length_le
  rcases Nat.eq_zero_or_pos n with rfl | hn
  · omega
  · rw [hk, Nat.mul_comm]
    refine Nat.mul_le_mul_right n ((Nat.le_div_iff_mul_le hn).2 ?_)
    rw [Nat.mul_comm, ← hk]
    exact hle

namespace Source

/-- The source after `n` requests for a byte, granted or not. -/
def after : Nat → Source → Source
  | 0, s => s
  | n + 1, s => after n s.nextByte.2

def forecast (s : Source) (n : Nat) : Except Failure UInt8 :=
  (s.after n).nextByte.1

theorem after_succ (s : Source) (n : Nat) : s.after (n + 1) = s.nextByte.2.after n := rfl

theorem after_succ_right (s : Source) (n : Nat) : s.after (n + 1) = (s.after n).nextByte.2 := by
  induction n generalizing s with
  | zero => rfl
  | succ n ih => rw [after_succ, ih, after_succ]

theorem forecast_zero (s : Source) : s.forecast 0 = s.nextByte.1 := rfl

theorem forecast_succ (s : Source) (n : Nat) : s.forecast (n + 1) = s.nextByte.2.forecast n := rfl

theorem forecast_after (s : Source) (n i : Nat) : (s.after n).forecast i = s.forecast (n + i) := by
  induction n generalizing s with
  | zero => rw [Nat.zero_add]; rfl
  | succ n ih => rw [after_succ, ih, Nat.succ_add, forecast_succ]

/-! ## Finite streams -/

/-- The source stands over a finite stream and has exactly these bytes to give. What is left at
the end of the stream and fills no block is never had. -/
def Streams (s : Source) (bytes : List UInt8) : Prop :=
  ∃ rest, s.supply.provider = .stream rest ∧ bytes = s.unread ++ wholeBlocks s.blockSize rest

theorem Streams.unique {s : Source} {xs ys : List UInt8} (hx : s.Streams xs) (hy : s.Streams ys) :
    xs = ys := by
  obtain ⟨rest, hp, rfl⟩ := hx
  obtain ⟨rest', hp', rfl⟩ := hy
  rw [hp] at hp'
  cases hp'
  rfl

/-- What is said when a stream has run dry. -/
def dry : Failure :=
  .unavailable (.providerFailed "script exhausted")

theorem streams_fresh (n : Nat) (h : 1 ≤ n) (bytes : List UInt8) :
    (fresh n h (.stream bytes)).Streams (wholeBlocks n bytes) :=
  ⟨bytes, rfl, by rw [unread_fresh]; rfl⟩

theorem nextByte_of_streams_cons {s : Source} {b : UInt8} {bytes : List UInt8}
    (h : s.Streams (b :: bytes)) : ∃ t, s.nextByte = (.ok b, t) ∧ t.Streams bytes := by
  obtain ⟨rest, hp, hbytes⟩ := h
  cases hu : s.unread with
  | cons c unread =>
    rw [hu, List.cons_append] at hbytes
    cases hbytes
    obtain ⟨t, ht, hunread, hsize, hsupply⟩ := nextByte_of_unread hu
    exact ⟨t, ht, rest, by rw [hsupply, hp], by rw [hunread, hsize]⟩
  | nil =>
    rw [hu, List.nil_append] at hbytes
    have hle : s.blockSize ≤ rest.length := by
      refine Nat.not_lt.1 fun hlt => ?_
      rw [wholeBlocks_of_lt hlt] at hbytes
      cases hbytes
    have hask := Provider.ask_stream_of_le hle
    rw [← hp] at hask
    have hlen : (rest.take s.blockSize).length = s.blockSize := by simp [hle]
    obtain ⟨buffer, hj, hbuffer⟩ := Supply.judge_bytes hlen
    have hj' : Supply.judge s.blockSize (s.supply.provider.ask s.blockSize).1 = .ok buffer := by
      rw [hask]; exact hj
    obtain ⟨c, t, ht, hcons, hsize, hsupply⟩ := nextByte_of_refill hu hj'
    rw [wholeBlocks_of_le s.one_le_blockSize hle, ← hbuffer, hcons,
      List.cons_append] at hbytes
    cases hbytes
    refine ⟨t, ht, rest.drop s.blockSize, ?_, by rw [hsize]⟩
    rw [hsupply, Supply.asked, hask]

theorem nextByte_of_streams_nil {s : Source} (h : s.Streams []) :
    ∃ t, s.nextByte = (.error dry, t) ∧ t.Streams [] := by
  obtain ⟨rest, hp, hbytes⟩ := h
  obtain ⟨hu, htake⟩ := List.append_eq_nil_iff.1 hbytes.symm
  have hlt : rest.length < s.blockSize := by
    refine Nat.not_le.1 fun hle => ?_
    have hlen := congrArg List.length (wholeBlocks_of_le s.one_le_blockSize hle)
    have := s.one_le_blockSize
    rw [htake, List.length_append, List.length_take, List.length_nil] at hlen
    omega
  have hask := Provider.ask_stream_of_lt hlt
  rw [← hp] at hask
  refine ⟨_, nextByte_of_refusal hu (by rw [hask]; rfl), rest, ?_, hbytes⟩
  rw [Supply.asked, hask, ← hp]

theorem forecast_of_streams {s : Source} {bytes : List UInt8} (h : s.Streams bytes) (n : Nat) :
    s.forecast n = (bytes[n]?).elim (.error dry) .ok := by
  induction n generalizing s bytes with
  | zero =>
    cases bytes with
    | nil =>
      obtain ⟨t, ht, -⟩ := nextByte_of_streams_nil h
      rw [forecast_zero, ht]; rfl
    | cons b bytes =>
      obtain ⟨t, ht, -⟩ := nextByte_of_streams_cons h
      rw [forecast_zero, ht]; rfl
  | succ n ih =>
    cases bytes with
    | nil =>
      obtain ⟨t, ht, hs⟩ := nextByte_of_streams_nil h
      rw [forecast_succ, ht, ih hs]; rfl
    | cons b bytes =>
      obtain ⟨t, ht, hs⟩ := nextByte_of_streams_cons h
      rw [forecast_succ, ht, ih hs, List.getElem?_cons_succ]

/-! ## Cycles -/

/-- The source stands over a cycle, and `f` lists the bytes it has to give. -/
def Cycles (s : Source) (f : Nat → UInt8) : Prop :=
  ∃ period position, s.supply.provider = .cycle period position ∧ 0 < period.size ∧
    ∀ i, some (f i) = (s.unread[i]?).or
      (some (period.getD ((position + (i - s.unread.length)) % period.size) 0))

theorem cycles_fresh (n : Nat) (h : 1 ≤ n) {period : Array UInt8} (hp : 0 < period.size)
    (position : Nat) :
    (fresh n h (.cycle period position)).Cycles
      fun i => period.getD ((position + i) % period.size) 0 :=
  ⟨period, position, rfl, hp, fun i => by rw [unread_fresh]; rfl⟩

theorem exists_cycles {s : Source} (h : ¬ s.supply.provider.Ends) : ∃ f, s.Cycles f := by
  cases hp : s.supply.provider with
  | stream rest => rw [hp] at h; exact absurd trivial h
  | script answers => rw [hp] at h; exact absurd trivial h
  | cycle period position =>
    rw [hp] at h
    exact ⟨_, period, position, hp, Nat.pos_of_ne_zero h, fun i => Option.or_some.symm⟩

theorem nextByte_of_cycles {s : Source} {f : Nat → UInt8} (h : s.Cycles f) :
    ∃ t, s.nextByte = (.ok (f 0), t) ∧ t.Cycles fun i => f (i + 1) := by
  obtain ⟨period, position, hp, hpos, hf⟩ := h
  cases hu : s.unread with
  | cons b unread =>
    obtain ⟨t, ht, hunread, hsize, hsupply⟩ := nextByte_of_unread hu
    have hb : f 0 = b := by simpa [hu] using hf 0
    refine ⟨t, by rw [hb]; exact ht, period, position, by rw [hsupply, hp], hpos, fun i => ?_⟩
    rw [hf, hu, hunread, List.getElem?_cons_succ, List.length_cons, Nat.add_sub_add_right]
  | nil =>
    have hask : s.supply.provider.ask s.blockSize =
        (.bytes (Provider.spin period position s.blockSize),
          .cycle period ((position + s.blockSize) % period.size)) := by
      rw [hp]; rfl
    obtain ⟨buffer, hj, hbuffer⟩ :=
      Supply.judge_bytes (Provider.length_spin hpos position s.blockSize)
    have hj' : Supply.judge s.blockSize (s.supply.provider.ask s.blockSize).1 = .ok buffer := by
      rw [hask]; exact hj
    obtain ⟨b, t, ht, hcons, hsize, hsupply⟩ := nextByte_of_refill hu hj'
    rw [hbuffer] at hcons
    have hlen : t.unread.length + 1 = s.blockSize := by
      rw [← List.length_cons (a := b), ← hcons, Provider.length_spin hpos]
    have hspin : ∀ i, some (f i) = some (period.getD ((position + i) % period.size) 0) := by
      intro i
      rw [hf, hu]; rfl
    have hb : f 0 = b := by
      have := Provider.getElem?_spin hpos position s.one_le_blockSize
      rw [hcons, ← hspin] at this
      simpa using this.symm
    refine ⟨t, by rw [hb]; exact ht, period, _, by rw [hsupply, Supply.asked, hask], hpos,
      fun i => ?_⟩
    rw [hspin]
    by_cases hi : i < t.unread.length
    · -- the byte lies in the new block
      have := Provider.getElem?_spin hpos position (n := s.blockSize) (i := i + 1)
        (by omega)
      rw [hcons, List.getElem?_cons_succ] at this
      rw [this, Option.some_or]
    · -- the byte lies behind it, where the provider now stands
      have hi' : position + s.blockSize + (i - t.unread.length) = position + (i + 1) := by omega
      rw [List.getElem?_eq_none (by omega), Option.none_or, Nat.mod_add_mod, hi']

theorem forecast_of_cycles {s : Source} {f : Nat → UInt8} (h : s.Cycles f) (n : Nat) :
    s.forecast n = .ok (f n) := by
  induction n generalizing s f with
  | zero =>
    obtain ⟨t, ht, -⟩ := nextByte_of_cycles h
    rw [forecast_zero, ht]
  | succ n ih =>
    obtain ⟨t, ht, hs⟩ := nextByte_of_cycles h
    rw [forecast_succ, ht, ih hs]

/-- From the unread bytes on, a cycle repeats itself. -/
theorem Cycles.periodic {s : Source} {f : Nat → UInt8} (h : s.Cycles f) :
    ∃ size, s.horizon = s.unread.length + size ∧ 0 < size ∧
      ∀ i, s.unread.length ≤ i → f (i + size) = f i := by
  obtain ⟨period, position, hp, hpos, hf⟩ := h
  refine ⟨period.size, ?_, hpos, fun i hi => ?_⟩
  · rw [horizon, hp, length_unread]; rfl
  · have hi' : position + (i + period.size - s.unread.length) =
        position + (i - s.unread.length) + period.size := by omega
    have h₁ := hf i
    have h₂ := hf (i + period.size)
    rw [List.getElem?_eq_none hi, Option.none_or] at h₁
    rw [List.getElem?_eq_none (by omega), Option.none_or, hi', Nat.add_mod_right] at h₂
    exact Option.some.inj (h₂.trans h₁.symm)

/-! ## Sources that come to an end -/

theorem horizon_of_nextByte {s t : Source} {b : UInt8} (hs : s.supply.provider.Ends)
    (h : s.nextByte = (.ok b, t)) : t.supply.provider.Ends ∧ t.horizon < s.horizon := by
  rcases nextByte_cases h with ⟨c, -, hu, hsize, hsupply⟩ | ⟨c, -, hu, hsize, hask, hlen, hsupply⟩ |
    ⟨e, he, -⟩
  · have hlength := congrArg List.length hu
    simp only [List.length_cons, length_unread] at hlength
    refine ⟨by rw [hsupply]; exact hs, ?_⟩
    rw [horizon, horizon, hsupply]
    omega
  · obtain ⟨hends, hle⟩ := hs.ask s.one_le_blockSize hask (by simpa using hlen)
    have hlength := congrArg List.length hu
    simp only [List.length_nil, length_unread] at hlength hlen
    refine ⟨by rw [hsupply]; exact hends, ?_⟩
    rw [horizon, horizon, hsupply]
    simp only [Supply.asked] at hle ⊢
    omega
  · cases he

theorem exists_failure_le_horizon {s : Source} (hs : s.supply.provider.Ends) :
    ∃ n ≤ s.horizon, ∃ e, s.forecast n = .error e := by
  generalize hm : s.horizon = m
  induction m using Nat.strongRecOn generalizing s with
  | ind m ih =>
    rcases h : s.nextByte with ⟨r, t⟩
    cases r with
    | error e => exact ⟨0, Nat.zero_le m, e, by rw [forecast_zero, h]⟩
    | ok b =>
      obtain ⟨ht, hlt⟩ := horizon_of_nextByte hs h
      obtain ⟨n, hn, e, he⟩ := ih t.horizon (by omega) ht rfl
      exact ⟨n + 1, by omega, e, by rw [forecast_succ, h, he]⟩

end Source
end Entropy
end Croupier
