/-!
# Croupier.Entropy.Buffer

Room for bytes. A size is a signed 64-bit number, and no buffer is larger than what there is
memory for. A buffer holds zeros until it is filled.
-/

namespace Croupier
namespace Entropy

/-- The largest size that can be asked for. -/
def maxSize : Int := 9223372036854775807

/-- Why a buffer cannot be had. -/
inductive NoBuffer where
  | unaddressable
  | negative
  | noMemory
  deriving DecidableEq, Repr

def NoBuffer.message : NoBuffer → String
  | .unaddressable => "cannot fit 'int' into an index-sized integer"
  | .negative => "negative count"
  | .noMemory => ""

/-- The size of a buffer for `n` bytes, where there is memory for `memory`. -/
def bufferSize (memory : Nat) (n : Int) : Except NoBuffer Nat :=
  if n < -maxSize - 1 ∨ maxSize < n then .error .unaddressable
  else if n < 0 then .error .negative
  else if (memory : Int) < n then .error .noMemory
  else .ok n.toNat

theorem bufferSize_eq_ok_iff {memory : Nat} {n : Int} {size : Nat} :
    bufferSize memory n = .ok size ↔ n = size ∧ n ≤ maxSize ∧ n ≤ memory := by
  unfold bufferSize maxSize
  constructor
  · intro h
    split at h
    · cases h
    · split at h
      · cases h
      · split at h
        · cases h
        · cases h
          omega
  · rintro ⟨rfl, haddress, hmemory⟩
    rw [if_neg (by omega), if_neg (by omega), if_neg (by omega), Int.toNat_natCast]

/-- Room for `n` bytes. Whoever fills it fills all of it. -/
inductive Buffer (n : Nat) where
  | blank
  | filled (data : Array UInt8) (size_eq : data.size = n)

namespace Buffer

variable {n : Nat}

def bytes : Buffer n → List UInt8
  | .blank => List.replicate n 0
  | .filled data _ => data.toList

def byteAt : Buffer n → Nat → UInt8
  | .blank, _ => 0
  | .filled data _, i => data.getD i 0

@[simp] theorem length_bytes (b : Buffer n) : b.bytes.length = n := by
  cases b with
  | blank => exact List.length_replicate
  | filled data h => exact h

theorem drop_bytes (b : Buffer n) {i : Nat} (h : i < n) :
    b.bytes.drop i = b.byteAt i :: b.bytes.drop (i + 1) := by
  have hlen : i < b.bytes.length := by rw [length_bytes]; exact h
  rw [List.drop_eq_getElem_cons hlen]
  cases b with
  | blank => simp [bytes, byteAt]
  | filled data hn =>
    have hsize : i < data.size := by omega
    simp [bytes, byteAt, hsize]

end Buffer
end Entropy
end Croupier
