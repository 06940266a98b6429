import Croupier.Entropy.Buffer
import Croupier.Entropy.Provider
import Croupier.Range

/-!
# Croupier.Entropy.Supply

A provider together with the history of what it was asked and what it answered. Buffers are
filled from a supply: an answer is taken if it has exactly the length of the buffer, and a buffer
that cannot be filled stays as it was.
-/

namespace Croupier
namespace Entropy

/-- What the bytes of a request were meant for: the source's own block, or a buffer of the
caller. -/
inductive Purpose where
  | block
  | buffer
  deriving DecidableEq, Repr

structure Request where
  purpose : Purpose
  size : Nat
  answer : Answer
  deriving DecidableEq, Repr

/-- Why there is no entropy. -/
inductive Outage where
  | providerFailed (message : String)
  | wrongLength (expected actual : Nat)
  deriving DecidableEq, Repr

def Outage.message : Outage → String
  | .providerFailed message => "亂數來源失敗：" ++ message
  | .wrongLength expected actual =>
    "亂數來源回傳長度錯誤：預期 " ++ Nat.repr expected ++ "，實際 " ++ Nat.repr actual

/-- Why a draw comes to nothing. A defect is the provider's own; `endless` is a draw that no byte
to come would settle; what is drawn may also be too long to be written. -/
inductive Failure where
  | outOfRange (e : OutOfRange)
  | unavailable (e : Outage)
  | defect (how : Breakdown) (message : String)
  | unwritable
  | endless
  deriving DecidableEq, Repr

def Failure.message : Failure → String
  | .outOfRange e => e.message
  | .unavailable e => e.message
  | .defect _ message => message
  | .unwritable => Numeral.unwritable
  | .endless => ""

/-- No draw is made with a number that is unfit for it. -/
def Failure.ofUnfit : Unfit → Failure
  | .outOfRange e => .outOfRange e
  | .unwritable => .unwritable

structure Supply where
  provider : Provider
  history : Array Request

namespace Supply

/-- Takes an answer for a buffer of `n` bytes, or says why it cannot be taken. -/
def judge (n : Nat) : Answer → Except Failure (Buffer n)
  | .bytes data =>
    if h : data.length = n then .ok (.filled data.toArray (by simpa using h))
    else .error (.unavailable (.wrongLength n data.length))
  | .nothing => .error (.unavailable (.wrongLength n 0))
  | .broke how message =>
    if how.isOutage then .error (.unavailable (.providerFailed message))
    else .error (.defect how message)

/-- The supply once its provider has been asked. -/
def asked (purpose : Purpose) (n : Nat) (s : Supply) : Supply :=
  let (answer, provider) := s.provider.ask n
  { provider := provider, history := s.history.push ⟨purpose, n, answer⟩ }

/-- Asks for as many bytes as the buffer holds. Gives the buffer back as it is afterwards. -/
def fill (purpose : Purpose) {n : Nat} (buffer : Buffer n) (s : Supply) :
    Except Failure Unit × Buffer n × Supply :=
  match judge n (s.provider.ask n).1 with
  | .ok buffer => (.ok (), buffer, s.asked purpose n)
  | .error e => (.error e, buffer, s.asked purpose n)

variable {n : Nat}

theorem judge_bytes {data : List UInt8} (h : data.length = n) :
    ∃ buffer : Buffer n, judge n (.bytes data) = .ok buffer ∧ buffer.bytes = data := by
  refine ⟨_, dif_pos h, ?_⟩
  simp [Buffer.bytes]

theorem eq_bytes_of_judge {answer : Answer} {buffer : Buffer n} (h : judge n answer = .ok buffer) :
    answer = .bytes buffer.bytes := by
  cases answer with
  | bytes data =>
    simp only [judge] at h
    split at h
    · cases h; simp [Buffer.bytes]
    · cases h
  | nothing => cases h
  | broke how message =>
    simp only [judge] at h
    split at h <;> cases h

theorem fill_of_ok {purpose : Purpose} {s : Supply} {buffer filled : Buffer n}
    (h : judge n (s.provider.ask n).1 = .ok filled) :
    s.fill purpose buffer = (.ok (), filled, s.asked purpose n) := by
  simp [fill, h]

theorem fill_of_error {purpose : Purpose} {s : Supply} {buffer : Buffer n} {e : Failure}
    (h : judge n (s.provider.ask n).1 = .error e) :
    s.fill purpose buffer = (.error e, buffer, s.asked purpose n) := by
  simp [fill, h]

end Supply
end Entropy
end Croupier
