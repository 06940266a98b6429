/-!
# Croupier.Host

What the program finds where it runs: how far its interpreter goes, how much memory there is, and
the words in which the system complains. Nothing else in the library depends on the machine.
-/

namespace Croupier

structure Host where
  /-- Values that hold others nest no deeper than this in a JSON text. -/
  nesting : Nat
  /-- No more missing folders than this are made at a time. -/
  missing : Nat
  /-- The bytes of the largest buffer that can be had. -/
  memory : Nat
  /-- What is said of bytes that are no JSON text. -/
  notJson : ByteArray → String
  /-- What is said of a folder where a file should be. -/
  folderInPlace : String
  two_le_nesting : 2 ≤ nesting

namespace Host

/-- An interpreter with a stack of a thousand frames, a dozen of them in use, on a machine with room
for 64 GiB. -/
def common : Host where
  nesting := 988
  missing := 988
  memory := 68719476736
  notJson _ := "not JSON"
  folderInPlace := "[Errno 21] Is a directory"
  two_le_nesting := by decide

end Host
end Croupier
