/-!
# Croupier.Text.Blank

Blank characters, and what is done with them: `words` are the runs between blanks, `trim` takes
the blanks off both ends.
-/

namespace Croupier
namespace Text

/-- The white space of Unicode together with the four information separators U+001C to U+001F.
Zero-width characters (U+200B, U+2060, U+FEFF) and U+180E are not blank. -/
def isBlank (c : Char) : Bool :=
  let n := c.toNat
  (0x09 ≤ n && n ≤ 0x0D) || (0x1C ≤ n && n ≤ 0x20) || n == 0x85 || n == 0xA0 || n == 0x1680 ||
    (0x2000 ≤ n && n ≤ 0x200A) || n == 0x2028 || n == 0x2029 || n == 0x202F || n == 0x205F ||
    n == 0x3000

/-- The non-empty runs of characters between blanks. -/
def words (s : String) : List String :=
  ((s.toList.splitOnP isBlank).filter fun w => !w.isEmpty).map String.ofList

def trim (s : String) : String :=
  String.ofList (((s.toList.dropWhile isBlank).reverse.dropWhile isBlank).reverse)

end Text
end Croupier
