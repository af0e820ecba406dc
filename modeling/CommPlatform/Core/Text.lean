import Mathlib.Data.Nat.Basic

/-!
# Text

`trim` takes away the white space at both ends of a text, where white space
is what Unicode calls so, and the byte order mark.
-/
namespace CommPlatform.Core.Text

def isSpace (c : Char) : Bool :=
  let n := c.toNat
  (9 ≤ n && n ≤ 13) || n == 0x20 || n == 0x85 || n == 0xA0 || n == 0x1680 ||
    (0x2000 ≤ n && n ≤ 0x200A) || n == 0x2028 || n == 0x2029 || n == 0x202F || n == 0x205F ||
    n == 0x3000 || n == 0xFEFF

def trim (s : String) : String :=
  String.ofList ((s.toList.dropWhile isSpace).reverse.dropWhile isSpace).reverse

example : trim " a b　" = "a b" := by decide

end CommPlatform.Core.Text
