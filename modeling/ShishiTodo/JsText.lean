import Mathlib.Data.List.DropRight

/-!
# JavaScript strings

A string of the web's language is a list of code units: a character beyond the first plane is two of them, and cutting a string may part them. The white space is a fixed set of units.
-/

namespace ShishiTodo

abbrev JsText := List Nat

/-- The code units of a text. -/
def units (text : String) : JsText :=
  text.toList.flatMap fun c =>
    let n := c.toNat
    if n < 0x10000 then [n] else [0xD800 + (n - 0x10000) / 0x400, 0xDC00 + (n - 0x10000) % 0x400]

namespace JsText

/-- `\s`: `WhiteSpace` and `LineTerminator` of ECMAScript. -/
def isSpace (unit : Nat) : Bool :=
  (9 ≤ unit && unit ≤ 13) || unit == 0x20 || unit == 0xA0 || unit == 0x1680 ||
    (0x2000 ≤ unit && unit ≤ 0x200A) || unit == 0x2028 || unit == 0x2029 || unit == 0x202F ||
    unit == 0x205F || unit == 0x3000 || unit == 0xFEFF

def trim (text : JsText) : JsText := (text.dropWhile isSpace).rdropWhile isSpace

end JsText

end ShishiTodo
