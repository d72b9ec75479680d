/-!
# Blank characters

The characters with the White_Space property, and trimming by them.
-/

namespace PortableQuery.Text.Blank

def isBlank (c : Char) : Bool :=
  let n := c.toNat
  (9 ≤ n && n ≤ 13) || n == 0x20 || n == 0x85 || n == 0xA0 || n == 0x1680 ||
    (0x2000 ≤ n && n ≤ 0x200A) || n == 0x2028 || n == 0x2029 || n == 0x202F ||
    n == 0x205F || n == 0x3000

def trimStart (text : String) : String := String.ofList (text.toList.dropWhile isBlank)

def trimEnd (text : String) : String :=
  String.ofList ((text.toList.reverse.dropWhile isBlank).reverse)

def trim (text : String) : String := trimEnd (trimStart text)

end PortableQuery.Text.Blank
