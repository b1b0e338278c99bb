/-! The characters with the White_Space property, and texts made of them. -/

namespace TypedMustache.Text

/-- White_Space as ranges of code points, both ends included. -/
def whiteSpace : List (Nat × Nat) :=
  [(0x09, 0x0D), (0x20, 0x20), (0x85, 0x85), (0xA0, 0xA0), (0x1680, 0x1680), (0x2000, 0x200A),
    (0x2028, 0x2029), (0x202F, 0x202F), (0x205F, 0x205F), (0x3000, 0x3000)]

def isWhiteSpace (c : Char) : Bool :=
  whiteSpace.any fun range => range.1 ≤ c.toNat && c.toNat ≤ range.2

/-- Whether nothing but white space stands in the text. -/
def isBlank (s : String) : Bool := s.toList.all isWhiteSpace

example : (whiteSpace.map fun range => range.2 + 1 - range.1).sum = 25 := by decide

end TypedMustache.Text
