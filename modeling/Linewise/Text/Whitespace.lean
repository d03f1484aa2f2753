import Linewise.Text.CharRange

/-!
# Whitespace

Characters with the property `White_Space`, which are dropped from the end of a
source line when it is shown.
-/

namespace Linewise
namespace Text

def whitespaceClass : CharClass where
  ranges :=
    [(0x9, 0xD), (0x20, 0x20), (0x85, 0x85), (0xA0, 0xA0), (0x1680, 0x1680),
     (0x2000, 0x200A), (0x2028, 0x2029), (0x202F, 0x202F), (0x205F, 0x205F),
     (0x3000, 0x3000)]
  ascending := by decide +kernel

def isWhitespace (c : Char) : Bool := whitespaceClass.contains c

end Text
end Linewise
