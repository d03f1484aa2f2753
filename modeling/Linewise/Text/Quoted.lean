import Linewise.Text.GraphemeExtend
import Linewise.Text.Unprintable

/-!
# Quoted text

Text literals, comments and stray characters are shown between quotes.  Inside,
the quote and the backslash are marked by a backslash, the common controls have
a letter, and a character that would not be seen on its own is written as its
code point in hexadecimal.
-/

namespace Linewise
namespace Text

/-- A code point as a backslash, the letter `u` and its lower-case hexadecimal
digits in braces. -/
def escapedCode (c : Char) : List Char :=
  '\\' :: 'u' :: '\x7b' :: (Nat.toDigits 16 c.toNat ++ ['\x7d'])

def quotedChar (c : Char) : List Char :=
  if c = '\t' then ['\\', 't']
  else if c = '\r' then ['\\', 'r']
  else if c = '\n' then ['\\', 'n']
  else if c = '\x00' then ['\\', '0']
  else if c = '\\' then ['\\', '\\']
  else if c = '"' then ['\\', '"']
  else if extendsGrapheme c || isUnprintable c then escapedCode c
  else [c]

def quotedChars : List Char -> List Char
  | [] => []
  | c :: cs => quotedChar c ++ quotedChars cs

def quoted (text : String) : String :=
  String.ofList ('"' :: (quotedChars text.toList ++ ['"']))

end Text
end Linewise
