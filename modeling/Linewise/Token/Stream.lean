import Linewise.Diagnostic
import Linewise.Text.ByteOffset
import Linewise.Token.Lexical

/-!
# The tokens of a text

A text is read from left to right.  Each item is a token, or the diagnostic of a
character that begins none; the last item is the token behind the text.
Whether a sign belongs to a number hangs on the kind of the token before it.
-/

namespace Linewise

abbrev Item := Except Diagnostic Token

namespace Lexical

/-- The item at the head of a text: the item, the number of characters it takes,
and the kind of the last token from then on. -/
structure Step where
  item : Item
  width : Nat
  last : Option Kind

/-- Whether a sign may begin a number behind a token of the kind `last`. -/
def signAllowed (last : Option Kind) : Bool :=
  match last with
  | some kind => !kind.endsOperand
  | none => true

/-- Reads the item at the head of `c :: cs`, which stands at the byte
`position`. -/
def step (position : Nat) (last : Option Kind) (c : Char) (cs : List Char) : Step :=
  match head? (signAllowed last) (c :: cs) with
  | some (kind, width) =>
      let matched := (c :: cs).take width
      let span := Span.between position (position + Text.byteLength matched)
      { item := .ok { kind := kind, value := String.ofList matched, span := span }
        width := width
        last := some kind }
  | none =>
      let span := Span.between position (position + c.utf8Size)
      { item := .error { cause := .unrecognised (String.singleton c), span := span }
        width := 1
        last := last }

/-- Reads the items of a text that stands at the byte `position`, of which the
first `skip` characters belong to the item before. -/
def items (position : Nat) (last : Option Kind) : Nat -> List Char -> List Item
  | _, [] => [.ok (Token.endAt position)]
  | skip + 1, c :: cs => items (position + c.utf8Size) last skip cs
  | 0, c :: cs =>
      if isBlank c then
        items (position + c.utf8Size) last 0 cs
      else
        let found := step position last c cs
        found.item :: items (position + c.utf8Size) found.last (found.width - 1) cs

end Lexical

/-- The token that stands for an item of a text: a stray character becomes a token that
no rule of the grammar accepts, with what its span covers of the text.  Behind the last
offset that spans record, that is nothing. -/
def Token.ofItem (source : String) : Item -> Token
  | .ok token => token
  | .error diagnostic =>
      { kind := .unrecognised, value := diagnostic.span.text source, span := diagnostic.span }

def Diagnostic.ofItem? : Item -> Option Diagnostic
  | .ok _ => none
  | .error diagnostic => some diagnostic

def itemsOf (source : String) : List Item := Lexical.items 0 none 0 source.toList

/-- All tokens of a source text, and the diagnostics of its stray characters. -/
def tokenize (source : String) : List Token × List Diagnostic :=
  ((itemsOf source).map (Token.ofItem source), (itemsOf source).filterMap Diagnostic.ofItem?)

end Linewise
