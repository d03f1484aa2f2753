import Linewise.Fault
import Linewise.Token.Stream

/-!
# Reading a text item by item

A scanner is a value: a source text, a byte position in it, the kind of the last
token, and whether the token behind the text was given out.  Its position may be
moved freely; reading from a position inside a character is a fault.
-/

namespace Linewise

structure Scanner where
  source : String
  position : Nat := 0
  last : Option Kind := none
  finished : Bool := false

namespace Scanner

def maxPosition : Nat := 18446744073709551615

def ofSource (source : String) : Scanner := { source := source }

def reset (scanner : Scanner) : Scanner := ofSource scanner.source

def advance (n : Nat) (scanner : Scanner) : Except Fault Scanner :=
  if scanner.position + n <= maxPosition then
    .ok { scanner with position := scanner.position + n }
  else
    .error .positionOverflow

def atEnd (scanner : Scanner) : Bool :=
  decide (Text.byteLength scanner.source.toList <= scanner.position)

def followsOperand (scanner : Scanner) : Bool := !Lexical.signAllowed scanner.last

def remainder (scanner : Scanner) : Except Fault (List Char) :=
  match Text.dropBytes? scanner.position scanner.source.toList with
  | some rest => .ok rest
  | none => .error .offBoundary

def finish (scanner : Scanner) : Item × Scanner :=
  (.ok (Token.endAt scanner.position), { scanner with finished := true })

/-- The next item, with the scanner behind it; none after the token behind the
text. -/
def next (scanner : Scanner) : Except Fault (Option Item × Scanner) :=
  if scanner.finished then
    .ok (none, scanner)
  else if scanner.atEnd then
    .ok (some scanner.finish.1, scanner.finish.2)
  else
    match scanner.remainder with
    | .error fault => .error fault
    | .ok rest =>
        let blanks := rest.takeWhile Lexical.isBlank
        let start := scanner.position + Text.byteLength blanks
        match rest.dropWhile Lexical.isBlank with
        | [] =>
            let stopped := { scanner with position := start }
            .ok (some stopped.finish.1, stopped.finish.2)
        | c :: cs =>
            let found := Lexical.step start scanner.last c cs
            let stop := start + Text.byteLength ((c :: cs).take found.width)
            .ok (some found.item, { scanner with position := stop, last := found.last })

def rest (scanner : Scanner) : Except Fault (List Item) :=
  if scanner.finished then
    .ok []
  else if scanner.atEnd then
    .ok [scanner.finish.1]
  else
    match scanner.remainder with
    | .error fault => .error fault
    | .ok rest => .ok (Lexical.items scanner.position scanner.last 0 rest)

end Scanner

end Linewise
