/-!
# Faults

A fault is no answer about the source text: it says that an operation was asked
for something it cannot do.  Reading the tokens of a source text never meets
one.
-/

namespace Linewise

inductive Fault where
  /-- A position lies inside a character or behind the text. -/
  | offBoundary
  /-- A position would pass the largest one. -/
  | positionOverflow
  /-- A text token without a quote at each end. -/
  | unquotedText
  /-- A loop that went on without taking a token. -/
  | stalled
  /-- A nesting level was closed that was not open. -/
  | unbalanced
deriving DecidableEq

end Linewise
