import Linewise.Text.ByteOffset

/-!
# Spans of source text

A span is a pair of byte offsets into a source text.  Every token, every tree
node and every diagnostic carries one.  Offsets are recorded up to a fixed
largest value, so a span fits the same storage whatever the length of the text.
-/

namespace Linewise

/-- The stretch of source text from the byte at `start` up to, and without, the
byte at `stop`. -/
structure Span where
  start : Nat
  stop : Nat
deriving DecidableEq, Inhabited

namespace Span

def maxOffset : Nat := 4294967295

def between (start stop : Nat) : Span :=
  { start := min start maxOffset, stop := min stop maxOffset }

def cover (a b : Span) : Span :=
  { start := min a.start b.start, stop := max a.stop b.stop }

def isEmpty (a : Span) : Bool := a.start == a.stop

def length (a : Span) : Nat := a.stop - a.start

/-- The source text that the span covers; nothing if an end of the span is behind
the text or inside a character, or if the span runs backwards. -/
def text (a : Span) (source : String) : String :=
  String.ofList ((Text.slice? a.start a.stop source.toList).getD [])

/-!
## Basic laws
-/

theorem stop_between (start stop : Nat) :
    (between start stop).stop = min stop maxOffset := rfl

theorem start_cover (a b : Span) : (a.cover b).start = min a.start b.start := rfl

theorem stop_cover (a b : Span) : (a.cover b).stop = max a.stop b.stop := rfl

theorem between_eq {start stop : Nat}
    (hstart : start <= maxOffset) (hstop : stop <= maxOffset) :
    between start stop = { start := start, stop := stop } := by
  simp [between, Nat.min_eq_left hstart, Nat.min_eq_left hstop]

end Span

end Linewise
