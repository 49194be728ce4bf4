/-!
# Spans of source text

A span is a region of one text: its byte range, and the line and column of its first byte as a
reader counts them.  Spans of neighbouring phrases are merged into the span of the phrase that
holds them.

## Main definitions

* `Idyl.Span` — a byte range with the line and column at which it starts.
* `Idyl.Span.merge` — the smallest span that covers two.
-/

set_option autoImplicit false

namespace Idyl

/-- A region of a text.  `start` and `stop` are byte offsets, `stop` excluded; `line` and
`column` are the position of `start`, counted from one in lines and characters.  The span of
something that was never written is all zero. -/
structure Span where
  start : Nat := 0
  stop : Nat := 0
  line : UInt32 := 0
  column : UInt32 := 0
deriving DecidableEq, Inhabited

namespace Span

/-- The span that covers both, positioned where the earlier one starts.  If they start
together, the position is the first argument's. -/
def merge (s t : Span) : Span :=
  let first := if t.start < s.start then t else s
  { start := min s.start t.start, stop := max s.stop t.stop
    line := first.line, column := first.column }

/-- The empty span at the end of a span, at the position of the span itself. -/
def atEnd (s : Span) : Span := { s with start := s.stop }

/-- A span is shown by its position, `line:column`. -/
def shown (s : Span) : String := s!"{s.line}:{s.column}"

end Span

end Idyl
