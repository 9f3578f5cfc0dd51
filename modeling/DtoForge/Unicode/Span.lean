/-! # Spans of code points — how a character class is tabulated

A class is an ascending array of spans, both ends included. A stepped span names every second
code point of a stretch in which the two cases of a letter alternate. -/

namespace DtoForge.Unicode

/-- Whether the code point lies in one of the spans. -/
def inSpans (spans : Array (Nat × Nat)) (code : Nat) : Bool :=
  spans.any fun s => s.1 ≤ code && code ≤ s.2

/-- Every `step`-th code point from `first` to `last`. -/
structure SteppedSpan where
  first : Nat
  last : Nat
  step : Nat

/-- Whether the span names the code point. -/
def SteppedSpan.contains (s : SteppedSpan) (code : Nat) : Bool :=
  s.first ≤ code && code ≤ s.last && (code - s.first) % s.step == 0

end DtoForge.Unicode
