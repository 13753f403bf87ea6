/-!
# Spans and ranges

A span is a run of columns in one line, a range is a span on a line of a document. What the linter
finds in a line it finds at spans, and a line number turns them into ranges.

## Main definitions

* `Span`: a half-open run of columns
* `Range`: a span on a numbered line
* `Located`: a value and the place it was found at
-/

namespace ItemFilter

/-- The columns from `start` up to but not including `stop`. -/
structure Span where
  /-- The first column. -/
  start : Nat
  /-- The column after the last one. -/
  stop : Nat
  deriving DecidableEq, Repr

namespace Span

/-- The number of columns covered; a span that ends before it starts covers none. -/
def length (span : Span) : Nat :=
  span.stop - span.start

/-- Whether a span covers no column. -/
def isEmpty (span : Span) : Bool :=
  span.length == 0

end Span

/-- A span on a line of a document. Lines are numbered from zero. -/
structure Range where
  /-- The number of the line. -/
  line : Nat
  /-- The first column. -/
  start : Nat
  /-- The column after the last one. -/
  stop : Nat
  deriving DecidableEq, Repr

/-- The range of a span on the line with the given number. -/
def Range.on (line : Nat) (span : Span) : Range :=
  ⟨line, span.start, span.stop⟩

/-- A value together with the place it was found at. -/
structure Located (ρ : Type) (α : Type) where
  /-- What was found. -/
  value : α
  /-- Where it was found. -/
  range : ρ
  deriving DecidableEq, Repr

namespace Located

variable {ρ σ α β : Type}

/-- The value changed, the place kept. -/
def map (f : α → β) (x : Located ρ α) : Located ρ β :=
  ⟨f x.value, x.range⟩

/-- The place changed, the value kept. -/
def mapRange (f : ρ → σ) (x : Located ρ α) : Located σ α :=
  ⟨x.value, f x.range⟩

end Located

end ItemFilter
