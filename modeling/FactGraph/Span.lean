namespace FactGraph

/-- Lines and columns count from 1; columns count characters. -/
structure Position where
  line : Nat
  column : Nat
  deriving DecidableEq, Repr, Inhabited

/-- Offsets count bytes of UTF-8, and `stop` is just past the text. -/
structure Span where
  start : Nat
  stop : Nat
  line : Nat
  column : Nat
  deriving DecidableEq, Repr, Inhabited

namespace Position

def first : Position := ⟨1, 1⟩

def text (position : Position) : String := s!"{position.line}:{position.column}"

def past (position : Position) (c : Char) : Position :=
  if c = '\n' then ⟨position.line + 1, 1⟩ else ⟨position.line, position.column + 1⟩

end Position

namespace Span

def atStart : Span := ⟨0, 0, 1, 1⟩

def position (span : Span) : Position := ⟨span.line, span.column⟩

def text (span : Span) : String := span.position.text

end Span

end FactGraph
