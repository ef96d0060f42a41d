/-!
# Positions, spans and cursors

Where a piece of source text stands: byte offsets, and lines and columns that count from one. A
column counts characters, a line ends with a line feed.
-/

namespace GoTrace

/-- A line and a column, both counted from one. -/
structure Place where
  line : Nat
  column : Nat
deriving DecidableEq, Repr, Inhabited

namespace Place

def start : Place := ⟨1, 1⟩

def after (place : Place) (c : Char) : Place :=
  if c = '\n' then ⟨place.line + 1, 1⟩ else ⟨place.line, place.column + 1⟩

def text (place : Place) : String :=
  toString place.line ++ ":" ++ toString place.column

end Place

/-- A byte offset together with its place. -/
structure Mark where
  offset : Nat
  place : Place
deriving DecidableEq, Repr, Inhabited

namespace Mark

def start : Mark := ⟨0, Place.start⟩

def after (mark : Mark) (c : Char) : Mark :=
  ⟨mark.offset + c.utf8Size, mark.place.after c⟩

def past (mark : Mark) (text : List Char) : Mark :=
  text.foldl Mark.after mark

end Mark

/-- A range of byte offsets, with the places of its ends when they are known. -/
structure Span where
  start : Nat
  stop : Nat
  startPlace : Option Place
  stopPlace : Option Place
deriving DecidableEq, Repr, Inhabited

namespace Span

def between (start stop : Mark) : Span :=
  ⟨start.offset, stop.offset, some start.place, some stop.place⟩

def length (span : Span) : Nat :=
  span.stop - span.start

def isEmpty (span : Span) : Bool :=
  span.length = 0

def position (span : Span) : Option String :=
  span.startPlace.map Place.text

end Span

/-! ## Cursors

A place in a source text that still knows the text behind it. A cursor only ever moves over
characters that it passes, so its offset, line and column stay those of the text before it.
-/

/-- What is left of a text, and where that starts. -/
structure Cursor where
  rest : List Char
  mark : Mark
deriving DecidableEq, Repr

namespace Cursor

def ofText (text : List Char) : Cursor := ⟨text, Mark.start⟩

def skip (cursor : Cursor) (count : Nat) : Cursor :=
  ⟨cursor.rest.drop count, cursor.mark.past (cursor.rest.take count)⟩

def textTo (start stop : Cursor) : List Char :=
  start.rest.take (start.rest.length - stop.rest.length)

def spanTo (start stop : Cursor) : Span :=
  Span.between start.mark stop.mark

end Cursor

/-- The place at a byte offset: that of the last character that ends there or before. -/
def placeAt (text : List Char) (offset : Nat) : Place :=
  go Mark.start text
where
  go (mark : Mark) : List Char → Place
    | [] => mark.place
    | c :: rest => if mark.offset < offset then go (mark.after c) rest else mark.place

end GoTrace
