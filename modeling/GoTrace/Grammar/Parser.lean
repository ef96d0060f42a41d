import GoTrace.Grammar.Rule
import GoTrace.Source.Span

/-!
# Parsers

A parser reads from a cursor. It either fails, and the cursor stays where it was, or it finds a
value and moves on. Alternatives are ordered: the first one that succeeds is taken and never
reconsidered. Besides its result a parser sums up what it failed at (`Furthest`).

Blanks and comments may stand between the parts of most rules. A sequence says where by `gap`,
which reads them only in the mode `spaced`.
-/

namespace GoTrace

/-! ## Furthest failures

What a parse has tried and failed to read at the furthest offset it got to. A syntax error is
reported from this summary alone. Summaries of consecutive attempts merge, so the summary of a
parse is put together from those of its parts and never influences what is read.
-/

/-- The furthest offset at which parts of the grammar failed, and those parts. -/
structure Furthest where
  offset : Nat
  rules : List Rule
deriving DecidableEq, Repr

namespace Furthest

def none : Furthest := ⟨0, []⟩

def merge (first second : Furthest) : Furthest :=
  if first.offset < second.offset then second
  else if second.offset < first.offset then first
  else ⟨first.offset, first.rules ++ second.rules⟩

/-- The summary after `rule` has failed at `offset`, where `inner` sums up its own parts. A part
that got further is kept, and so is a single part that failed at the start; else the rule stands
for all of its parts. -/
def ofFailure (rule : Rule) (offset : Nat) (inner : Furthest) : Furthest :=
  if offset < inner.offset || (inner.offset = offset && inner.rules.length = 1) then inner
  else ⟨offset, [rule]⟩

def expected (furthest : Furthest) : List Rule :=
  furthest.rules.eraseDups.mergeSort fun first second => first.rank ≤ second.rank

end Furthest

/-! ## Parsers -/

/-- How the parts of a rule follow each other, and whether failures are reported. -/
inductive Mode where
  | spaced
  | tight
  /-- Parts follow each other directly, and failures of rules are not reported. -/
  | hidden
deriving DecidableEq, Repr

/-- A fault of a text that has the right syntax. Reading goes on after it; the first fault of the
text that is kept in the end decides the answer. -/
inductive Fault where
  | invalidString (literal : String) (span : Span)
  /-- An integer whose first two bytes end inside a character. -/
  | splitCharacter
deriving DecidableEq, Repr

/-- What a successful parser has read. -/
structure Found (α : Type) where
  value : α
  next : Cursor
  fault : Option Fault
deriving Repr

/-- The answer of a parser: what it found, if anything, and what it failed at on the way. -/
structure Reply (α : Type) where
  found : Option (Found α)
  furthest : Furthest
deriving Repr

def Parser (α : Type) := Mode → Cursor → Reply α

namespace Parser

variable {α β : Type}

def succeed (value : α) : Parser α := fun _ cursor =>
  ⟨some ⟨value, cursor, none⟩, .none⟩

def fail : Parser α := fun _ _ => ⟨none, .none⟩

def andThen (p : Parser α) (f : α → Parser β) : Parser β := fun mode cursor =>
  match p mode cursor with
  | ⟨none, furthest⟩ => ⟨none, furthest⟩
  | ⟨some first, furthest⟩ =>
      let reply := f first.value mode first.next
      ⟨reply.found.map fun second => ⟨second.value, second.next, first.fault <|> second.fault⟩,
        furthest.merge reply.furthest⟩

instance : Monad Parser where
  pure := succeed
  bind := andThen

def orElse (p : Parser α) (q : Unit → Parser α) : Parser α := fun mode cursor =>
  match p mode cursor with
  | ⟨some found, furthest⟩ => ⟨some found, furthest⟩
  | ⟨none, furthest⟩ =>
      let reply := q () mode cursor
      ⟨reply.found, furthest.merge reply.furthest⟩

instance : OrElse (Parser α) := ⟨orElse⟩

def optional (p : Parser α) : Parser (Option α) :=
  (some <$> p) <|> pure none

def tight (p : Parser α) : Parser α := fun _ cursor => p .tight cursor

def hidden (p : Parser α) : Parser α := fun _ cursor => p .hidden cursor

/-- Reads with `p` as the part of the grammar called `name`, which is reported when it fails. -/
def rule (name : Rule) (p : Parser α) : Parser α := fun mode cursor =>
  match p mode cursor with
  | ⟨some found, furthest⟩ => ⟨some found, furthest⟩
  | ⟨none, furthest⟩ =>
      ⟨none, if mode = .hidden then furthest else furthest.ofFailure name cursor.mark.offset⟩

def take (measure : List Char → Option Nat) : Parser Unit := fun _ cursor =>
  match measure cursor.rest with
  | some count => ⟨some ⟨(), cursor.skip count, none⟩, .none⟩
  | none => ⟨none, .none⟩

def ahead (measure : List Char → Option Nat) : Parser Unit := fun _ cursor =>
  ⟨if (measure cursor.rest).isSome then some ⟨(), cursor, none⟩ else none, .none⟩

def literal (word : String) : Parser Unit :=
  take fun text => if word.toList.isPrefixOf text then some word.toList.length else none

def atEnd : Parser Unit :=
  ahead fun text => if text.isEmpty then some 0 else none

def note (fault : Fault) : Parser Unit := fun _ cursor =>
  ⟨some ⟨(), cursor, some fault⟩, .none⟩

def spanned (p : Parser α) : Parser (α × Span) := fun mode cursor =>
  let reply := p mode cursor
  ⟨reply.found.map fun found => ⟨(found.value, cursor.spanTo found.next), found.next, found.fault⟩,
    reply.furthest⟩

def captured (p : Parser α) : Parser (List Char × Span) := fun mode cursor =>
  let reply := p mode cursor
  ⟨reply.found.map fun found =>
      ⟨(cursor.textTo found.next, cursor.spanTo found.next), found.next, found.fault⟩,
    reply.furthest⟩

/-- Reads blanks and comments, of which `measure` gives the number of characters, where they may
stand. -/
def gapBy (measure : List Char → Nat) : Parser Unit := fun mode cursor =>
  match mode with
  | .spaced => ⟨some ⟨(), cursor.skip (measure cursor.rest), none⟩, .none⟩
  | _ => ⟨some ⟨(), cursor, none⟩, .none⟩

def repeatUpTo (p : Parser α) : Nat → Parser (List α)
  | 0 => pure []
  | bound + 1 =>
      (do
        let value ← p
        let values ← repeatUpTo p bound
        return value :: values)
      <|> pure []

def repeatFrom (p : Parser Unit) (mode : Mode) : Nat → Found Unit → Furthest → Reply Unit
  | 0, found, furthest => ⟨some found, furthest⟩
  | bound + 1, found, furthest =>
      match p mode found.next with
      | ⟨none, more⟩ => ⟨some found, furthest.merge more⟩
      | ⟨some next, more⟩ =>
          repeatFrom p mode bound ⟨(), next.next, found.fault <|> next.fault⟩ (furthest.merge more)

/-- Reads with `p` as often as it succeeds. A parser that succeeds takes a character, so no more
rounds are possible than there are characters. -/
def many (p : Parser α) : Parser (List α) := fun mode cursor =>
  repeatUpTo p (cursor.rest.length + 1) mode cursor

def skipMany (p : Parser Unit) : Parser Unit := fun mode cursor =>
  repeatFrom p mode (cursor.rest.length + 1) ⟨(), cursor, none⟩ .none

end Parser

end GoTrace
