import GoTrace.Source.Span

/-!
# Type expressions

The syntax of Go types as a source file writes them, with the positions of names, fields and
interface elements. The parts of a type are parametrised by the type of types, so that
`TypeExpr` is one inductive type.
-/

namespace GoTrace

/-- A name and where it stands. -/
structure Ident where
  name : String
  span : Span
deriving DecidableEq, Repr, Inhabited

/-- The directions in which a channel can be used. -/
inductive Direction where
  | both
  | send
  | receive
deriving DecidableEq, Repr, Inhabited

/-- The length between the brackets of an array type. -/
inductive ArrayLength where
  | literal (value : Nat)
  /-- The name of a constant, as in `[N]T` or `[pkg.N]T`. -/
  | constant (package : Option String) (name : String)
  | ellipsis
  /-- The text of any other constant expression. -/
  | expression (text : String)
deriving DecidableEq, Repr

/-- A parameter, a result or a struct field. It has no names when it is anonymous or embedded. -/
structure FieldOf (τ : Type) where
  names : List Ident
  type : τ
  tag : Option String
  span : Span
deriving DecidableEq, Repr

/-- The parameters and results of a function. -/
structure SignatureOf (τ : Type) where
  params : List (FieldOf τ)
  results : List (FieldOf τ)
deriving DecidableEq, Repr

/-- One term of a type union; `tilde` is set for `~T`. -/
structure TermOf (τ : Type) where
  tilde : Bool
  type : τ
deriving DecidableEq, Repr

/-- An element of an interface. -/
inductive ElementOf (τ : Type) where
  | method (name : Ident) (signature : SignatureOf τ) (span : Span)
  | embed (terms : List (TermOf τ)) (span : Span)
deriving DecidableEq, Repr

/-- A type as it is written. -/
inductive TypeExpr where
  | name (package : Option String) (name : String) (args : List TypeExpr)
  | pointer (target : TypeExpr)
  | slice (element : TypeExpr)
  | array (length : ArrayLength) (element : TypeExpr)
  | map (key value : TypeExpr)
  | chan (direction : Direction) (element : TypeExpr)
  | func (signature : SignatureOf TypeExpr)
  | interface (elements : List (ElementOf TypeExpr))
  | struct (fields : List (FieldOf TypeExpr))
  | paren (inner : TypeExpr)
  /-- `...T`, the type of a last parameter that takes any number of arguments. -/
  | ellipsis (element : TypeExpr)
deriving Repr, Inhabited

abbrev Field := FieldOf TypeExpr
abbrev Signature := SignatureOf TypeExpr
abbrev TypeTerm := TermOf TypeExpr
abbrev Element := ElementOf TypeExpr

namespace TypeExpr

def kindName : TypeExpr → String
  | .name .. => "named type"
  | .pointer _ => "pointer type"
  | .slice _ => "slice type"
  | .array .. => "array type"
  | .map .. => "map type"
  | .chan .. => "channel type"
  | .func _ => "function type"
  | .interface _ => "interface type"
  | .struct _ => "struct type"
  | .paren _ => "parenthesized type"
  | .ellipsis _ => "variadic type"

def unparen : TypeExpr → TypeExpr
  | .paren inner => inner.unparen
  | type => type

end TypeExpr

end GoTrace
