import GoTrace.Text.Cut
import GoTrace.Text.Octet

/-!
# Path names

A path is kept as it is written, since messages and file names repeat it. It is made of bytes, which need
not be those of a text. What it means is read off its segments, the parts between slashes. An empty
segment says nothing, and neither does a dot, except at the very start of a path.
-/

namespace GoTrace

abbrev FileName := List UInt8

/-- A path as it is written. -/
structure Path where
  octets : List UInt8
deriving DecidableEq, Repr, Inhabited

/-- What a segment of a path says. -/
inductive PathComponent where
  | root
  | here
  | up
  | name (name : FileName)
deriving DecidableEq, Repr

namespace Path

def ofText (text : String) : Path := ⟨Text.octets text⟩

def text (path : Path) : String := Text.shown path.octets

def empty : Path := ⟨[]⟩

def slash : Path := ⟨[Octet.slash]⟩

def dot : Path := ⟨[Octet.dot]⟩

def isAbsolute (path : Path) : Bool :=
  path.octets.head? = some Octet.slash

def segments (path : Path) : List (List UInt8) :=
  Text.fieldsBy (· = Octet.slash) path.octets

/-- `inner` as seen from `outer`: an absolute path is the same from everywhere. -/
def join (outer inner : Path) : Path :=
  if inner.isAbsolute then inner
  else if outer.octets.isEmpty || outer.octets.getLast? = some Octet.slash then
    ⟨outer.octets ++ inner.octets⟩
  else ⟨outer.octets ++ Octet.slash :: inner.octets⟩

def child (outer : Path) (name : FileName) : Path :=
  outer.join ⟨name⟩

def component? (segment : List UInt8) : Option PathComponent :=
  if segment.isEmpty || segment = [Octet.dot] then none
  else if segment = [Octet.dot, Octet.dot] then some .up
  else some (.name segment)

def components (path : Path) : List PathComponent :=
  let lead : List PathComponent :=
    if path.isAbsolute then [.root]
    else if path.segments.head? = some [Octet.dot] then [.here]
    else []
  lead ++ path.segments.filterMap component?

def isTrivial (segment : List UInt8) (before : List (List UInt8)) : Bool :=
  segment.isEmpty || (segment = [Octet.dot] && !before.isEmpty)

/-- The path that ends with the first of the given segments, which are in reverse order. -/
def spell (reversed : List (List UInt8)) : Path :=
  ⟨[Octet.slash].intercalate reversed.reverse⟩

/-- The paths that end with each segment that says something, longest first, and `start` last. The
segments are in reverse order. -/
def chain (start : Path) : List (List UInt8) → List Path
  | [] => [start]
  | segment :: before =>
      if isTrivial segment before then chain start before
      else spell (segment :: before) :: chain start before

/-- The directories above a path, nearest first. -/
def parents (path : Path) : List Path :=
  (chain (if path.isAbsolute then slash else empty) path.segments.reverse).tail

def parent? (path : Path) : Option Path := path.parents.head?

def ancestors (path : Path) : List Path := path :: path.parents

/-- The last name of a path, unless the path ends with a step up or has no names. -/
def fileName? (path : Path) : Option FileName :=
  match path.components.getLast? with
  | some (.name name) => some name
  | _ => none

/-- The components of `path` after those of `outer`, when it starts with them. -/
def relativeTo? (path outer : Path) : Option (List PathComponent) :=
  if outer.components.isPrefixOf path.components then
    some (path.components.drop outer.components.length)
  else none

def ofNames (names : List FileName) : Path :=
  ⟨Octet.slash :: [Octet.slash].intercalate names⟩

/-- The path that components spell out when each step up takes a name away. -/
def normal (components : List PathComponent) : Path :=
  components.foldl
    (fun path component =>
      match component with
      | .root => path.join slash
      | .here => path
      | .up => path.parent?.getD path
      | .name name => path.child name)
    empty

end Path

/-- The names among components, with a slash between any two. A name that is no text is left out. -/
def slashed (components : List PathComponent) : String :=
  let names := components.filterMap fun component =>
    match component with
    | .name name => (Text.ofOctets? name).map String.toList
    | _ => none
  String.ofList (['/'].intercalate names)

end GoTrace
