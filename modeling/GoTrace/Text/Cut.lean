import GoTrace.Text.Class

/-!
# Cutting text into pieces

Lines, words and the parts around a separator, over lists of characters. Every function either
keeps all characters or drops exactly the separators that its comment names.
-/

namespace GoTrace.Text

def trimStart (text : List Char) : List Char :=
  text.dropWhile isBlank

def trim (text : List Char) : List Char :=
  (trimStart (trimStart text).reverse).reverse

def trimmed (text : String) : String :=
  String.ofList (trim text.toList)

/-- The parts between all places where `separates` holds; one more than there are such places. -/
def fieldsBy {α : Type} (separates : α → Bool) : List α → List (List α)
  | [] => [[]]
  | c :: rest =>
      match fieldsBy separates rest with
      | [] => [[c]]
      | field :: fields =>
          if separates c then [] :: field :: fields else (c :: field) :: fields

def words (text : List Char) : List (List Char) :=
  (fieldsBy isBlank text).filter fun word => !word.isEmpty

def dropReturn (line : List Char) : List Char :=
  if line.getLast? = some '\r' then line.dropLast else line

/-- The lines of a text. A line ends with a line feed, before which one carriage return is dropped;
the last line needs no line feed. -/
def lines (text : List Char) : List (List Char) :=
  let fields := fieldsBy (· = '\n') text
  let last := fields.getLastD []
  fields.dropLast.map dropReturn ++ (if last.isEmpty then [] else [last])

def cutAt? (mark : List Char) : List Char → Option (List Char × List Char)
  | [] => if mark.isEmpty then some ([], []) else none
  | c :: rest =>
      if mark.isPrefixOf (c :: rest) then some ([], (c :: rest).drop mark.length)
      else (cutAt? mark rest).map fun parts => (c :: parts.1, parts.2)

/-- The text before and after the first character with `separates`, which belongs to neither. -/
def cutBy? (separates : Char → Bool) : List Char → Option (List Char × List Char)
  | [] => none
  | c :: rest =>
      if separates c then some ([], rest)
      else (cutBy? separates rest).map fun parts => (c :: parts.1, parts.2)

def cutLast? (mark : Char) : List Char → Option (List Char × List Char)
  | [] => none
  | c :: rest =>
      match cutLast? mark rest with
      | some parts => some (c :: parts.1, parts.2)
      | none => if c = mark then some ([], rest) else none

def dropPrefix? (lead text : List Char) : Option (List Char) :=
  if lead.isPrefixOf text then some (text.drop lead.length) else none

def dropLast? (mark : Char) (text : List Char) : Option (List Char) :=
  if text.getLast? = some mark then some text.dropLast else none

end GoTrace.Text
