import GoTrace.Resolve.Session

/-!
# Constants as array lengths

The value of a constant that an array length names. Its initialiser is an integer, or the name of
another constant of the package or of an imported one. A chain of more than `maxReferences` such
references is taken to be a cycle.
-/

namespace GoTrace

namespace Constant

def maxReferences : Nat := 32

/-- Drops white space and pairs of parentheses around a text, `bound` pairs at most. -/
def stripParensUpTo : Nat → List Char → List Char
  | 0, text => Text.trim text
  | bound + 1, text =>
      match Text.trim text with
      | '(' :: rest =>
          match Text.dropLast? ')' rest with
          | some inner => stripParensUpTo bound inner
          | none => '(' :: rest
      | trimmed => trimmed

def stripParens (text : List Char) : List Char :=
  stripParensUpTo text.length text

def isName (text : List Char) : Bool :=
  match text with
  | [] => false
  | c :: rest =>
      (c = '_' || Text.isAlphabetic c) && rest.all fun c => c = '_' || Text.isAlphanumeric c

/-- What an initialiser refers to. -/
inductive Reference where
  | own (name : String)
  | imported (aliasName name : String)
deriving DecidableEq, Repr

def reference? (text : List Char) : Option Reference :=
  match Text.cutBy? (· = '.') text with
  | none => if isName text then some (.own (String.ofList text)) else none
  | some (aliasName, name) =>
      if isName aliasName && isName name then
        some (.imported (String.ofList aliasName) (String.ofList name))
      else none

end Constant

namespace Resolution

open Constant

/-- The value of the constant `name` of `package`, following fewer than `bound` references. -/
def constantUpTo (loader : Loader) : Nat → Package → String → Resolution Nat
  | 0, _, name => fail (.badArrayLength name "constant refers to itself")
  | bound + 1, package, name =>
      match package.findConst name with
      | none => fail (.badArrayLength name s!"no constant {name} in package {package.path}")
      | some (unit, spec) =>
          match spec.valueOf name with
          | none => fail (.badArrayLength name "constant has no explicit value")
          | some text => do
              let value := stripParens text.toList
              match Literal.readInt value with
              | .value n => return n
              | .splitCharacter => throw .splitCharacter
              | .notInteger =>
                  match reference? value with
                  | some (.own target) => constantUpTo loader bound package target
                  | some (.imported aliasName target) => do
                      let imports ← importTable loader package unit
                      let path ← packagePath ⟨package, unit, imports⟩ aliasName
                      let foreign ← Resolution.package loader path
                      constantUpTo loader bound foreign target
                  | none =>
                      let shown := String.ofList value
                      fail (.badArrayLength name s!"{shown} is not an integer literal")

def constant (loader : Loader) (package : Package) (name : String) : Resolution Nat :=
  constantUpTo loader (maxReferences + 1) package name

def arrayLength (loader : Loader) (scope : Scope) : ArrayLength → Resolution Nat
  | .literal value => return value
  | .ellipsis => fail (.badArrayLength "..." "only allowed in composite literals")
  | .expression text => fail (.badArrayLength text "constant expressions are not evaluated")
  | .constant none name => constant loader scope.package name
  | .constant (some aliasName) name => do
      let path ← packagePath scope aliasName
      let foreign ← package loader path
      constant loader foreign name

end Resolution

end GoTrace
