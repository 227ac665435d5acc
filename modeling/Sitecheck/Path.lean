import Sitecheck.Text.Basic

/-!
# Paths

A path is a list of names, from the working directory or from a root.  Writing
a path drops empty names and single dots; two dots stay, and so do two slashes
at the front, which name a root of their own.
-/

namespace Sitecheck

inductive Root where
  | working
  | top
  | other
  deriving DecidableEq, Repr

namespace Root

def ofSlashes : Nat → Root
  | 0 => working
  | 2 => other
  | _ => top

def text : Root → String
  | working => ""
  | top => "/"
  | other => "//"

end Root

structure Path where
  root : Root
  parts : List String
  deriving DecidableEq, Repr

namespace Path

def isPart (part : String) : Bool := part != "" && part != "."

def ofText (text : String) : Path :=
  ⟨.ofSlashes (text.toList.takeWhile (· = '/')).length, (Text.splitOn "/" text).filter isPart⟩

def isAbsolute (path : Path) : Bool := path.root != .working

def text (path : Path) : String :=
  if !path.isAbsolute && path.parts.isEmpty then "."
  else path.root.text ++ Text.join "/" path.parts

/-- The path that a text names from here; an absolute one starts anew. -/
def join (path : Path) (text : String) : Path :=
  let next := ofText text
  if next.isAbsolute then next else ⟨path.root, path.parts ++ next.parts⟩

/-- The bytes that a code point takes in a name.  The halves from dc80 to dcff
stand for bytes that are no text; other halves have no place in a name. -/
def pointBytes? (point : List Char) : Option Nat :=
  match Text.halfOf? point with
  | none => some (Text.lastChar point).utf8Size
  | some half => if 0xdc80 ≤ half && half ≤ 0xdcff then some 1 else none

def nameBytes? (name : String) : Option Nat := do
  return (← (Text.points name.toList).mapM pointBytes?).foldl (· + ·) 0

def byteSize? (path : Path) : Option Nat := nameBytes? path.text

def parent (path : Path) : Path := { path with parts := path.parts.dropLast }

def name (path : Path) : String := path.parts.getLastD ""

/-- The name without what follows its last full stop, unless that stop is at an end. -/
def stem (path : Path) : String :=
  let name := path.name.toList
  let ending := name.reverse.takeWhile (· ≠ '.')
  let front := name.take (name.length - ending.length - 1)
  if ending.length < name.length && !ending.isEmpty && !front.isEmpty then String.ofList front
  else path.name

end Path

end Sitecheck
