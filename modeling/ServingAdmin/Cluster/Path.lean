import ServingAdmin.Text.FormEncoded
import ServingAdmin.Text.Split

/-!
# Paths

A path is sent in its resolved form.  Its pieces stand between slashes, for which
backslashes are taken too.  A piece of one dot stays where it is and a piece of two dots
goes back by one piece, but not beyond the start; a dot can also be written by its code.
As the last piece they leave an empty one, so the path ends in a slash.  Some characters
are written by their codes.
-/

namespace ServingAdmin
namespace Cluster
namespace Path

/-- The dots that make up a piece, if there is nothing else in it. -/
def dots? : List Char → Option Nat
  | [] => some 0
  | '.' :: rest => (dots? rest).map (· + 1)
  | '%' :: '2' :: 'e' :: rest => (dots? rest).map (· + 1)
  | '%' :: '2' :: 'E' :: rest => (dots? rest).map (· + 1)
  | _ => none

/-- Whether a piece stays where it is. -/
def staysHere (piece : List Char) : Bool := dots? piece = some 1

/-- Whether a piece goes back. -/
def goesBack (piece : List Char) : Bool := dots? piece = some 2

/-- Whether a piece is the name of a drive, which nothing goes back beyond. -/
def isDrive : List Char → Bool
  | [letter, mark] => letter.isAlpha && (mark = ':' || mark = '|')
  | _ => false

/-- The pieces that are left, from the last to the first, after going back. -/
def back : List (List Char) → List (List Char)
  | [] => []
  | piece :: before => if isDrive piece then piece :: before else before

/-- Resolves pieces behind those before them, which are listed from the last to the first. -/
def resolve (before : List (List Char)) : List (List Char) → List (List Char)
  | [] => before.reverse
  | piece :: rest =>
      let here := if staysHere piece then before else back before
      if staysHere piece ∨ goesBack piece then
        if rest = [] then ([] :: here).reverse else resolve here rest
      else resolve (piece :: before) rest

/-- The characters that stand for themselves. -/
def isPlain (c : Char) : Bool := !(['"', '\x7b', '\x7d'].contains c)

/-- A character as it is sent. -/
def sentChar (c : Char) : List Char :=
  if isPlain c then [c] else Text.formEncodedOctet (UInt8.ofNat c.toNat)

/-- The pieces of a path, which begins with a slash. -/
def pieces (path : List Char) : List (List Char) :=
  (Text.splitAt '/' (path.map fun c => if c = '\\' then '/' else c)).tail

/-- A path as it is sent. -/
def sent (path : List Char) : List Char :=
  (resolve [] (pieces path)).flatMap fun piece => '/' :: piece.flatMap sentChar

end Path
end Cluster
end ServingAdmin
