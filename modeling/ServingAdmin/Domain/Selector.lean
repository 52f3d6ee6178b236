import ServingAdmin.Text.Blank
import ServingAdmin.Text.Split

/-!
# Domain selectors

A custom domain is stored with a block that says which routes it is for:

    selector:
      app: web
      tier: front

`Selector.summary` puts the block on one line, `app=web; tier=front`.  A block that does
not begin with a line `selector:` has an empty summary, and later lines without a
colon or an equals sign are passed over.
-/

namespace ServingAdmin
namespace Selector

open Text

/-- An equals sign for every colon. -/
def normalized (s : List Char) : List Char := s.map fun c => if c = ':' then '=' else c

/-- The lines of a block without the blanks around it. -/
def lines (s : List Char) : List (List Char) := splitAt '\n' (normalized (trim s))

/-- What the first line begins with. -/
def heading : List Char := ['s', 'e', 'l', 'e', 'c', 't', 'o', 'r', '=']

/-- What stands between two entries. -/
def separator : List Char := [';', ' ']

/-- The entries of a block. -/
def entries (s : List Char) : List (List Char) :=
  match lines s with
  | first :: rest =>
      if heading.isPrefixOf first then
        (rest.filter (·.contains '=')).map (·.filter (· ≠ ' '))
      else []
  | [] => []

/-- A block on one line. -/
def summary (s : String) : String := String.ofList (separator.intercalate (entries s.toList))

end Selector
end ServingAdmin
