import ServingAdmin.Text.Blank
import ServingAdmin.Text.UpperCase

/-!
# Tables

Columns of text, aligned on the left and three blanks apart.  Every cell but the last of
its line is filled up to the widest cell of its column; widths count characters, and
only lines that are printed have a say.  Lines end without blanks.
-/

namespace ServingAdmin

/-- Headers and rows of text. -/
structure Table where
  headers : List String
  rows : List (List String)
  noHeaders : Bool
  deriving DecidableEq

namespace Table

/-- The table with given headers and no rows.  Headers are shown in upper case. -/
def ofHeaders (headers : List String) : Table := ⟨headers.map Text.upper, [], false⟩

/-- The table with a row added behind the others. -/
def addRow (t : Table) (row : List String) : Table := { t with rows := t.rows ++ [row] }

/-- The table with or without its headers. -/
def hidingHeaders (t : Table) (hide : Bool) : Table := { t with noHeaders := hide }

/-- The cells of the lines that are printed. -/
def cells (t : Table) : List (List (List Char)) :=
  (if t.noHeaders then t.rows else t.headers :: t.rows).map (·.map String.toList)

/-- The widths of columns of which one more line is known. -/
def widen : List Nat → List (List Char) → List Nat
  | widths, [] => widths
  | [], cell :: rest => cell.length :: widen [] rest
  | w :: widths, cell :: rest => max w cell.length :: widen widths rest

/-- The width of every column. -/
def widths (t : Table) : List Nat := t.cells.foldl widen []

/-- The blanks between columns. -/
def gap : Nat := 3

/-- A line with its cells filled up to the widths of their columns. -/
def align : List Nat → List (List Char) → List Char
  | _, [] => []
  | _, [cell] => cell
  | widths, cell :: rest =>
      cell ++ List.replicate (widths.headD 0 - cell.length + gap) ' ' ++ align widths.tail rest

/-- The lines of the printed table. -/
def lines (t : Table) : List (List Char) :=
  let widths := t.widths
  t.cells.map fun line => Text.trimEnd (align widths line)

/-- The printed table. -/
def text (t : Table) : String :=
  String.ofList (t.lines.flatMap fun line => line ++ ['\n'])

end Table
end ServingAdmin
