import ServingAdmin.Cluster.Path

/-!
# Request targets

A target is a path, and behind a question mark a query.  What stands behind a hash sign
is not sent.  Only some of the printable ASCII characters can be part of a target, so a
name with a blank in it, for instance, has no target.  The path is resolved, and the
single quotes of the query are written by their code.
-/

namespace ServingAdmin
namespace Cluster

/-- What a request is about. -/
structure Target where
  path : List Char
  query : Option (List Char)
  deriving DecidableEq

namespace Target

/-- Whether a character is printable ASCII and no blank. -/
def isVisible (c : Char) : Bool := 0x21 ≤ c.toNat && c.toNat ≤ 0x7E

/-- The characters of a path. -/
def isPathChar (c : Char) : Bool := isVisible c && !(['#', '<', '>', '?', '\x60'].contains c)

/-- The characters of a query. -/
def isQueryChar (c : Char) : Bool := isVisible c && !(['"', '#', '<', '>'].contains c)

/-- A character of a query as it is sent. -/
def sentQueryChar (c : Char) : List Char := if c = '\x27' then ['%', '2', '7'] else [c]

/-- Reads a target that begins with a slash, if its characters allow it. -/
def read? (s : List Char) : Option Target :=
  let kept := s.takeWhile (· ≠ '#')
  let path := kept.takeWhile (· ≠ '?')
  if path.all isPathChar then
    match kept.dropWhile (· ≠ '?') with
    | [] => some ⟨Path.sent path, none⟩
    | _ :: query =>
        if query.all isQueryChar then some ⟨Path.sent path, some (query.flatMap sentQueryChar)⟩
        else none
  else none

/-- A target as it is sent. -/
def text (t : Target) : String :=
  String.ofList (t.path ++ match t.query with
    | none => []
    | some query => '?' :: query)

end Target

end Cluster
end ServingAdmin
