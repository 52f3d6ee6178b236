import ServingAdmin.Problem

/-!
# Names of claims and namespaces

A label is made of lower-case letters, digits and hyphens and neither begins nor ends
with a hyphen; the name of a claim is a sequence of labels with single dots between
them.  Names are checked in one pass over their characters that remembers what the
last character was.  A claim's name has at most 253 octets, and the name of its
namespace is a single label of at most 63.
-/

namespace ServingAdmin
namespace Claim

/-- Where a name stands after some of its characters. -/
inductive NameState
  /-- A label begins. -/
  | labelStart
  /-- The label can end here. -/
  | inLabel
  /-- The label has to go on after a hyphen. -/
  | afterHyphen
  deriving DecidableEq

/-- Whether a character is a lower-case letter or a digit. -/
def isAlnum (c : Char) : Bool := c.isLower || c.isDigit

/-- Reads one more character of a name; dots are read only where there can be several labels. -/
def NameState.next? (dots : Bool) (c : Char) : NameState → Option NameState
  | labelStart => if isAlnum c then some inLabel else none
  | inLabel =>
      if isAlnum c then some inLabel
      else if c = '-' then some afterHyphen
      else if c = '.' ∧ dots then some labelStart
      else none
  | afterHyphen =>
      if isAlnum c then some inLabel
      else if c = '-' then some afterHyphen
      else none

/-- Whether the rest of a name can end where it does. -/
def endsWell (dots : Bool) : NameState → List Char → Bool
  | state, [] => state = .inLabel
  | state, c :: rest =>
      match state.next? dots c with
      | some state' => endsWell dots state' rest
      | none => false

/-- Whether a text is a sequence of labels. -/
def isSubdomain (s : String) : Bool := endsWell true .labelStart s.toList

/-- Whether a text is a single label. -/
def isLabel (s : String) : Bool := endsWell false .labelStart s.toList

/-- Checks a claim of a name for a namespace. -/
def check (name ns : String) : Except Failure Unit :=
  if 253 < name.utf8ByteSize ∨ ¬ isSubdomain name then
    .error (.of (.rejectedClaim (.badName name)))
  else if ns.isEmpty then .error (.of (.rejectedClaim .missingNamespace))
  else if 63 < ns.utf8ByteSize ∨ ¬ isLabel ns then
    .error (.of (.rejectedClaim (.badNamespace ns)))
  else .ok ()

end Claim
end ServingAdmin
