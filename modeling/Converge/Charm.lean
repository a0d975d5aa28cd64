import Converge.Text.Digits
import Converge.Text.Split
/-!
# Charm addresses

An address such as `ch:amd64/jammy/cinder-k8s-50` ends in the charm's name and, behind a dash, its
revision.  Main statement: a name and revision that are taken apart make up the last segment of
the address (`segment_eq_of_splitRevision`).
-/

namespace Converge

/-- A charm, with its revision if the address has one. -/
structure Charm where
  name : String
  revision : Option Nat
  deriving DecidableEq

namespace Charm

/-- The part of an address behind the scheme and the last slash. -/
def segment (address : List Char) : List Char :=
  let (whole, rest) := Text.splitFirst ':' address
  let path := rest.getD whole
  match Text.splitLast '/' path with
  | some (_, last) => last
  | none => path

/-- Cuts a segment at its last dash, if digits and nothing else follow it and something stands in
front of it. -/
def splitRevision (segment : List Char) : Option (List Char × List Char) :=
  (Text.splitLast '-' segment).filter fun (name, digits) =>
    !name.isEmpty && !digits.isEmpty && digits.all Text.isDigit

/-- The name in an address. -/
def nameOf (address : String) : String :=
  let last := segment address.toList
  String.ofList (((splitRevision last).map (·.1)).getD last)

/-- The digits of the revision in an address. -/
def revisionOf (address : String) : Option String :=
  (splitRevision (segment address.toList)).map fun (_, digits) => String.ofList digits

/-- Reads an address.  A revision that does not fit into 64 bits is none. -/
def parse (address : String) : Charm where
  name := nameOf address
  revision := (revisionOf address).bind fun digits => Text.boundedNat? Text.wordLimit digits.toList

theorem segment_eq_of_splitRevision {segment name digits : List Char}
    (h : splitRevision segment = some (name, digits)) : segment = name ++ '-' :: digits :=
  Text.eq_append_of_splitLast (Option.filter_eq_some_iff.1 h).1

end Charm

end Converge
