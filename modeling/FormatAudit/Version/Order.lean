import FormatAudit.Version.Basic

/-!
The order of pre-releases. A release comes after its pre-releases; identifiers are compared one by
one, numbers by value and before other identifiers, the others by their characters.
-/

namespace FormatAudit.Version

def isNumeric (segment : String) : Bool := segment.toList.all Char.isDigit

def compareChars : List Char → List Char → Ordering
  | [], [] => .eq
  | [], _ :: _ => .lt
  | _ :: _, [] => .gt
  | a :: as, b :: bs => (compare a.toNat b.toNat).then (compareChars as bs)

def compareSegment (a b : String) : Ordering :=
  match isNumeric a, isNumeric b with
  | true, false => .lt
  | false, true => .gt
  | true, true => (compare a.length b.length).then (compareChars a.toList b.toList)
  | false, false => compareChars a.toList b.toList

def compareSegments : List String → List String → Ordering
  | [], [] => .eq
  | [], _ :: _ => .lt
  | _ :: _, [] => .gt
  | a :: as, b :: bs => (compareSegment a b).then (compareSegments as bs)

/-- The order of two pre-releases, of which an empty one is a release. -/
def comparePre : List String → List String → Ordering
  | [], [] => .eq
  | [], _ :: _ => .gt
  | _ :: _, [] => .lt
  | a, b => compareSegments a b

end FormatAudit.Version
