import FormatAudit.Version.Order

/-!
Version requirements: comparators of which a version has to meet every one. A pre-release meets a
requirement only if one of its comparators names a pre-release of the same three numbers.
-/

namespace FormatAudit

inductive Operator
  | exact
  | greater
  | greaterEq
  | less
  | lessEq
  | tilde
  | caret
  | wildcard
  deriving DecidableEq, Repr

def Operator.symbol : Operator → String
  | exact => "="
  | greater => ">"
  | greaterEq => ">="
  | less => "<"
  | lessEq => "<="
  | tilde => "~"
  | caret => "^"
  | wildcard => ""

/-- An operator and the version it compares with, of which the later numbers may be left out. -/
structure Comparator where
  operator : Operator
  major : Nat
  minor : Option Nat
  patch : Option Nat
  pre : List String
  deriving DecidableEq, Repr

structure Requirement where
  comparators : List Comparator
  deriving DecidableEq, Repr

namespace Comparator

def text (c : Comparator) : String :=
  let star := if c.operator = .wildcard then ".*" else ""
  c.operator.symbol ++ toString c.major ++
    match c.minor with
    | none => star
    | some minor => s!".{minor}" ++
      match c.patch with
      | none => star
      | some patch => s!".{patch}" ++ if c.pre = [] then "" else "-" ++ Version.dotted c.pre

def admitsExact (c : Comparator) (v : Version) : Bool :=
  c.major == v.major && c.minor.all (· == v.minor) && c.patch.all (· == v.patch) && c.pre == v.pre

/-- The version lies on the given side of the comparator; a number left out is met by neither side. -/
def admitsBeyond (side : Ordering) (c : Comparator) (v : Version) : Bool :=
  if v.major ≠ c.major then compare v.major c.major == side
  else match c.minor with
    | none => false
    | some minor =>
      if v.minor ≠ minor then compare v.minor minor == side
      else match c.patch with
        | none => false
        | some patch =>
          if v.patch ≠ patch then compare v.patch patch == side
          else Version.comparePre v.pre c.pre == side

def preAtLeast (c : Comparator) (v : Version) : Bool := (Version.comparePre v.pre c.pre).isGE

def admitsTilde (c : Comparator) (v : Version) : Bool :=
  c.major == v.major && c.minor.all (· == v.minor) &&
    match c.patch with
    | none => c.preAtLeast v
    | some patch => if v.patch ≠ patch then patch < v.patch else c.preAtLeast v

def admitsCaret (c : Comparator) (v : Version) : Bool :=
  c.major == v.major &&
    match c.minor, c.patch with
    | none, _ => true
    | some minor, none => if 0 < c.major then minor ≤ v.minor else v.minor == minor
    | some minor, some patch =>
      if 0 < c.major then
        if v.minor ≠ minor then minor < v.minor
        else if v.patch ≠ patch then patch < v.patch
        else c.preAtLeast v
      else if 0 < minor then
        v.minor == minor && if v.patch ≠ patch then patch < v.patch else c.preAtLeast v
      else v.minor == minor && v.patch == patch && c.preAtLeast v

def admits (c : Comparator) (v : Version) : Bool :=
  match c.operator with
  | .exact | .wildcard => c.admitsExact v
  | .greater => c.admitsBeyond .gt v
  | .greaterEq => c.admitsExact v || c.admitsBeyond .gt v
  | .less => c.admitsBeyond .lt v
  | .lessEq => c.admitsExact v || c.admitsBeyond .lt v
  | .tilde => c.admitsTilde v
  | .caret => c.admitsCaret v

def namesPreOf (c : Comparator) (v : Version) : Bool :=
  c.major == v.major && c.minor == some v.minor && c.patch == some v.patch && c.pre ≠ []

end Comparator

namespace Requirement

def text (r : Requirement) : String :=
  if r.comparators = [] then "*" else String.intercalate ", " (r.comparators.map Comparator.text)

def admits (r : Requirement) (v : Version) : Bool :=
  r.comparators.all (·.admits v) && (v.pre = [] || r.comparators.any (·.namesPreOf v))

def skipSpaces (s : List Char) : List Char := s.dropWhile (· = ' ')

def readWildcard : List Char → Option (Char × List Char)
  | c :: rest => if c = '*' ∨ c = 'x' ∨ c = 'X' then some (c, rest) else none
  | [] => none

def readOperator : List Char → Option Operator × List Char
  | '=' :: rest => (some .exact, rest)
  | '>' :: '=' :: rest => (some .greaterEq, rest)
  | '>' :: rest => (some .greater, rest)
  | '<' :: '=' :: rest => (some .lessEq, rest)
  | '<' :: rest => (some .less, rest)
  | '~' :: rest => (some .tilde, rest)
  | '^' :: rest => (some .caret, rest)
  | s => (none, s)

inductive Place
  | absent
  | wildcard
  | number (n : Nat)
  deriving DecidableEq

def Place.number? : Place → Option Nat
  | number n => some n
  | _ => none

def readPlace (part : VersionPart) (wildcardOnly : Bool) : List Char → Except VersionError (Place × List Char)
  | '.' :: rest =>
    match readWildcard rest with
    | some (_, rest) => .ok (.wildcard, rest)
    | none =>
      if wildcardOnly then .error .unexpectedAfterWildcard
      else (fun (n, rest) => (.number n, rest)) <$> Version.readNumber part rest
  | s => .ok (.absent, s)

def lastPart (minor patch : Place) (pre build : Option (List String)) : VersionPart :=
  if build.isSome then .build
  else if pre.isSome then .pre
  else if patch ≠ .absent then .patch
  else if minor ≠ .absent then .minor
  else .major

/-- Reads a comparator and the spaces after it; gives also the part that was read last. -/
def readComparator (s : List Char) : Except VersionError (Comparator × VersionPart × List Char) := do
  let (operator, s) := readOperator s
  let (major, s) ← Version.readNumber .major (skipSpaces s)
  let (minor, s) ← readPlace .minor false s
  let (patch, s) ← readPlace .patch (minor = .wildcard) s
  let complete := patch.number?.isSome
  let (pre, s) ← if complete then Version.readMarked '-' .pre s else pure (none, s)
  let (build, s) ← if complete then Version.readMarked '+' .build s else pure (none, s)
  let implied := if minor = .wildcard ∨ patch = .wildcard then Operator.wildcard else .caret
  pure (⟨operator.getD implied, major, minor.number?, patch.number?, pre.getD []⟩,
    lastPart minor patch pre build, skipSpaces s)

def wildcardFault (s : List Char) (error : VersionError) : VersionError :=
  match readWildcard s with
  | some (c, rest) =>
    match skipSpaces rest with
    | [] => .wildcardNotAlone c
    | ',' :: _ => .wildcardNotAlone c
    | _ => error
  | none => error

def readComparators (more : Nat) (s : List Char) : Except VersionError (List Comparator) :=
  match readComparator s with
  | .error error => .error (wildcardFault s error)
  | .ok (comparator, part, rest) =>
    match rest with
    | [] => .ok [comparator]
    | ',' :: rest =>
      match more with
      | 0 => .error .tooManyComparators
      | more + 1 => (comparator :: ·) <$> readComparators more (skipSpaces rest)
    | c :: _ => .error (.commaDue part c)

def maxComparators : Nat := 32

def parseChars (s : List Char) : Except VersionError Requirement :=
  let s := skipSpaces s
  match readWildcard s with
  | some (c, rest) =>
    match skipSpaces rest with
    | [] => .ok ⟨[]⟩
    | ',' :: _ => .error (.wildcardNotAlone c)
    | _ => .error .unexpectedAfterWildcard
  | none => Requirement.mk <$> readComparators (maxComparators - 1) s

def parse (s : String) : Except VersionError Requirement := parseChars s.toList

end Requirement

end FormatAudit
