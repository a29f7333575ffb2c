import FormatAudit.Text.Quoted

/-!
Semantic versions: three numbers, then optional identifiers of a pre-release and of a build. A
version has one text, and `Version.parse` reads exactly the texts of versions.
-/

namespace FormatAudit

structure Version where
  major : Nat
  minor : Nat
  patch : Nat
  pre : List String
  build : List String
  deriving DecidableEq, Repr

/-- The parts of a version in which a text can go wrong. -/
inductive VersionPart
  | major
  | minor
  | patch
  | pre
  | build
  deriving DecidableEq, Repr

def VersionPart.name : VersionPart → String
  | major => "major version number"
  | minor => "minor version number"
  | patch => "patch version number"
  | pre => "pre-release identifier"
  | build => "build metadata"

inductive VersionError
  | empty
  | unexpectedEnd (part : VersionPart)
  | unexpected (part : VersionPart) (c : Char)
  | unexpectedAfter (part : VersionPart) (c : Char)
  | commaDue (part : VersionPart) (c : Char)
  | leadingZero (part : VersionPart)
  | tooLarge (part : VersionPart)
  | emptySegment (part : VersionPart)
  | wildcardNotAlone (c : Char)
  | unexpectedAfterWildcard
  | tooManyComparators
  deriving DecidableEq, Repr

def VersionError.message : VersionError → String
  | empty => "empty string, expected a semver version"
  | unexpectedEnd part => s!"unexpected end of input while parsing {part.name}"
  | unexpected part c => s!"unexpected character {Text.quotedChar c} while parsing {part.name}"
  | unexpectedAfter part c => s!"unexpected character {Text.quotedChar c} after {part.name}"
  | commaDue part c => s!"expected comma after {part.name}, found {Text.quotedChar c}"
  | leadingZero part => s!"invalid leading zero in {part.name}"
  | tooLarge part => s!"value of {part.name} exceeds u64::MAX"
  | emptySegment part => s!"empty identifier segment in {part.name}"
  | wildcardNotAlone c => s!"wildcard req ({c}) must be the only comparator in the version req"
  | unexpectedAfterWildcard => "unexpected character after wildcard in version req"
  | tooManyComparators => "excessive number of version comparators"

namespace Version

def maxNumber : Nat := Nat.pow 2 64 - 1

def isIdentifierChar (c : Char) : Bool := c.isAlphanum || c = '-'

def dotted (segments : List String) : String := String.intercalate "." segments

def text (v : Version) : String :=
  s!"{v.major}.{v.minor}.{v.patch}" ++ (if v.pre = [] then "" else "-" ++ dotted v.pre) ++
    (if v.build = [] then "" else "+" ++ dotted v.build)

/-- Reads the digits of a number whose digits so far have the given value. -/
def readDigits (part : VersionPart) (value : Nat) (started : Bool) :
    List Char → Except VersionError (Nat × List Char)
  | [] => if started then .ok (value, []) else .error (.unexpectedEnd part)
  | c :: rest =>
    if c.isDigit then
      if value = 0 ∧ started then .error (.leadingZero part)
      else
        let value := value * 10 + (c.toNat - '0'.toNat)
        if value ≤ maxNumber then readDigits part value true rest else .error (.tooLarge part)
    else if started then .ok (value, c :: rest)
    else .error (.unexpected part c)

def readNumber (part : VersionPart) (s : List Char) : Except VersionError (Nat × List Char) :=
  readDigits part 0 false s

def readDot (part : VersionPart) : List Char → Except VersionError (List Char)
  | '.' :: rest => .ok rest
  | c :: _ => .error (.unexpectedAfter part c)
  | [] => .error (.unexpectedEnd part)

def hasLeadingZero (segment : List Char) : Bool :=
  segment.all Char.isDigit && 1 < segment.length && segment.head? = some '0'

def readSegments (part : VersionPart) (s : List Char) : Except VersionError (List String × List Char) :=
  let segment := s.takeWhile isIdentifierChar
  if segment = [] then .error (.emptySegment part)
  else if part = .pre ∧ hasLeadingZero segment then .error (.leadingZero part)
  else match after : s.dropWhile isIdentifierChar with
    | '.' :: rest =>
      have shorter : rest.length < s.length := by
        have := (List.dropWhile_sublist (l := s) isIdentifierChar).length_le
        rw [after, List.length_cons] at this
        omega
      (fun (more, left) => (String.ofList segment :: more, left)) <$> readSegments part rest
    | rest => .ok ([String.ofList segment], rest)
termination_by s.length

def readMarked (mark : Char) (part : VersionPart) (s : List Char) :
    Except VersionError (Option (List String) × List Char) :=
  match s with
  | c :: rest =>
    if c = mark then (fun (segments, left) => (some segments, left)) <$> readSegments part rest else .ok (none, s)
  | [] => .ok (none, [])

def parseChars (s : List Char) : Except VersionError Version := do
  if s = [] then .error .empty
  let (major, s) ← readNumber .major s
  let s ← readDot .major s
  let (minor, s) ← readNumber .minor s
  let s ← readDot .minor s
  let (patch, s) ← readNumber .patch s
  let (pre, s) ← readMarked '-' .pre s
  let (build, s) ← readMarked '+' .build s
  match s with
  | [] => .ok ⟨major, minor, patch, pre.getD [], build.getD []⟩
  | c :: _ =>
    .error (.unexpectedAfter (if build.isSome then .build else if pre.isSome then .pre else .patch) c)

def parse (s : String) : Except VersionError Version := parseChars s.toList

end Version

end FormatAudit
