import FormatAudit.Shell.Arithmetic
import FormatAudit.Shell.Pattern
import FormatAudit.Shell.Session

/-!
What words come to. A word becomes a row of elements first: characters, with a note of where they come
from, and the ends of fields. Commands take the fields, into which what is not quoted is split; other
places take the whole text, or a pattern.
-/

namespace FormatAudit.Shell

/-- Where a character comes from: it is written without quotes, comes from an expansion without quotes, or
is quoted. -/
inductive Origin
  | written
  | expanded
  | quoted
  deriving DecidableEq, Repr

/-- A part of what a word comes to. Quotes make a field even of nothing, unless all that they hold is a row
of arguments that is empty. -/
inductive Element
  | char (c : Char) (origin : Origin)
  | quote
  | noArguments
  | edge
  deriving DecidableEq, Repr

inductive Values
  | one (value : String)
  | row (values : List String)
  deriving DecidableEq, Repr

inductive Use
  | fields
  | value
  | sum
  | text
  deriving DecidableEq, Repr

def Use.inside : Use → Use
  | .fields => .fields
  | _ => .text

inductive Between
  | start
  | blank
  | mark
  deriving DecidableEq, Repr

/-- Fields in the making: those that are done, the last of them first, and the one that goes on with its
last character first. Characters have a note of whether they are quoted. -/
structure Splitting where
  fields : List (List Pattern.Mark)
  opened : Option (List Pattern.Mark)
  between : Between
  noArguments : Bool

namespace Splitting

def start : Splitting := ⟨[], none, .start, false⟩

def add (s : Splitting) (c : Char) (isQuoted : Bool) : Splitting :=
  { s with opened := some ((c, isQuoted) :: s.opened.getD []) }

def close (s : Splitting) (between : Between) : Splitting :=
  match s.opened with
  | some [] => ⟨if s.noArguments then s.fields else [] :: s.fields, none, between, false⟩
  | some chars => ⟨chars.reverse :: s.fields, none, between, false⟩
  | none => { s with between }

def mark (s : Splitting) : Splitting :=
  if s.opened.isSome then s.close .mark
  else if s.between = .blank then { s with between := .mark }
  else { s with fields := [] :: s.fields, between := .mark }

def blank (s : Splitting) : Splitting :=
  if s.opened.isSome then s.close .blank else s

def step (separators : List Char) (s : Splitting) : Element → Splitting
  | .char c .expanded =>
    if c ∈ separators then if c = ' ' || c = '\t' || c = '\n' then s.blank else s.mark
    else s.add c false
  | .char c origin => s.add c (origin = .quoted)
  | .quote => { s with opened := some (s.opened.getD []) }
  | .noArguments => { s with noArguments := true }
  | .edge => { s.close .start with between := .start }

end Splitting

def split (separators : List Char) (elements : List Element) : List (List Pattern.Mark) :=
  ((elements.foldl (Splitting.step separators) .start).close .start).fields.reverse

def hasPattern (field : List Pattern.Mark) : Bool :=
  field.any fun (c, isQuoted) => !isQuoted && (c = '*' || c = '?' || c = '[')

def pathNames (field : List Pattern.Mark) : List (List Pattern.Mark) :=
  field.foldr (fun mark names =>
    if mark.1 = '/' then [] :: names
    else match names with
      | name :: more => (mark :: name) :: more
      | [] => [[mark]]) [[]]

def pathsFor (disk : Disk) (directory : String) (found : List String) : List (List Pattern.Mark) → List String
  | [] => found
  | name :: rest =>
    let text := String.ofList (name.map Prod.fst)
    let place (path : String) : String := Disk.absolute directory path
    let fitting (path : String) : List String :=
      if hasPattern name then
        let names := (disk.names (place path)).filter fun other =>
          (Pattern.ofMarks name).fits other.toList && (other.startsWith "." → text.startsWith ".")
        (names.mergeSort (· ≤ ·)).map (path ++ ·)
      else [path ++ text]
    let paths := found.flatMap fitting
    if rest.isEmpty then paths.filter fun path => (disk.entry? (place path)).isSome
    else
      let directories := paths.filter fun path => path = "" || disk.isDirectory (place path)
      pathsFor disk directory (directories.map (· ++ "/")) rest

namespace Run

def separators : Run (List Char) := do pure (((← session).value? "IFS").getD " \t\n").toList

def joiner : Run String := do
  let s ← session
  pure (match s.value? "IFS" with
    | none => " "
    | some separators => String.ofList (separators.toList.take 1))

def quotedChars (s : List Char) : List Element := s.map (Element.char · .quoted)

def flagOrder : List Char := "ubaCEVvxsnmiIfe".toList

def values? (name : String) : Run (Option Values) := do
  let s ← session
  let one (value : String) := some (Values.one value)
  match name with
  | "@" | "*" => pure (some (.row s.arguments))
  | "#" => pure (one (toString s.arguments.length))
  | "?" => pure (one (toString s.status))
  | "$" => pure (one (toString s.shellId))
  | "!" => pure (s.jobs.head?.map fun job => .one (toString job.processId))
  | "-" => pure (one (String.ofList (flagOrder.filter s.hasFlag)))
  | "0" => pure (one s.name)
  | name =>
    match name.toNat? with
    | some n => pure ((if n = 0 then some s.name else s.arguments[n - 1]?).map .one)
    | none => pure ((s.value? name).map .one)

def valuesIn (use : Use) (name : String) (isQuoted : Bool) : Values → Run Values
  | .row values => do
    if use = .fields && !(isQuoted && name = "*") then pure (.row values)
    else pure (.one (String.intercalate (← joiner) values))
  | values => pure values

def elementsOf (isQuoted : Bool) : Values → List Element
  | .one value => value.toList.map (Element.char · (if isQuoted then .quoted else .expanded))
  | .row values =>
    if !isQuoted then List.intercalate [.edge] (values.map fun value => value.toList.map (Element.char · .expanded))
    else if values.isEmpty then [.noArguments]
    else List.intercalate [.edge] (values.map fun value => .quote :: quotedChars value.toList)

def notSet (name : String) (message : String) : Run (List Element) := fail s!"{name}: {message}"

def arithmeticMessage (source : String) : ArithmeticFault → String
  | .expectedPrimary => s!"arithmetic expression: expecting primary: \"{source}\""
  | .expectedEnd => s!"arithmetic expression: expecting EOF: \"{source}\""
  | .expectedParenthesis => s!"arithmetic expression: expecting ')': \"{source}\""
  | .expectedColon => s!"arithmetic expression: expecting ':': \"{source}\""
  | .divisionByZero => s!"arithmetic expression: division by zero: \"{source}\""
  | .notNumber value => s!"Illegal number: {value}"
  | .readOnly name => s!"{name}: is read only"

def evaluate (source : String) : Arithmetic → Run Int
  | .number value => pure value
  | .parameter name => valueOf name
  | .negate body => do pure (Operator.wrap (-(← evaluate source body)))
  | .complement body => do pure (-(← evaluate source body) - 1)
  | .not body => do pure (Operator.ofBool ((← evaluate source body) = 0))
  | .binary operator left right => do
    let a ← evaluate source left
    let b ← evaluate source right
    ofResult (operator.apply a b)
  | .both left right => do
    if (← evaluate source left) = 0 then pure 0 else pure (Operator.ofBool ((← evaluate source right) ≠ 0))
  | .either left right => do
    if (← evaluate source left) ≠ 0 then pure 1 else pure (Operator.ofBool ((← evaluate source right) ≠ 0))
  | .condition test yes no => do
    if (← evaluate source test) ≠ 0 then evaluate source yes else evaluate source no
  | .assign name operator value => do
    let new ← evaluate source value
    let result ← match operator with
      | some operator => do ofResult (operator.apply (← valueOf name) new)
      | none => pure new
    setVariable name (toString result)
    pure result
where
  ofResult (result : Except ArithmeticFault Int) : Run Int :=
    match result with
    | .ok value => pure value
    | .error fault => fail (arithmeticMessage source fault)
  valueOf (name : String) : Run Int := do
    let value := ((← session).value? name).getD ""
    match integer? value.toList with
    | some n => pure n
    | none => fail (arithmeticMessage source (.notNumber value))

def number (source : String) : Run Int :=
  match Arithmetic.parse source.toList with
  | .ok sum => evaluate source sum
  | .error fault => fail (arithmeticMessage source fault)

def textOf (elements : List Element) : String :=
  String.ofList (elements.filterMap fun
    | .char c _ => some c
    | _ => none)

def marksOf (elements : List Element) : List Pattern.Mark :=
  elements.filterMap fun
    | .char c origin => some (c, origin = .quoted)
    | _ => none

def trimmed (pattern : Pattern) (atStart longest : Bool) (value : String) : String :=
  String.ofList ((if atStart then pattern.trimStart longest else pattern.trimEnd longest) value.toList)

def isThere (emptyToo : Bool) : Option Values → Bool
  | some (.one value) => !(emptyToo && value = "")
  | some (.row values) => !(values.isEmpty || emptyToo && values.all (· = ""))
  | none => false

def existing (name : String) : Run (Option Values) := do
  let found ← values? name
  if found.isNone && (← session).hasFlag 'u' then fail s!"{name}: parameter not set"
  pure found

def asExpanded (elements : List Element) : List Element :=
  elements.map fun
    | .char c .written => .char c .expanded
    | element => element

def changed (use : Use) (name : String) (change : Change) (isQuoted : Bool) (operand : Use → Run (List Element)) :
    Run (List Element) := do
  let asIs (found : Option Values) : Run (List Element) :=
    match found with
    | some values => do pure (elementsOf isQuoted (← valuesIn use name isQuoted values))
    | none => pure []
  match change with
  | .keep => do asIs (← existing name)
  | .length => do
    let joiner ← joiner
    let length := match ← existing name with
      | some (.one value) => value.length
      | some (.row values) => (String.intercalate joiner values).length
      | none => 0
    asIs (some (.one (toString length)))
  | .instead emptyToo => do
    let found ← values? name
    if isThere emptyToo found then asIs found else asExpanded <$> operand use.inside
  | .alternative emptyToo => do
    if isThere emptyToo (← values? name) then asExpanded <$> operand use.inside else pure []
  | .assign emptyToo => do
    let found ← values? name
    if isThere emptyToo found then asIs found
    else if !isName name.toList then fail s!"{name}: bad variable name"
    else
      let value := textOf (← operand .text)
      setVariable name value
      asIs (some (.one value))
  | .refuse emptyToo => do
    let found ← values? name
    if isThere emptyToo found then asIs found
    else
      let message := textOf (← operand .text)
      let usual := if emptyToo then "parameter not set or null" else "parameter not set"
      notSet name (if message ≠ "" then message else usual)
  | .trim atStart longest => do
    let found ← existing name
    let pattern := Pattern.ofMarks (marksOf (← operand .text))
    match found with
    | none => pure []
    | some values =>
      match ← valuesIn use name isQuoted values with
      | .one value => pure (elementsOf isQuoted (.one (trimmed pattern atStart longest value)))
      | .row values => pure (elementsOf isQuoted (.row (values.map (trimmed pattern atStart longest))))
  | .malformed => fail "Bad substitution"

/-- The directory of the user who is named behind a tilde; without a name it is the given one. -/
def homeOf? (home : Option String) (name : List Char) : Option String :=
  if name.isEmpty then home else if String.ofList name = "root" then some "/root" else none

def writtenChars (s : List Char) : List Element := s.map (Element.char · .written)

/-- The elements of characters at whose start a tilde counts. A name behind it ends with the characters, if they
are followed by nothing else, or with a slash. -/
def tildeElements (home : Option String) (isFollowed : Bool) : List Char → List Element
  | '~' :: rest =>
    let name := rest.takeWhile (· ≠ '/')
    let after := rest.drop name.length
    match if isFollowed && after.isEmpty then none else homeOf? home name with
    | some directory => quotedChars directory.toList ++ writtenChars after
    | none => writtenChars ('~' :: rest)
  | s => writtenChars s

/-- The elements of characters that are written without quotes. Tildes count at the start of a word, and in
values also behind colons. -/
def writtenElements (use : Use) (home : Option String) (isStart isFollowed : Bool) (chars : List Char) : List Element :=
  match use with
  | .sum => writtenChars chars
  | .value =>
    let segments := (String.ofList chars).splitOn ":"
    List.intercalate [.char ':' .written] (segments.mapIdx fun i segment =>
      if isStart || i ≠ 0 then tildeElements home (isFollowed && i + 1 = segments.length) segment.toList
      else writtenChars segment.toList)
  | _ => if isStart then tildeElements home isFollowed chars else writtenChars chars

def startsAnew (use : Use) : Piece → Bool
  | .text chars false => use = .value && chars.getLast? = some ':'
  | _ => false

def withoutLineEnds (s : List Char) : List Char := (s.reverse.dropWhile (· = '\n')).reverse

mutual

def pieceElements (substitute : Script → Run (List Char)) (use : Use) (isStart isFollowed : Bool) :
    Piece → Run (List Element)
  | .text chars true => pure (.quote :: quotedChars chars)
  | .text chars false => do pure (writtenElements use ((← session).value? "HOME") isStart isFollowed chars)
  | .parameter name change operand isQuoted =>
    changed use name change isQuoted fun inner => wordElements substitute inner true operand
  | .output body isQuoted => do
    let chars := withoutLineEnds (← substitute body)
    pure (chars.map (Element.char · (if isQuoted then .quoted else .expanded)))
  | .number expression isQuoted => do
    let value ← number (textOf (← wordElements substitute .sum true expression))
    pure ((toString value).toList.map (Element.char · (if isQuoted then .quoted else .expanded)))

def wordElements (substitute : Script → Run (List Char)) (use : Use) (isStart : Bool) :
    List Piece → Run (List Element)
  | [] => pure []
  | piece :: rest => do
    let first ← pieceElements substitute use isStart (!rest.isEmpty) piece
    pure (first ++ (← wordElements substitute use (startsAnew use piece) rest))

end

variable (substitute : Script → Run (List Char))

def fields : List Word → Run (List String)
  | [] => pure []
  | word :: rest => do
    let elements ← wordElements substitute .fields true word
    let s ← session
    let disk := (← world).disk
    let first := (split (← separators) elements).flatMap fun field =>
      let paths := if hasPattern field && !s.hasFlag 'f' then pathsFor disk s.directory [""] (pathNames field) else []
      if paths.isEmpty then [String.ofList (field.map Prod.fst)] else paths
    pure (first ++ (← fields rest))

def text (word : Word) : Run String := do pure (textOf (← wordElements substitute .text true word))

def value (word : Word) : Run String := do pure (textOf (← wordElements substitute .value true word))

def pattern (word : Word) : Run Pattern := do
  pure (Pattern.ofMarks (marksOf (← wordElements substitute .text true word)))

end Run

end FormatAudit.Shell
