import FormatAudit.Shell.Tool.Basic

/-!
Programs that keep some of the lines of a text, put them into another order, or count them.
-/

namespace FormatAudit.Shell.Tool

def cat : Tool := fun files arguments input =>
  withOptions "cat" 1 "u" "" arguments input fun options => filter (named "cat") files options.operands input id

structure Amount where
  sign : Option Char
  count : Nat

def Amount.ofText? (s : List Char) : Option Amount :=
  match s with
  | '-' :: rest => (decimal? rest).map (⟨some '-', ·⟩)
  | '+' :: rest => (decimal? rest).map (⟨some '+', ·⟩)
  | s => (decimal? s).map (⟨none, ·⟩)

/-- A first option that is only a number, such as `-5`, as a number of lines. -/
def withLineCount : List String → List String
  | [] => []
  | argument :: rest =>
    match argument.toList with
    | '-' :: c :: digits =>
      (if (c :: digits).all Char.isDigit then "-n" ++ String.ofList (c :: digits) else argument) :: rest
    | _ => argument :: rest

def units (isLines : Bool) (s : List Char) : List (List Char) := if isLines then lines s else s.map ([·])

def firstOf (isLines : Bool) (amount : Amount) (s : List Char) : List Char :=
  let all := units isLines s
  (if amount.sign = some '-' then all.take (all.length - amount.count) else all.take amount.count).flatten

def lastOf (isLines : Bool) (amount : Amount) (s : List Char) : List Char :=
  let all := units isLines s
  (if amount.sign = some '+' then all.drop (amount.count - 1) else all.drop (all.length - amount.count)).flatten

/-- One end of a text: ten lines of it, unless another amount is asked for. -/
def endOf (tool : String) (part : Bool → Amount → List Char → List Char) : Tool := fun files arguments input =>
  withOptions tool 1 "q" "nc" (withLineCount arguments) input fun options =>
    let (letter, value) := (options.letters.reverse.find? (·.1 ≠ 'q')).getD ('n', "10")
    match Amount.ofText? value.toList with
    | some amount => filter (opening tool) files options.operands input (part (letter = 'n') amount)
    | none =>
      let unit := if letter = 'n' then "lines" else "bytes"
      .complaining 1 [s!"{tool}: invalid number of {unit}: '" ++ value ++ "'"] input

def head : Tool := endOf "head" firstOf

def tail : Tool := endOf "tail" lastOf

def tac : Tool := fun files arguments input =>
  withOptions "tac" 1 "" "" arguments input fun options =>
    filter (fun path reason => "tac: failed to open '" ++ path ++ s!"' for reading: {reason}") files options.operands
      input fun s => (lines s).reverse.flatten

def rev : Tool := fun files arguments input =>
  withOptions "rev" 1 "" "" arguments input fun options =>
    filter (fun path reason => s!"rev: cannot open {path}: {reason}") files options.operands input fun s =>
      (lines s).flatMap fun line => (withoutEnd line).reverse ++ line.drop (withoutEnd line).length

structure Decimal where
  negative : Bool
  whole : Nat
  places : List Char

namespace Decimal

def ofText (s : List Char) : Decimal :=
  let s := s.dropWhile fun c => c = ' ' || c = '\t'
  let (negative, s) := if s.head? = some '-' then (true, s.drop 1) else (false, s)
  let whole := s.takeWhile Char.isDigit
  let places := match s.drop whole.length with
    | '.' :: rest => rest.takeWhile Char.isDigit
    | _ => []
  ⟨negative, (Text.ofDigits 10 whole).getD 0, places⟩

def scaled (places : Nat) (d : Decimal) : Int :=
  let digits := d.places ++ List.replicate (places - d.places.length) '0'
  let n : Int := d.whole * Nat.pow 10 places + (Text.ofDigits 10 digits).getD 0
  if d.negative then -n else n

def compare (a b : Decimal) : Ordering :=
  let places := max a.places.length b.places.length
  Ord.compare (a.scaled places) (b.scaled places)

end Decimal

def compareChars (a b : List Char) : Ordering := compareOfLessAndEq (a.map Char.toNat) (b.map Char.toNat)

def withEnds (found : List (List Char)) : List Char := found.flatMap (· ++ ['\n'])

def sort : Tool := fun files arguments input =>
  withOptions "sort" 2 "nru" "" arguments input fun options =>
    let byChars (a b : List Char) : Ordering := if options.has 'n' && options.has 'u' then .eq else compareChars a b
    let byNumbers (a b : List Char) : Ordering :=
      if options.has 'n' then (Decimal.ofText a).compare (Decimal.ofText b) else .eq
    let order (a b : List Char) : Ordering :=
      let order := (byNumbers a b).then (byChars a b)
      if options.has 'r' then order.swap else order
    filter (fun path reason => s!"sort: cannot read: {path}: {reason}") files options.operands input fun s =>
      let sorted := (bareLines s).mergeSort fun a b => order a b ≠ .gt
      withEnds (if options.has 'u' then (sorted.splitBy fun a b => order a b = .eq).filterMap List.head? else sorted)

def leftPadded (width : Nat) (s : String) : List Char := List.replicate (width - s.length) ' ' ++ s.toList

def uniq : Tool := fun files arguments input =>
  withOptions "uniq" 1 "cdu" "" arguments input fun options =>
    filter (named "uniq") files options.operands input fun s =>
      let groups := ((bareLines s).splitBy fun a b => a = b).filter fun group =>
        !(options.has 'd' && group.length < 2) && !(options.has 'u' && 1 < group.length)
      let count (group : List (List Char)) : List Char :=
        if options.has 'c' then leftPadded 7 (toString group.length) ++ [' '] else []
      withEnds (groups.map fun group => count group ++ group.headD [])

def wordCount (s : List Char) : Nat := ((s.splitBy fun a b => isSpace a = isSpace b).filter fun word =>
  !word.head?.any isSpace).length

def wc : Tool := fun files arguments input =>
  withOptions "wc" 1 "lwc" "" arguments input fun options =>
    let isWanted (letter : Char) : Bool := options.has letter || options.letters.isEmpty
    filter (named "wc") files options.operands input fun s =>
      let counts := [('l', s.count '\n'), ('w', wordCount s), ('c', s.length)].filter (isWanted ·.1)
      let width := if counts.length = 1 then 1 else 7
      withEnds [List.intercalate [' '] (counts.map fun (_, n) => leftPadded width (toString n))]

/-- The places from one to another, counted from one; without the second all from the first. -/
def span? (s : String) : Option (Nat × Option Nat) :=
  match s.splitOn "-" with
  | [one] => (decimal? one.toList).map fun n => (n, some n)
  | [first, ""] => (decimal? first.toList).map fun n => (n, none)
  | [first, last] => do pure ((decimal? first.toList).getD 1, some (← decimal? last.toList))
  | _ => none

def cut : Tool := fun files arguments input =>
  withOptions "cut" 1 "s" "bcdf" arguments input fun options =>
    let delimiter := (options.value? 'd').getD "\t"
    match options.letters.find? fun found => found.1 ∈ ['b', 'c', 'f'] with
    | none => refusal "cut" 1 "you must specify a list of bytes, characters, or fields" input
    | some (letter, list) =>
      match (list.splitOn ",").mapM span? with
      | none => refusal "cut" 1 ("invalid field value '" ++ list ++ "'") input
      | some spans =>
        let keep {α : Type} (parts : List α) : List α :=
          (parts.zipIdx 1).filterMap fun (part, place) =>
            if spans.any fun (first, last) => first ≤ place && last.all (place ≤ ·) then some part else none
        let kept (line : List Char) : Option (List Char) :=
          if letter ≠ 'f' then some (keep line)
          else
            match (String.ofList line).splitOn delimiter with
            | [_] => if options.has 's' then none else some line
            | parts => some (String.intercalate delimiter (keep parts)).toList
        filter (named "cut") files options.operands input fun s => withEnds ((bareLines s).filterMap kept)

end FormatAudit.Shell.Tool
