import FormatAudit.Json.StringToken
import FormatAudit.Json.Numeral

/-!
What a text holds, read as JSON up to the first place where it is not. Nothing is lost: a value in
which reading stops is kept as far as it goes, together with the fault, and so is every value around
it. A text is JSON exactly when no fault stopped the reading and nothing comes after the value.
-/

namespace FormatAudit

/-- A value as far as it could be read. `stop` is the fault that ended a list or an object early. -/
inductive Json
  | null
  | boolean (value : Bool)
  | number (numeral : Json.Numeral)
  | text (token : Json.StringToken)
  | array (items : List Json) (stop : Option Json.Fault)
  | object (members : List (Json.StringToken × Json)) (stop : Option Json.Fault)
  | broken (fault : Json.Fault)
  deriving Repr

namespace Json

def stop? : Json → Option Fault
  | .broken fault => some fault
  | .text token => token.stop
  | .array _ stop => stop
  | .object _ stop => stop
  | _ => none

def isSpace (c : Char) : Bool := c = ' ' || c = '\n' || c = '\t' || c = '\r'

def skipSpace (s : List Char) : List Char := s.dropWhile isSpace

theorem length_skipSpace_le (s : List Char) : (skipSpace s).length ≤ s.length :=
  (List.dropWhile_sublist _).length_le

theorem length_of_skipSpace {s rest : List Char} {c : Char} (start : skipSpace s = c :: rest) :
    rest.length < s.length := by
  have := length_skipSpace_le s
  rw [start, List.length_cons] at this
  omega

abbrev Rest (s : List Char) := { rest : List Char // rest.length < s.length }

def Rest.widen {s t : List Char} (shorter : t.length ≤ s.length) (rest : Rest t) : Rest s :=
  ⟨rest.1, Nat.lt_of_lt_of_le rest.2 shorter⟩

/-- A value read from the start of a text; there is no rest when reading stopped in it. -/
structure Reading (s : List Char) where
  value : Json
  rest : Option (Rest s)

structure ItemRun (s : List Char) where
  items : List Json
  stop : Option Fault
  rest : Option (Rest s)

structure MemberRun (s : List Char) where
  members : List (StringToken × Json)
  stop : Option Fault
  rest : Option (Rest s)

def readLetters : List Char → (s : List Char) → Except Fault { rest : List Char // rest.length ≤ s.length }
  | [], s => .ok ⟨s, Nat.le_refl _⟩
  | _ :: _, [] => .error .wordUnfinished
  | letter :: letters, c :: s =>
    if letter = c then
      (fun rest => ⟨rest.1, Nat.le_succ_of_le rest.2⟩) <$> readLetters letters s
    else .error .wordMisspelt

def readWord (letters : String) (value : Json) {s tail : List Char} (shorter : tail.length < s.length) : Reading s :=
  match readLetters letters.toList tail with
  | .ok rest => ⟨value, some ⟨rest.1, Nat.lt_of_le_of_lt rest.2 shorter⟩⟩
  | .error fault => ⟨.broken fault, none⟩

def readString {s tail : List Char} (shorter : tail.length < s.length) : StringToken × Option (Rest s) :=
  let (token, _) := StringToken.scan tail
  (token, if token.stop.isNone then
      some ⟨(StringToken.scan tail).2, Nat.lt_of_le_of_lt (StringToken.length_scan_le tail) shorter⟩
    else none)

def readNumber {s tail : List Char} (shorter : tail.length ≤ s.length) : Reading s :=
  match scanned : Numeral.scan tail with
  | .ok (numeral, rest) =>
      ⟨.number numeral, some ⟨rest, Nat.lt_of_lt_of_le (Numeral.length_scan scanned) shorter⟩⟩
  | .error fault => ⟨.broken fault, none⟩

mutual

def readValue (s : List Char) : Reading s :=
  match start : skipSpace s with
  | [] => ⟨.broken .valueMissing, none⟩
  | c :: rest =>
    have shorter := length_of_skipSpace start
    if c = 'n' then readWord "ull" .null shorter
    else if c = 't' then readWord "rue" (.boolean true) shorter
    else if c = 'f' then readWord "alse" (.boolean false) shorter
    else if c = '"' then
      let (token, rest) := readString shorter
      ⟨.text token, rest⟩
    else if c = '[' then
      let run := readItems rest true
      ⟨.array run.items run.stop, run.rest.map (.widen (Nat.le_of_lt shorter))⟩
    else if c = '\x7b' then
      let run := readMembers rest true
      ⟨.object run.members run.stop, run.rest.map (.widen (Nat.le_of_lt shorter))⟩
    else if c = '-' ∨ c.isDigit then readNumber (length_skipSpace_le s)
    else ⟨.broken .valueUnknown, none⟩
termination_by (s.length, 0)

def readItem (s : List Char) : ItemRun s :=
  let reading := readValue s
  match reading.rest with
  | none => ⟨[reading.value], reading.value.stop?, none⟩
  | some rest =>
    let run := readItems rest.1 false
    ⟨reading.value :: run.items, run.stop, run.rest.map (.widen (Nat.le_of_lt rest.2))⟩
termination_by (s.length, 1)

def readItems (s : List Char) (first : Bool) : ItemRun s :=
  match start : skipSpace s with
  | [] => ⟨[], some .listUnfinished, none⟩
  | c :: rest =>
    have shorter := length_of_skipSpace start
    if c = ']' then ⟨[], none, some ⟨rest, shorter⟩⟩
    else if first then readItem s
    else if c = ',' then
      match skipSpace rest with
      | [] => ⟨[.broken .valueMissing], some .valueMissing, none⟩
      | ']' :: _ => ⟨[], some .listEndsInComma, none⟩
      | _ =>
        let run := readItem rest
        ⟨run.items, run.stop, run.rest.map (.widen (Nat.le_of_lt shorter))⟩
    else ⟨[], some .listUnseparated, none⟩
termination_by (s.length, 2)

def readMember (s : List Char) : MemberRun s :=
  let token := (StringToken.scan s).1
  let broken (fault : Fault) : MemberRun s := ⟨[(token, .broken fault)], some fault, none⟩
  match token.stop with
  | some fault => broken fault
  | none =>
    match start : skipSpace (StringToken.scan s).2 with
    | [] => broken .objectUnfinished
    | c :: rest =>
      have shorter := Nat.lt_of_lt_of_le (length_of_skipSpace start) (StringToken.length_scan_le s)
      if c = ':' then
        let reading := readValue rest
        match reading.rest with
        | none => ⟨[(token, reading.value)], reading.value.stop?, none⟩
        | some after =>
          have shorter := Nat.lt_trans after.2 shorter
          let run := readMembers after.1 false
          ⟨(token, reading.value) :: run.members, run.stop, run.rest.map (.widen (Nat.le_of_lt shorter))⟩
      else broken .colonMissing
termination_by (s.length, 1)

def readMembers (s : List Char) (first : Bool) : MemberRun s :=
  match start : skipSpace s with
  | [] => ⟨[], some .objectUnfinished, none⟩
  | c :: rest =>
    have shorter := length_of_skipSpace start
    if c = '\x7d' then ⟨[], none, some ⟨rest, shorter⟩⟩
    else if first then
      if c = '"' then
        let run := readMember rest
        ⟨run.members, run.stop, run.rest.map (.widen (Nat.le_of_lt shorter))⟩
      else ⟨[], some .keyNotString, none⟩
    else if c = ',' then
      match again : skipSpace rest with
      | [] => ⟨[], some .objectUnfinishedAfterComma, none⟩
      | '\x7d' :: _ => ⟨[], some .objectEndsInComma, none⟩
      | '"' :: tail =>
        have shorter := Nat.lt_trans (length_of_skipSpace again) shorter
        let run := readMember tail
        ⟨run.members, run.stop, run.rest.map (.widen (Nat.le_of_lt shorter))⟩
      | _ => ⟨[], some .keyNotString, none⟩
    else ⟨[], some .objectUnseparated, none⟩
termination_by (s.length, 2)

end

/-- The value at the start of a text, and whether more than space comes after it. -/
structure Document where
  root : Json
  trailing : Bool

def read (s : String) : Document :=
  let reading := readValue s.toList
  ⟨reading.value, match reading.rest with
    | some rest => skipSpace rest.1 ≠ []
    | none => false⟩

end Json

end FormatAudit
