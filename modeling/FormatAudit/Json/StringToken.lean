import FormatAudit.Json.Fault
import FormatAudit.Text.Digit

/-!
String tokens. A scan cuts a token into characters and 16-bit units, the latter for its numbered
escapes; the value then pairs the surrogates among the units. A token that ends properly can still
have no value, and stepping over it does not ask for one.
-/

namespace FormatAudit.Json

inductive StringPiece
  | char (c : Char)
  | unit (n : Nat)
  deriving DecidableEq, Repr

structure StringToken where
  pieces : List StringPiece
  stop : Option Fault
  deriving DecidableEq, Repr

namespace StringToken

def cons (piece : StringPiece) (token : StringToken) : StringToken := { token with pieces := piece :: token.pieces }

def hexUnit (a b c d : Char) : Option Nat := do
  let a ← Text.hexDigit a
  let b ← Text.hexDigit b
  let c ← Text.hexDigit c
  let d ← Text.hexDigit d
  pure (((a * 16 + b) * 16 + c) * 16 + d)

def escaped : Char → Option Char
  | '"' => some '"'
  | '\\' => some '\\'
  | '/' => some '/'
  | 'b' => some '\x08'
  | 'f' => some '\x0c'
  | 'n' => some '\n'
  | 'r' => some '\r'
  | 't' => some '\t'
  | _ => none

/-- The fault of a numbered escape: fewer than four bytes are left, or they are not hex digits. -/
def hexFault (rest : List Char) : Fault :=
  if (rest.map Char.utf8Size).foldr (· + ·) 0 < 4 then .stringUnfinished else .escapeNotHex

def scan : List Char → StringToken × List Char
  | [] => (⟨[], some .stringUnfinished⟩, [])
  | '"' :: rest => (⟨[], none⟩, rest)
  | '\\' :: 'u' :: a :: b :: c :: d :: rest =>
    match hexUnit a b c d with
    | some n =>
      let (token, left) := scan rest
      (token.cons (.unit n), left)
    | none => (⟨[], some (hexFault (a :: b :: c :: d :: rest))⟩, rest)
  | '\\' :: 'u' :: rest => (⟨[], some (hexFault rest)⟩, rest)
  | ['\\'] => (⟨[], some .stringUnfinished⟩, [])
  | '\\' :: letter :: rest =>
    match escaped letter with
    | some c =>
      let (token, left) := scan rest
      (token.cons (.char c), left)
    | none => (⟨[], some .escapeUnknown⟩, rest)
  | c :: rest =>
    if c.toNat < 0x20 then (⟨[], some .controlCharacter⟩, rest)
    else
      let (token, left) := scan rest
      (token.cons (.char c), left)

theorem length_scan_le (s : List Char) : (scan s).2.length ≤ s.length := by
  fun_induction scan s <;> simp_all <;> omega

def isLeading (n : Nat) : Bool := 0xD800 ≤ n && n ≤ 0xDBFF

def isTrailing (n : Nat) : Bool := 0xDC00 ≤ n && n ≤ 0xDFFF

/-- What is wrong where the second half of a surrogate pair is due and the pieces end. -/
def unpaired : Option Fault → Fault
  | some .stringUnfinished => .stringUnfinished
  | some .escapeNotHex => .escapeNotHex
  | _ => .surrogateUnpaired

def chars (stop : Option Fault) : List StringPiece → Except Fault (List Char)
  | [] => match stop with
    | some fault => .error fault
    | none => .ok []
  | .char c :: rest => (c :: ·) <$> chars stop rest
  | .unit n :: rest =>
    if isTrailing n then .error .surrogateAlone
    else if isLeading n then
      match rest with
      | .unit m :: rest =>
        if isTrailing m then
          (Char.ofNat (0x10000 + (n - 0xD800) * 0x400 + (m - 0xDC00)) :: ·) <$> chars stop rest
        else .error .surrogateAlone
      | .char _ :: _ => .error .surrogateUnpaired
      | [] => .error (unpaired stop)
    else (Char.ofNat n :: ·) <$> chars stop rest

def value (token : StringToken) : Except Fault String := String.ofList <$> chars token.stop token.pieces

end StringToken

end FormatAudit.Json
