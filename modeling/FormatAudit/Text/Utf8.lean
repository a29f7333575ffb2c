/-!
Reading bytes as UTF-8 text. The bytes are cut into pieces, each a character, a longest run that
starts a character and cannot go on, or a character that the end of the bytes cuts short.
-/

namespace FormatAudit.Text

inductive Utf8Piece
  | char (c : Char) (width : Nat)
  | invalid (width : Nat)
  | incomplete (width : Nat)

/-- What keeps bytes from being UTF-8, with the index of the first byte at fault. -/
inductive Utf8Fault
  | invalid (width index : Nat)
  | incomplete (index : Nat)
  deriving DecidableEq

def Utf8Fault.message : Utf8Fault → String
  | .invalid width index => s!"invalid utf-8 sequence of {width} bytes from index {index}"
  | .incomplete index => s!"incomplete utf-8 byte sequence from index {index}"

namespace Utf8

def isTail (b : UInt8) : Bool := 0x80 ≤ b && b ≤ 0xBF

/-- For a leading byte of a longer character: how many bytes follow, the range that the first of
them is in, and the bits that the leading byte gives. -/
def lead (b : UInt8) : Option (Nat × UInt8 × UInt8 × Nat) :=
  if 0xC2 ≤ b && b ≤ 0xDF then some (1, 0x80, 0xBF, b.toNat - 0xC0)
  else if b == 0xE0 then some (2, 0xA0, 0xBF, 0)
  else if b == 0xED then some (2, 0x80, 0x9F, 0xD)
  else if 0xE1 ≤ b && b ≤ 0xEF then some (2, 0x80, 0xBF, b.toNat - 0xE0)
  else if b == 0xF0 then some (3, 0x90, 0xBF, 0)
  else if 0xF1 ≤ b && b ≤ 0xF3 then some (3, 0x80, 0xBF, b.toNat - 0xF0)
  else if b == 0xF4 then some (3, 0x80, 0x8F, 4)
  else none

def tails : Nat → Nat → Nat → List UInt8 → Utf8Piece
  | 0, width, bits, _ => .char (Char.ofNat bits) width
  | _ + 1, width, _, [] => .incomplete width
  | owed + 1, width, bits, b :: rest =>
    if isTail b then tails owed (width + 1) (bits * 64 + (b.toNat - 0x80)) rest else .invalid width

def head (b : UInt8) (rest : List UInt8) : Utf8Piece :=
  if b < 0x80 then .char (Char.ofNat b.toNat) 1
  else match lead b with
    | none => .invalid 1
    | some (owed, low, high, bits) =>
      match rest with
      | [] => .incomplete 1
      | second :: rest =>
        if low ≤ second && second ≤ high then
          tails (owed - 1) 2 (bits * 64 + (second.toNat - 0x80)) rest
        else .invalid 1

end Utf8

def Utf8Piece.width : Utf8Piece → Nat
  | .char _ width | .invalid width | .incomplete width => width

def Utf8Piece.toChar : Utf8Piece → Char
  | .char c _ => c
  | _ => Char.ofNat 0xFFFD

def utf8Pieces : List UInt8 → List Utf8Piece
  | [] => []
  | b :: rest =>
    let piece := Utf8.head b rest
    piece :: utf8Pieces (rest.drop (piece.width - 1))
termination_by bytes => bytes.length
decreasing_by simp only [List.length_drop, List.length_cons]; omega

def utf8Chars (index : Nat) : List Utf8Piece → Except Utf8Fault (List Char)
  | [] => .ok []
  | .char c width :: rest => (c :: ·) <$> utf8Chars (index + width) rest
  | .invalid width :: _ => .error (.invalid width index)
  | .incomplete _ :: _ => .error (.incomplete index)

def ofUtf8 (bytes : List UInt8) : Except Utf8Fault String :=
  String.ofList <$> utf8Chars 0 (utf8Pieces bytes)

def ofUtf8Lossy (bytes : List UInt8) : String :=
  String.ofList ((utf8Pieces bytes).map (·.toChar))

def toUtf8 (s : String) : List UInt8 := s.toUTF8.data.toList

end FormatAudit.Text
