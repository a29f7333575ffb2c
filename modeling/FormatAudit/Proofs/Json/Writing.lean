import FormatAudit.Proofs.Json.Values

/-! Values written without spaces, and read back. Numbers and escapes are left out. -/

namespace FormatAudit.Json

def StringPiece.isPlain : StringPiece → Bool
  | .char c => 0x20 ≤ c.toNat && c ≠ '"' && c ≠ '\\'
  | .unit _ => false

def StringPiece.written : StringPiece → List Char
  | .char c => [c]
  | .unit _ => []

namespace StringToken

def plain (s : String) : StringToken := ⟨s.toList.map .char, none⟩

def isPlain (token : StringToken) : Bool := token.stop.isNone && token.pieces.all StringPiece.isPlain

def written (token : StringToken) : List Char := token.pieces.flatMap StringPiece.written ++ ['"']

@[simp] theorem value_plain (s : String) : (plain s).value = .ok s := by
  have chars (cs : List Char) : chars none (cs.map .char) = .ok cs := by
    induction cs with
    | nil => rfl
    | cons c rest ih => simp [StringToken.chars, ih, Functor.map, Except.map]
  simp [value, plain, chars, Functor.map, Except.map]

theorem scan_cons {c : Char} {rest : List Char} (plain : (StringPiece.char c).isPlain = true) :
    scan (c :: rest) = ((scan rest).1.cons (.char c), (scan rest).2) := by
  simp only [StringPiece.isPlain, Bool.and_eq_true, decide_eq_true_eq, ne_eq] at plain
  obtain ⟨⟨printed, quote⟩, slash⟩ := plain
  rw [scan]
  · rw [if_neg (by omega)]
  all_goals simp_all

theorem scan_written {token : StringToken} (plain : token.isPlain = true) (left : List Char) :
    scan (token.written ++ left) = (token, left) := by
  obtain ⟨pieces, stop⟩ := token
  simp only [isPlain, Bool.and_eq_true, Option.isNone_iff_eq_none, List.all_eq_true] at plain
  obtain ⟨rfl, plain⟩ := plain
  induction pieces with
  | nil => simp [written, scan]
  | cons piece rest ih =>
      obtain ⟨first, later⟩ := List.forall_mem_cons.mp plain
      cases piece with
      | unit n => simp [StringPiece.isPlain] at first
      | char c =>
          show scan (c :: (written ⟨rest, none⟩ ++ left)) = _
          rw [scan_cons first, ih later]
          rfl

end StringToken

mutual

/-- The value has neither numbers nor escapes, and no fault stopped the reading in it. -/
def isPlain : Json → Bool
  | .null => true
  | .boolean _ => true
  | .text token => token.isPlain
  | .array items stop => stop.isNone && plainItems items
  | .object members stop => stop.isNone && plainMembers members
  | _ => false

def plainItems : List Json → Bool
  | [] => true
  | item :: rest => item.isPlain && plainItems rest

def plainMembers : List (StringToken × Json) → Bool
  | [] => true
  | (key, value) :: rest => key.isPlain && value.isPlain && plainMembers rest

end

mutual

def written : Json → List Char
  | .null => ['n', 'u', 'l', 'l']
  | .boolean true => ['t', 'r', 'u', 'e']
  | .boolean false => ['f', 'a', 'l', 's', 'e']
  | .text token => '"' :: token.written
  | .array items _ => '[' :: writtenItems true items
  | .object members _ => '\x7b' :: writtenMembers true members
  | _ => []

/-- What follows an opening bracket, or an item if there was one already. -/
def writtenItems (first : Bool) : List Json → List Char
  | [] => [']']
  | item :: rest => (if first then [] else [',']) ++ item.written ++ writtenItems false rest

def writtenMembers (first : Bool) : List (StringToken × Json) → List Char
  | [] => ['\x7d']
  | (key, value) :: rest =>
    (if first then [] else [',']) ++ '"' :: key.written ++ ':' :: value.written ++ writtenMembers false rest

end

section

variable {s left after : List Char} {value : Json} {items : List Json} {members : List (StringToken × Json)}

/-- A value was read, and this is left of the text. -/
def Reading.Gives (reading : Reading s) (value : Json) (left : List Char) : Prop :=
  reading.value = value ∧ reading.rest.map Subtype.val = some left

def ItemRun.Gives (run : ItemRun s) (items : List Json) (left : List Char) : Prop :=
  run.items = items ∧ run.stop = none ∧ run.rest.map Subtype.val = some left

def MemberRun.Gives (run : MemberRun s) (members : List (StringToken × Json)) (left : List Char) : Prop :=
  run.members = members ∧ run.stop = none ∧ run.rest.map Subtype.val = some left

theorem readLetters_append (letters left : List Char) :
    (readLetters letters (letters ++ left)).map Subtype.val = .ok left := by
  induction letters with
  | nil => rfl
  | cons letter rest ih =>
      rw [List.cons_append, readLetters, if_pos rfl]
      cases read : readLetters rest (rest ++ left) with
      | error fault => simp [read, Except.map] at ih
      | ok found =>
          rw [read] at ih
          exact ih

theorem readWord_gives {letters : String} {tail : List Char} {shorter : tail.length < s.length}
    (spelt : (readLetters letters.toList tail).map Subtype.val = .ok left) :
    (readWord letters value shorter).Gives value left := by
  cases read : readLetters letters.toList tail with
  | error fault => simp [read, Except.map] at spelt
  | ok rest =>
      simp only [read, Except.map, Except.ok.injEq] at spelt
      simp only [readWord, read]
      exact ⟨rfl, congrArg some spelt⟩

theorem map_val_widen {t : List Char} (shorter : t.length ≤ s.length) (rest : Option (Rest t)) :
    (rest.map (Rest.widen shorter)).map Subtype.val = rest.map Subtype.val := by
  cases rest <;> rfl

theorem readValue_word {letter : Char} {letters : String}
    (word : (letter, letters, value) ∈ [('n', "ull", null), ('t', "rue", boolean true), ('f', "alse", boolean false)])
    (start : skipSpace s = letter :: (letters.toList ++ left)) : (readValue s).Gives value left := by
  simp only [List.mem_cons, Prod.mk.injEq, List.not_mem_nil, or_false] at word
  rw [readValue]
  split
  · simp_all
  · rename_i c tail startToo
    cases startToo.symm.trans start
    rcases word with ⟨rfl, rfl, rfl⟩ | ⟨rfl, rfl, rfl⟩ | ⟨rfl, rfl, rfl⟩ <;> simp only [Char.reduceEq,
      ↓reduceIte] <;>
      exact readWord_gives (readLetters_append _ left)

theorem readValue_text {token : StringToken} {rest : List Char} (start : skipSpace s = '"' :: rest)
    (scanned : StringToken.scan rest = (token, left)) (whole : token.stop = none) :
    (readValue s).Gives (.text token) left := by
  rw [readValue]
  split
  · simp_all
  · rename_i c tail startToo
    cases startToo.symm.trans start
    simp [readString, scanned, whole, Reading.Gives]

theorem readValue_array {rest : List Char} (start : skipSpace s = '[' :: rest)
    (inside : (readItems rest true).Gives items left) : (readValue s).Gives (.array items none) left := by
  obtain ⟨rfl, whole, closed⟩ := inside
  rw [readValue]
  split
  · simp_all
  · rename_i c tail startToo
    cases startToo.symm.trans start
    simp only [Char.reduceEq, ↓reduceIte, whole]
    exact ⟨rfl, (map_val_widen _ _).trans closed⟩

theorem readValue_object {rest : List Char} (start : skipSpace s = '{' :: rest)
    (inside : (readMembers rest true).Gives members left) : (readValue s).Gives (.object members none) left := by
  obtain ⟨rfl, whole, closed⟩ := inside
  rw [readValue]
  split
  · simp_all
  · rename_i c tail startToo
    cases startToo.symm.trans start
    simp only [Char.reduceEq, ↓reduceIte, whole]
    exact ⟨rfl, (map_val_widen _ _).trans closed⟩

theorem readItem_gives (first : (readValue s).Gives value left) (others : (readItems left false).Gives items after) :
    (readItem s).Gives (value :: items) after := by
  obtain ⟨rfl, left⟩ := first
  obtain ⟨rest, found, rfl⟩ := Option.map_eq_some_iff.mp left
  obtain ⟨rfl, whole, closed⟩ := others
  rw [readItem]
  simp only [found]
  exact ⟨rfl, whole, (map_val_widen _ _).trans closed⟩

theorem readItems_nil {first : Bool} (start : skipSpace s = ']' :: left) : (readItems s first).Gives [] left := by
  rw [readItems]
  split
  · simp_all
  · rename_i c tail startToo
    cases startToo.symm.trans start
    simp [ItemRun.Gives]

theorem readItems_first {c : Char} {rest : List Char} (start : skipSpace s = c :: rest) (more : c ≠ ']') :
    readItems s true = readItem s := by
  rw [readItems]
  split
  · simp_all
  · rename_i c tail startToo
    cases startToo.symm.trans start
    simp [more]

theorem readItems_next {c : Char} {rest tail : List Char} (start : skipSpace s = ',' :: rest)
    (next : skipSpace rest = c :: tail) (more : c ≠ ']') (inside : (readItem rest).Gives items left) :
    (readItems s false).Gives items left := by
  obtain ⟨rfl, whole, closed⟩ := inside
  rw [readItems]
  split
  · simp_all
  · rename_i c tail startToo
    cases startToo.symm.trans start
    simp only [Char.reduceEq, ↓reduceIte, Bool.false_eq_true]
    split
    · simp_all
    · rename_i startOfRest
      cases startOfRest.symm.trans next
      exact absurd rfl more
    · exact ⟨rfl, whole, (map_val_widen _ _).trans closed⟩

theorem readMember_gives {key : StringToken} {rest between : List Char} (scanned : StringToken.scan s = (key, between))
    (whole : key.stop = none) (colon : skipSpace between = ':' :: rest) (first : (readValue rest).Gives value left)
    (others : (readMembers left false).Gives members after) : (readMember s).Gives ((key, value) :: members) after := by
  obtain ⟨rfl, left⟩ := first
  obtain ⟨rest, found, rfl⟩ := Option.map_eq_some_iff.mp left
  obtain ⟨rfl, wholeToo, closed⟩ := others
  rw [readMember]
  simp only [scanned, whole]
  split
  · simp_all
  · rename_i c tail startToo
    simp only [scanned] at startToo
    cases startToo.symm.trans colon
    simp only [↓reduceIte, found]
    exact ⟨rfl, wholeToo, (map_val_widen _ _).trans closed⟩

theorem readMembers_nil {first : Bool} (start : skipSpace s = '}' :: left) :
    (readMembers s first).Gives [] left := by
  rw [readMembers]
  split
  · simp_all
  · rename_i c tail startToo
    cases startToo.symm.trans start
    simp [MemberRun.Gives]

theorem readMembers_first {rest : List Char} (start : skipSpace s = '"' :: rest)
    (inside : (readMember rest).Gives members left) : (readMembers s true).Gives members left := by
  obtain ⟨rfl, whole, closed⟩ := inside
  rw [readMembers]
  split
  · simp_all
  · rename_i c tail startToo
    cases startToo.symm.trans start
    simp only [Char.reduceEq, ↓reduceIte]
    exact ⟨rfl, whole, (map_val_widen _ _).trans closed⟩

theorem readMembers_next {rest tail : List Char} (start : skipSpace s = ',' :: rest)
    (next : skipSpace rest = '"' :: tail)
    (inside : (readMember tail).Gives members left) : (readMembers s false).Gives members left := by
  obtain ⟨rfl, whole, closed⟩ := inside
  rw [readMembers]
  split
  · simp_all
  · rename_i c tail startToo
    cases startToo.symm.trans start
    simp only [Char.reduceEq, ↓reduceIte, Bool.false_eq_true]
    split
    · simp_all
    · simp_all
    · rename_i again
      cases again.symm.trans next
      exact ⟨rfl, whole, (map_val_widen _ _).trans closed⟩
    · simp_all

end

theorem skipSpace_cons {c : Char} {rest : List Char} (solid : isSpace c = false) : skipSpace (c :: rest) = c :: rest :=
  List.dropWhile_cons_of_neg (by simp [solid])

theorem written_head {value : Json} (plain : value.isPlain = true) :
    ∃ c rest, value.written = c :: rest ∧ isSpace c = false ∧ c ≠ ']' := by
  cases value with
  | null => exact ⟨_, _, rfl, by decide, by decide⟩
  | boolean b => cases b <;> exact ⟨_, _, rfl, by decide, by decide⟩
  | text token => exact ⟨_, _, rfl, by decide, by decide⟩
  | array items stop => exact ⟨_, _, rfl, by decide, by decide⟩
  | object members stop => exact ⟨_, _, rfl, by decide, by decide⟩
  | _ => simp [isPlain] at plain

mutual

/-- Reading takes a written value from the start of a text, whatever comes after it. -/
theorem readValue_written : ∀ (value : Json), value.isPlain = true → ∀ left,
    (readValue (value.written ++ left)).Gives value left
  | .null, _, _ => readValue_word (.head _) rfl
  | .boolean true, _, _ => readValue_word (.tail _ (.head _)) rfl
  | .boolean false, _, _ => readValue_word (.tail _ (.tail _ (.head _))) rfl
  | .text token, plain, left => by
      have whole : token.stop = none := by simp_all [isPlain, StringToken.isPlain]
      exact readValue_text rfl (StringToken.scan_written plain left) whole
  | .array items stop, plain, left => by
      simp only [isPlain, Bool.and_eq_true, Option.isNone_iff_eq_none] at plain
      obtain ⟨rfl, plain⟩ := plain
      exact readValue_array rfl (readItems_written items plain true left)
  | .object members stop, plain, left => by
      simp only [isPlain, Bool.and_eq_true, Option.isNone_iff_eq_none] at plain
      obtain ⟨rfl, plain⟩ := plain
      exact readValue_object rfl (readMembers_written members plain true left)
  | .number _, plain, _ | .broken _, plain, _ => by simp [isPlain] at plain

theorem readItems_written : ∀ (items : List Json), plainItems items = true → ∀ first left,
    (readItems (writtenItems first items ++ left) first).Gives items left
  | [], _, _, _ => readItems_nil rfl
  | item :: rest, plain, first, left => by
      rw [plainItems, Bool.and_eq_true] at plain
      have inside := readItem_gives (readValue_written item plain.1 _) (readItems_written rest plain.2 false left)
      obtain ⟨c, tail, head, solid, more⟩ := written_head plain.1
      have start : skipSpace (item.written ++ (writtenItems false rest ++ left)) =
          c :: (tail ++ (writtenItems false rest ++ left)) := by
        rw [head]
        exact skipSpace_cons solid
      have text : writtenItems first (item :: rest) ++ left = (if first then [] else [',']) ++
          (item.written ++ (writtenItems false rest ++ left)) := by
        simp [writtenItems]
      rw [text]
      cases first with
      | true =>
          rw [if_pos rfl, List.nil_append, readItems_first start more]
          exact inside
      | false => exact readItems_next rfl start more inside

theorem readMembers_written : ∀ (members : List (StringToken × Json)), plainMembers members = true →
    ∀ first left,
    (readMembers (writtenMembers first members ++ left) first).Gives members left
  | [], _, _, _ => readMembers_nil rfl
  | (key, value) :: rest, plain, first, left => by
      simp only [plainMembers, Bool.and_eq_true] at plain
      obtain ⟨⟨keyPlain, valuePlain⟩, restPlain⟩ := plain
      have whole : key.stop = none := by simp_all [StringToken.isPlain]
      have inside : (readMember (key.written ++ ':' :: (value.written ++ (writtenMembers false rest ++ left)))).Gives
          ((key, value) :: rest) left :=
        readMember_gives (StringToken.scan_written keyPlain _) whole rfl (readValue_written value valuePlain _)
          (readMembers_written rest restPlain false left)
      have text : writtenMembers first ((key, value) :: rest) ++ left = (if first then [] else [',']) ++
          '"' :: (key.written ++ ':' :: (value.written ++ (writtenMembers false rest ++ left))) := by
        simp [writtenMembers]
      rw [text]
      cases first with
      | true => exact readMembers_first rfl inside
      | false => exact readMembers_next rfl rfl inside

end

theorem read_of_gives {s : String} {value : Json} (gives : (readValue s.toList).Gives value []) :
    read s = ⟨value, false⟩ := by
  obtain ⟨same, ended⟩ := gives
  obtain ⟨rest, found, empty⟩ := Option.map_eq_some_iff.mp ended
  simp [read, same, found, empty, skipSpace]

theorem read_written {value : Json} (plain : value.isPlain = true) {s : String} (text : s.toList = value.written) :
    read s = ⟨value, false⟩ := by
  refine read_of_gives ?_
  have gives := readValue_written value plain []
  rwa [List.append_nil, ← text] at gives

def plainly (named : Fields Json) : List (StringToken × Json) := named.map fun member => (.plain member.1, member.2)

theorem named_plainly (named : Fields Json) : Named (plainly named) named := by
  rw [Named, plainly, List.forall₂_map_left_iff, List.forall₂_same]
  exact fun member _ => ⟨StringToken.value_plain member.1, rfl⟩

theorem isText_plain (s : String) : (Json.text (.plain s)).IsText s := ⟨_, rfl, StringToken.value_plain s⟩

end FormatAudit.Json
