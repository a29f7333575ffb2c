import FormatAudit.Proofs.Decoding.Places

/-! Integers in JSON texts. One that fits 64 bits with a sign is read as it is, wherever it stands, and one that fits
64 bits only without a sign is refused. Those that fit neither way are read as floats, so they can be confused. -/

namespace FormatAudit.Decoder

theorem run_literal {α : Type} {decode : Decoder α} {ofInteger : Int → α} {ofFloat : Binary64 → α}
    (reads : ∀ room numeral, decode room (.number numeral) = number ofInteger ofFloat numeral) (negative : Bool)
    (n : Nat) : run decode (.ofList (Json.Numeral.literal negative n)) =
      readInteger ofInteger ofFloat (.ofInteger negative n) := by
  rw [run, Json.read_literal, ← number_of_isInteger _ _ (Json.Numeral.isInteger_ofInteger negative n), ← reads]
  cases decode maxOpen (.number (.ofInteger negative n)) <;> rfl

theorem run_tree_literal (negative : Bool) (n : Nat) : run tree (.ofList (Json.Numeral.literal negative n)) =
    readInteger .integer .float (.ofInteger negative n) :=
  run_literal (fun _ _ => by simp only [tree]) negative n

theorem run_setting_literal (negative : Bool) (n : Nat) : run setting (.ofList (Json.Numeral.literal negative n)) =
    readInteger .integer .float (.ofInteger negative n) :=
  run_literal (fun _ _ => by simp only [setting]) negative n

theorem run_literal_of_float (negative : Bool) (n : Nat) {x : Binary64}
    (neither : ¬(Json.Numeral.ofInteger negative n).IsExact ∧ ¬(Json.Numeral.ofInteger negative n).IsUnsigned)
    (float : (Json.Numeral.ofInteger negative n).float = .ok x) :
    run tree (.ofList (Json.Numeral.literal negative n)) = .ok (.float x) := by
  rw [run_tree_literal, readInteger, if_neg neither.1, if_neg neither.2, float]
  rfl

section

variable {text other : String} {t u : Tree} {path : List Selector} {numeral : Json.Numeral}

theorem integer_at?_of_run (read : run tree text = .ok t) (whole : numeral.IsInteger)
    (held : (Json.read text).root.at? path = some (.number numeral)) :
    ∃ u, t.at? path = some u ∧ readInteger .integer .float numeral = .ok u := by
  have places := rel_at?_of_tree path (run_eq_ok_iff_root.mp read).1
  rw [held, rel_some_left_iff] at places
  obtain ⟨u, inside, inner⟩ := places
  simp only [tree, number_of_isInteger _ _ whole] at inner
  exact ⟨u, inside, inner⟩

theorem exists_numeral_of_tree {room : Nat} {value : Json} {n : Int} (read : tree room value = .ok (.integer n)) :
    ∃ numeral, value = .number numeral ∧ numeral.IsInteger ∧ numeral.integer = n := by
  cases value with
  | number numeral =>
      simp only [tree] at read
      obtain ⟨_, stands, _, ⟨⟩⟩ | ⟨_, _, ⟨⟩⟩ := number_eq_ok_iff.mp read
      obtain ⟨whole, _, same⟩ := Json.Numeral.isInteger_of_value stands
      exact ⟨numeral, rfl, whole, same⟩
  | text token =>
      simp only [tree] at read
      obtain ⟨_, _, ⟨⟩⟩ := map_eq_ok_iff.mp read
  | array items stop => obtain ⟨_, _, _, ⟨⟩, _⟩ := exists_of_tree_array read
  | object members stop => obtain ⟨_, _, _, _, ⟨⟩, _⟩ := exists_of_tree_object read
  | _ => simp [tree] at read

theorem numeral_of_same (read : run tree text = .ok t) (readToo : run tree other = .ok u) (alike : t.same u = true)
    (whole : numeral.IsInteger) (exact : numeral.IsExact)
    (held : (Json.read text).root.at? path = some (.number numeral)) :
    ∃ numeral', (Json.read other).root.at? path = some (.number numeral') ∧ numeral'.IsInteger ∧
      numeral'.integer = numeral.integer := by
  obtain ⟨first, inside, taken⟩ := integer_at?_of_run read whole held
  rw [readInteger, if_pos exact] at taken
  cases taken
  obtain ⟨second, insideToo, alike⟩ := Tree.at?_of_same path alike inside
  have places := rel_at?_of_tree path (run_eq_ok_iff_root.mp readToo).1
  rw [insideToo, rel_some_right_iff] at places
  obtain ⟨inner, heldToo, inner_read⟩ := places
  cases second with
  | integer n =>
      obtain ⟨numeral', rfl, wholeToo, same⟩ := exists_numeral_of_tree inner_read
      have equal : numeral.integer = n := by simpa [Tree.same] using alike
      exact ⟨numeral', heldToo, wholeToo, same.trans equal.symm⟩
  | _ => simp [Tree.same] at alike

/-- How an integer is read that stands in a text: inside a tree or an option that was decoded, in a text with nothing
else, and next to other texts. Whether anything is decoded depends on all integers of the text. -/
theorem integers_decoded (whole : numeral.IsInteger) (held : (Json.read text).root.at? path = some (.number numeral)) :
    (∀ t, run tree text = .ok t → ∃ u, t.at? path = some u ∧ readInteger .integer .float numeral = .ok u) ∧
    (∀ found, run setting text = .ok found →
      ∃ u, found.toTree.at? path = some u ∧ readInteger .integer .float numeral = .ok u) ∧
    ((∃ t, run tree text = .ok t) ↔ HoldsTree (Json.read text)) ∧
    ((∃ found, run setting text = .ok found) ↔ (Json.read text).root.HasNoNull ∧ HoldsTree (Json.read text)) ∧
    (∀ negative n, text = .ofList (Json.Numeral.literal negative n) →
      numeral.integer = (if negative then -(n : Int) else n) ∧
        run tree text = readInteger .integer .float numeral ∧
          run setting text = readInteger .integer .float numeral) ∧
    (numeral.IsExact → ∀ t other u, run tree text = .ok t → run tree other = .ok u → t.same u = true →
      ∃ numeral', (Json.read other).root.at? path = some (.number numeral') ∧ numeral'.IsInteger ∧
        numeral'.integer = numeral.integer) := by
  refine ⟨?_, ?_, exists_run_tree_iff, ?_, ?_, ?_⟩
  · exact fun t read => integer_at?_of_run read whole held
  · exact fun found read => integer_at?_of_run (run_tree_of_setting read) whole held
  · rw [exists_run_setting_iff, exists_run_tree_iff]
  · rintro negative n rfl
    rw [Json.read_literal] at held
    cases Json.eq_of_at?_number held
    exact ⟨Json.Numeral.integer_ofInteger negative n, run_tree_literal negative n, run_setting_literal negative n⟩
  · exact fun exact t other u read readToo alike => numeral_of_same read readToo alike whole exact held

end

theorem read_sample :
    Json.read "[9223372036854775807]" = ⟨.array [.number (.ofInteger false 9223372036854775807)] none, false⟩ := by
  have shape : "[9223372036854775807]".toList = '[' :: "9223372036854775807]".toList := by decide +kernel
  have start : Json.skipSpace "9223372036854775807]".toList = '9' :: "223372036854775807]".toList := by decide +kernel
  have number : (Json.readValue "9223372036854775807]".toList).Gives
      (.number (.ofInteger false 9223372036854775807)) [']'] :=
        Json.readValue_number start (by decide) (by decide +kernel)
  refine Json.read_of_gives (Json.readValue_array (by rw [shape]; exact Json.skipSpace_cons rfl) ?_)
  rw [Json.readItems_first start (by decide)]
  exact Json.readItem_gives number (Json.readItems_nil rfl)

theorem sample_integers_decoded : ∃ t, run tree "[9223372036854775807]" = .ok t ∧
    t.at? [.index 0] = some (.integer 9223372036854775807) := by
  have held : (Json.read "[9223372036854775807]").root.at? [.index 0] =
      some (.number (.ofInteger false 9223372036854775807)) := by
    rw [read_sample]
    rfl
  obtain ⟨places, _, decodes, _⟩ :=
    integers_decoded (Json.Numeral.isInteger_ofInteger false 9223372036854775807) held
  have accepted : (Json.Numeral.ofInteger false 9223372036854775807).IsAccepted := ⟨by decide +kernel, _, rfl⟩
  obtain ⟨t, read⟩ : ∃ t, run tree "[9223372036854775807]" = .ok t := by
    refine decodes.mpr ?_
    rw [read_sample]
    refine ⟨rfl, by decide, ?_, ?_⟩
    · simp [Json.IsWhole, Json.IsWhole.wholeItems]
    · simpa [Json.numerals, Json.numerals.itemNumerals] using accepted
  obtain ⟨u, inside, taken⟩ := places t read
  cases taken
  exact ⟨t, read, inside⟩

/-- The least integer beyond 64 bits and the next one are read as one float, and a zero with a sign as a float too. -/
theorem integers_read_as_floats :
    run tree "18446744073709551616" = .ok (.float ⟨0x43F0000000000000⟩) ∧
    run tree "18446744073709551617" = .ok (.float ⟨0x43F0000000000000⟩) ∧
    run tree "-0" = .ok (.float (.zero true)) := by
  have least : "18446744073709551616" = String.ofList (Json.Numeral.literal false 18446744073709551616) := by
    decide +kernel
  have next : "18446744073709551617" = String.ofList (Json.Numeral.literal false 18446744073709551617) := by
    decide +kernel
  have zero : "-0" = String.ofList (Json.Numeral.literal true 0) := by decide +kernel
  rw [least, next, zero]
  refine ⟨?_, ?_, ?_⟩
  · exact run_literal_of_float false 18446744073709551616 (by decide +kernel) (by decide +kernel)
  · exact run_literal_of_float false 18446744073709551617 (by decide +kernel) (by decide +kernel)
  · exact run_literal_of_float true 0 (by decide +kernel) (by decide +kernel)

end FormatAudit.Decoder
