import FormatAudit.Text.Blank

/-! Blanks are cut from the two ends of a text, and from nowhere else. -/

namespace FormatAudit.Text

theorem trimEnd_append (s rest : List Char) :
    trimEnd (s ++ rest) = if trimEnd rest = [] then trimEnd s else s ++ trimEnd rest := by
  simp only [trimEnd, List.reverse_append, List.dropWhile_append, List.isEmpty_iff, List.reverse_eq_nil_iff]
  split <;> simp

theorem trimEnd_cons (c : Char) (rest : List Char) :
    trimEnd (c :: rest) = if trimEnd rest = [] then trimEnd [c] else c :: trimEnd rest :=
  trimEnd_append [c] rest

theorem trimEnd_singleton (c : Char) : trimEnd [c] = if isBlank c then [] else [c] := trimEnd_append_singleton [] c

theorem prefix_trimEnd (s : List Char) : trimEnd s <+: s := by
  rw [trimEnd, ← List.reverse_suffix, List.reverse_reverse]
  exact List.dropWhile_suffix _

theorem not_blank_of_trimStart {s : List Char} {c : Char} (first : c ∈ (trimStart s).head?) : isBlank c = false := by
  have := List.head?_dropWhile_not isBlank s
  rw [show s.dropWhile isBlank = trimStart s from rfl, first] at this
  exact this

theorem not_blank_of_trimEnd {s : List Char} {c : Char} (last : c ∈ (trimEnd s).getLast?) : isBlank c = false := by
  rw [trimEnd, List.getLast?_reverse] at last
  have := List.head?_dropWhile_not isBlank s.reverse
  rw [last] at this
  exact this

theorem trimEnd_of_not_blank {word : List Char} (visible : ∀ c ∈ word, isBlank c = false) :
    trimEnd word = word := by
  rw [trimEnd]
  cases shape : word.reverse with
  | nil => simpa using shape.symm
  | cons c rest =>
      have last := visible c (List.mem_reverse.mp (shape ▸ List.mem_cons_self))
      rw [List.dropWhile_cons, last, if_neg (by decide), ← shape, List.reverse_reverse]

/-- A text stays as it is that starts and ends with a word. -/
theorem trimChars_of_words {s start front word rest : List Char} (starts : s = start ++ rest) (ends : s = front ++ word)
    (first : start ≠ []) (last : word ≠ []) (visible : ∀ c ∈ start ++ word, isBlank c = false) :
      trimChars s = s := by
  obtain ⟨c, more, rfl⟩ := List.exists_cons_of_ne_nil first
  have cut : trimStart s = s := by
    rw [starts, trimStart, List.cons_append, List.dropWhile_cons, visible c (by simp), if_neg (by decide)]
  have kept := trimEnd_of_not_blank fun c member => visible c (List.mem_append_right _ member)
  rw [trimChars, cut, ends, trimEnd_append, kept, if_neg last]

theorem not_blank_of_trimChars {s : List Char} {c : Char}
    (outer : c ∈ (trimChars s).head? ∨ c ∈ (trimChars s).getLast?) : isBlank c = false := by
  rcases outer with first | last
  · obtain ⟨rest, whole⟩ := prefix_trimEnd (trimStart s)
    obtain ⟨tail, shape⟩ := List.head?_eq_some_iff.mp first
    rw [trimChars] at shape
    exact not_blank_of_trimStart (s := s) (by rw [← whole, shape]; rfl)
  · exact not_blank_of_trimEnd last

end FormatAudit.Text
