import FormatAudit.Proofs.Text.Blank
import FormatAudit.Proofs.Text.LineEnds

/-! Texts are cut into lines at their line feeds. Joining line ends and cutting blanks from the end of a text do not
get in each other's way. -/

namespace FormatAudit.Text

theorem splitLines_ne_nil (s : List Char) : splitLines s ≠ [] := by
  cases s with
  | nil => simp [splitLines]
  | cons c rest =>
      rw [splitLines]
      split
      · simp
      · split <;> simp

theorem splitLines_append {line : List Char} (feedless : '\n' ∉ line) (rest : List Char) :
    splitLines (line ++ '\n' :: rest) = line :: splitLines rest := by
  induction line with
  | nil => rfl
  | cons c line ih =>
      simp only [List.mem_cons, not_or] at feedless
      rw [List.cons_append, splitLines, if_neg (Ne.symm feedless.1), ih feedless.2]

theorem splitLines_lines {lines : List (List Char)} (feedless : ∀ line ∈ lines, '\n' ∉ line) (rest : List Char) :
    splitLines (lines.flatMap (· ++ ['\n']) ++ rest) = lines ++ splitLines rest := by
  induction lines with
  | nil => rfl
  | cons line lines ih =>
      rw [List.flatMap_cons, List.append_assoc, List.append_assoc, List.singleton_append,
        splitLines_append (feedless line (by simp)), ih fun other member => feedless other (by simp [member]),
        List.cons_append]

theorem joinLineEnds_append {s rest : List Char} (apart : rest.head? ≠ some '\n') :
    joinLineEnds (s ++ rest) = joinLineEnds s ++ joinLineEnds rest := by
  fun_induction joinLineEnds s with
  | case1 s ih => rw [List.cons_append, List.cons_append, joinLineEnds, ih, List.cons_append]
  | case2 c s other ih =>
      rw [List.cons_append, joinLineEnds_cons, ih, List.cons_append]
      rintro ⟨rfl, feed⟩
      cases s with
      | nil => exact apart feed
      | cons d s =>
          obtain rfl : d = '\n' := Option.some.inj feed
          exact other s rfl rfl
  | case3 => rfl

theorem joinLineEnds_eq_nil_iff {s : List Char} : joinLineEnds s = [] ↔ s = [] := by
  rw [joinLineEnds.eq_def]
  split <;> simp

theorem joinLineEnds_feed (s : List Char) : joinLineEnds ('\n' :: s) = '\n' :: joinLineEnds s :=
  joinLineEnds_cons fun crlf => by cases crlf.1

theorem trimEnd_joinLineEnds (s : List Char) : trimEnd (joinLineEnds s) = joinLineEnds (trimEnd s) := by
  fun_induction joinLineEnds s with
  | case1 s ih =>
      rw [trimEnd_cons, ih, trimEnd_cons '\r', trimEnd_cons '\n' s]
      simp only [joinLineEnds_eq_nil_iff]
      split
      · rfl
      · simp [joinLineEnds]
  | case2 c s other ih =>
      rw [trimEnd_cons, ih, trimEnd_cons c s]
      simp only [joinLineEnds_eq_nil_iff]
      split
      · rw [trimEnd_singleton]
        split
        · rfl
        · rw [joinLineEnds_cons (by simp)]
          rfl
      · rw [joinLineEnds_cons]
        rintro ⟨rfl, feed⟩
        obtain ⟨tail, shape⟩ := List.head?_eq_some_iff.mp feed
        obtain ⟨rest, whole⟩ := prefix_trimEnd s
        rw [shape] at whole
        exact other (tail ++ rest) rfl whole.symm
  | case3 => rfl

/-- Joined line ends stay as they are, unless a carriage return stood before one of them. -/
theorem joinLineEnds_joinLineEnds {s : List Char} (single : ¬['\r', '\r', '\n'] <:+: s) :
    joinLineEnds (joinLineEnds s) = joinLineEnds s :=
  joinLineEnds_of_plain (mt crlf_infix_joinLineEnds_iff.mp single)

end FormatAudit.Text
