import FormatAudit.Files.Path
import Mathlib.Data.List.Basic
import Mathlib.Data.List.TakeWhile

/-! A path that a name was joined to leads to that name, and is otherwise the path that it was joined to. The extension
of a name is what follows its last dot. -/

namespace FormatAudit.Path

theorem pieces_ne_nil (s : List Char) : pieces s ≠ [] := by
  cases s with
  | nil => simp [pieces]
  | cons c rest =>
      rw [pieces]
      split
      · simp
      · split <;> simp

theorem pieces_cons {c : Char} (plain : c ≠ '/') (rest : List Char) :
    ∃ piece more, pieces rest = piece :: more ∧ pieces (c :: rest) = (c :: piece) :: more := by
  obtain ⟨piece, more, shape⟩ := List.exists_cons_of_ne_nil (pieces_ne_nil rest)
  exact ⟨piece, more, shape, by simp [pieces, plain, shape]⟩

theorem pieces_append_slash (base rest : List Char) : pieces (base ++ '/' :: rest) = pieces base ++ pieces rest := by
  induction base with
  | nil => simp [pieces]
  | cons c base ih =>
      by_cases slash : c = '/'
      · simp [pieces, slash, ih]
      · obtain ⟨piece, more, shape, whole⟩ := pieces_cons slash base
        rw [whole, List.cons_append, pieces, if_neg slash, ih, shape]
        rfl

theorem pieces_of_slashless {name : List Char} (slashless : '/' ∉ name) : pieces name = [name] := by
  induction name with
  | nil => rfl
  | cons c name ih =>
      simp only [List.mem_cons, not_or] at slashless
      rw [pieces, if_neg (Ne.symm slashless.1), ih slashless.2]

theorem slashless_of_mem_pieces {s piece : List Char} (member : piece ∈ pieces s) : '/' ∉ piece := by
  induction s generalizing piece with
  | nil => simp_all [pieces]
  | cons c rest ih =>
      by_cases slash : c = '/'
      · rw [pieces, if_pos slash, List.mem_cons] at member
        rcases member with rfl | member
        · exact List.not_mem_nil
        · exact ih member
      · obtain ⟨first, more, shape, whole⟩ := pieces_cons slash rest
        rw [shape] at ih
        rw [whole, List.mem_cons] at member
        rcases member with rfl | member
        · exact List.not_mem_cons_of_ne_of_not_mem (Ne.symm slash) (ih List.mem_cons_self)
        · exact ih (List.mem_cons_of_mem _ member)

theorem slashless_and_plain_of_mem {s name : String} (member : name ∈ (ofText s).components) (named : name ≠ ".") :
    '/' ∉ name.toList ∧ isPlain name.toList = true := by
  simp only [ofText, List.mem_append, List.mem_map, List.mem_filter] at member
  rcases member with dot | ⟨piece, ⟨present, plain⟩, rfl⟩
  · split at dot
    · exact absurd (List.mem_singleton.mp dot) named
    · cases dot
  · rw [String.toList_ofList]
    exact ⟨slashless_of_mem_pieces present, plain⟩

/-- A component that is a dot stands at the start of a relative path. -/
theorem dot_notMem_of_absolute {s : String} (absolute : (ofText s).absolute = true) :
    "." ∉ (ofText s).components := by
  intro member
  simp only [ofText, List.mem_append, List.mem_map, List.mem_filter] at absolute member
  rcases member with dot | ⟨piece, ⟨_, plain⟩, same⟩
  · simp [absolute] at dot
  · have dot : piece = ['.'] := String.ofList_inj.mp same
    rw [dot] at plain
    exact absurd plain (by decide)

theorem head?_ne_of_slashless {name : List Char} (slashless : '/' ∉ name) : name.head? ≠ some '/' :=
  fun first => slashless (List.mem_of_mem_head? first)

theorem pieces_join (base : String) {name : String} (slashless : '/' ∉ name.toList) :
    ∃ above, pieces (join base name).toList = above ++ [name.toList] := by
  have notAbsolute := head?_ne_of_slashless slashless
  rw [join, if_neg notAbsolute]
  split
  · rename_i bare
    rcases bare with rfl | slash
    · exact ⟨[], by simp [pieces_of_slashless slashless]⟩
    · obtain ⟨start, shape⟩ := List.getLast?_eq_some_iff.mp slash
      refine ⟨pieces start, ?_⟩
      rw [String.toList_append, shape, List.append_assoc, List.singleton_append, pieces_append_slash,
        pieces_of_slashless slashless]
  · refine ⟨pieces base.toList, ?_⟩
    rw [String.toList_append, String.toList_append, List.append_assoc]
    exact (pieces_append_slash base.toList name.toList).trans (by rw [pieces_of_slashless slashless])

theorem join_ne_empty (base : String) {name : String} (named : name ≠ "") : join base name ≠ "" := by
  unfold join
  split
  · exact named
  · split <;> simp [named]

theorem isPlain_of_plain {name : String} (plain : name ≠ "" ∧ name ≠ "." ∧ name ≠ "..") :
    isPlain name.toList = true := by
  simp only [isPlain, Bool.and_eq_true, decide_eq_true_eq]
  exact ⟨fun empty => plain.1 (String.toList_inj.mp empty), fun dot => plain.2.1 (String.toList_inj.mp dot)⟩

theorem ofText_of_plain {name : String} (slashless : '/' ∉ name.toList) (plain : isPlain name.toList = true) :
    ofText name = ⟨false, [name]⟩ := by
  have notAbsolute := head?_ne_of_slashless slashless
  have noDot : name.toList ≠ ['.'] := by
    intro dot
    rw [dot] at plain
    exact absurd plain (by decide)
  simp [ofText, pieces_of_slashless slashless, plain, noDot, notAbsolute]

theorem fileName?_join (base : String) {name : String} (slashless : '/' ∉ name.toList)
    (plain : name ≠ "" ∧ name ≠ "." ∧ name ≠ "..") : fileName? (join base name) = some name := by
  obtain ⟨above, shape⟩ := pieces_join base slashless
  have last : (ofText (join base name)).components.getLast? = some name := by
    simp [ofText, shape, isPlain_of_plain plain]
  simp [fileName?, last, plain.2]

theorem fileName_join (base : String) {name : String} (slashless : '/' ∉ name.toList)
    (plain : name ≠ "" ∧ name ≠ "." ∧ name ≠ "..") : fileName (join base name) = name := by
  rw [fileName, fileName?_join base slashless plain, Option.getD_some]

/-- The components of a path depend on its pieces; those that are empty do not count. -/
theorem ofText_join_of_pieces {base name : String} (above : List (List Char))
    (first : (join base name).toList.head? = base.toList.head?)
    (shape : pieces (join base name).toList = above ++ [name.toList]) (nonempty : above ≠ [])
    (heads : above.head? = (pieces base.toList).head?)
    (same : above.filter isPlain = (pieces base.toList).filter isPlain) (plain : isPlain name.toList) :
    ofText (join base name) = ⟨(ofText base).absolute, (ofText base).components ++ [name]⟩ := by
  have head : (above ++ [name.toList]).head? = (pieces base.toList).head? := by
    rw [List.head?_append_of_ne_nil _ nonempty, heads]
  simp only [ofText, first, shape, head, List.filter_append, same]
  simp [plain]

theorem ofText_join (base : String) {name : String} (slashless : '/' ∉ name.toList)
    (plain : isPlain name.toList = true) :
    ofText (join base name) = ⟨(ofText base).absolute, (ofText base).components ++ [name]⟩ := by
  have notAbsolute := head?_ne_of_slashless slashless
  have alone := pieces_of_slashless slashless
  by_cases empty : base = ""
  · have joined : join base name = name := by simp [join, notAbsolute, empty]
    rw [joined, empty, ofText_of_plain slashless plain]
    rfl
  · obtain ⟨c, rest, chars⟩ := List.exists_cons_of_ne_nil fun none => empty (String.toList_inj.mp none)
    by_cases slash : base.toList.getLast? = some '/'
    · have joined : join base name = base ++ name := by simp [join, notAbsolute, slash]
      obtain ⟨start, shape⟩ := List.getLast?_eq_some_iff.mp slash
      refine ofText_join_of_pieces (pieces start) ?_ ?_ (pieces_ne_nil start) ?_ ?_ plain
      · simp [joined, chars]
      · rw [joined, String.toList_append, shape, List.append_assoc, List.singleton_append, pieces_append_slash, alone]
      · rw [shape, pieces_append_slash, List.head?_append_of_ne_nil _ (pieces_ne_nil start)]
      · rw [shape, pieces_append_slash, List.filter_append]
        simp [pieces, isPlain]
    · have joined : join base name = base ++ "/" ++ name := by simp [join, notAbsolute, slash, empty]
      refine ofText_join_of_pieces (pieces base.toList) ?_ ?_ (pieces_ne_nil _) rfl rfl plain
      · simp [joined, chars]
      · rw [joined, String.toList_append, String.toList_append, List.append_assoc]
        exact (pieces_append_slash base.toList name.toList).trans (by rw [alone])

theorem parent_join (base : String) {name : String} (slashless : '/' ∉ name.toList)
    (plain : name ≠ "" ∧ name ≠ "." ∧ name ≠ "..") : parent (join base name) = ofText base := by
  rw [parent, ofText_join base slashless (isPlain_of_plain plain)]
  simp

theorem extension?_of_dotless {name : String} (dotless : '.' ∉ name.toList) : extension? name = none := by
  have nothing : name.toList.reverse.dropWhile (· ≠ '.') = [] := by
    refine List.dropWhile_eq_nil_iff.mpr ?_
    intro c member
    have other : c ≠ '.' := fun same => dotless (same ▸ List.mem_reverse.mp member)
    exact decide_eq_true other
  rw [extension?, nothing]

/-- What follows the last dot of a name, unless that dot is its first character. -/
theorem extension?_of_last {name : String} {stem ending : List Char} (shape : name.toList = stem ++ '.' :: ending)
    (last : '.' ∉ ending) (visible : name.toList.head? ≠ some '.') :
    extension? name = some (String.ofList ending) := by
  have backwards : name.toList.reverse = ending.reverse ++ '.' :: stem.reverse := by simp [shape]
  have inside : ∀ c ∈ ending.reverse, decide (c ≠ '.') = true := by
    intro c member
    have other : c ≠ '.' := fun same => last (same ▸ List.mem_reverse.mp member)
    exact decide_eq_true other
  have dots : name ≠ ".." := by
    rintro rfl
    exact visible rfl
  have started : stem.reverse ≠ [] := by
    intro empty
    rw [shape, List.reverse_eq_nil_iff.mp empty] at visible
    exact visible rfl
  obtain ⟨c, rest, more⟩ := List.exists_cons_of_ne_nil started
  rw [extension?, backwards, List.dropWhile_append_of_pos inside, List.takeWhile_append_of_pos inside, more]
  simp [dots]

theorem extension?_eq_some_iff {name ending : String} (visible : name.toList.head? ≠ some '.') :
    extension? name = some ending ↔ ∃ stem, name.toList = stem ++ '.' :: ending.toList ∧
      '.' ∉ ending.toList := by
  constructor
  · intro found
    by_cases dot : '.' ∈ name.toList
    · obtain ⟨after, before, split, last⟩ := List.eq_append_cons_of_mem (List.mem_reverse.mpr dot)
      have shape : name.toList = before.reverse ++ '.' :: after.reverse := by
        simpa using congrArg List.reverse split
      have last : '.' ∉ after.reverse := by simpa using last
      rw [extension?_of_last shape last visible, Option.some.injEq] at found
      subst found
      exact ⟨before.reverse, by simpa using shape, by simpa using last⟩
    · rw [extension?_of_dotless dot] at found
      cases found
  · rintro ⟨stem, shape, last⟩
    rw [extension?_of_last shape last visible, String.ofList_toList]

end FormatAudit.Path
