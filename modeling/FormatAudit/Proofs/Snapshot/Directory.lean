import FormatAudit.Proofs.Files.Loading
import FormatAudit.Proofs.Snapshot.Store
import FormatAudit.Proofs.Text.Lines
import FormatAudit.Snapshot.Directory

/-! What a directory of snapshot files lets pass. A snapshot file is read back as the content that it was made for, up
to its line ends and the blanks at its end, and so are the outputs in the snapshots compared. -/

namespace FormatAudit.SnapshotDirectory

theorem joinLines_cons (line : List Char) (more : List (List Char)) :
    joinLines (line :: more) = withoutReturn line ++ if more = [] then [] else '\n' :: joinLines more := by
  cases more <;> simp [joinLines]

theorem withoutReturn_cons (c : Char) (line : List Char) :
    withoutReturn (c :: line) = if c = '\r' ∧ line = [] then [] else c :: withoutReturn line := by
  cases line with
  | nil => by_cases carriage : c = '\r' <;> simp [withoutReturn, carriage]
  | cons d line =>
      rw [if_neg (by simp), withoutReturn, withoutReturn, List.getLast?_cons_cons, List.dropLast_cons_cons]
      split <;> rfl

/-- The first line of a text is empty if the text is or starts with a line feed. -/
theorem splitLines_cons_nil {s : List Char} {line : List Char} {more : List (List Char)}
    (lines : Text.splitLines s = line :: more) : line = [] ↔ s = [] ∨ s.head? = some '\n' := by
  cases s with
  | nil =>
      obtain ⟨rfl, _⟩ := List.cons.inj lines
      simp
  | cons c rest =>
      rw [Text.splitLines] at lines
      split at lines
      · rename_i feed
        obtain ⟨rfl, _⟩ := List.cons.inj lines
        simp [feed]
      · rename_i other
        split at lines
        all_goals
          obtain ⟨rfl, _⟩ := List.cons.inj lines
          simp [other]

theorem joinLines_splitLines_cons (c : Char) (rest : List Char) : joinLines (Text.splitLines (c :: rest)) =
    if c = '\r' ∧ (rest = [] ∨ rest.head? = some '\n') then joinLines (Text.splitLines rest)
    else c :: joinLines (Text.splitLines rest) := by
  obtain ⟨line, more, lines⟩ := List.exists_cons_of_ne_nil (Text.splitLines_ne_nil rest)
  rw [Text.splitLines]
  split
  · rename_i feed
    rw [joinLines_cons, if_neg (Text.splitLines_ne_nil rest), feed, if_neg (by simp)]
    rfl
  · rw [lines]
    dsimp only
    rw [joinLines_cons, withoutReturn_cons, joinLines_cons]
    simp only [← splitLines_cons_nil lines]
    split
    · rename_i left
      rw [left.2]
      rfl
    · rfl

theorem joinLineEnds_eq_joinLines (s : List Char) :
    Text.joinLineEnds s = joinLines (Text.splitLines s) ∨
      Text.joinLineEnds s = joinLines (Text.splitLines s) ++ ['\r'] := by
  induction s with
  | nil => exact .inl rfl
  | cons c rest ih =>
      rw [joinLines_splitLines_cons]
      by_cases crlf : c = '\r' ∧ rest.head? = some '\n'
      · obtain ⟨rfl, feed⟩ := crlf
        obtain ⟨tail, rfl⟩ := List.head?_eq_some_iff.mp feed
        rw [if_pos ⟨rfl, .inr rfl⟩, Text.joinLineEnds, ← Text.joinLineEnds_feed]
        exact ih
      · rw [Text.joinLineEnds_cons crlf]
        by_cases last : c = '\r' ∧ rest = []
        · obtain ⟨rfl, rfl⟩ := last
          exact .inr rfl
        · rw [if_neg fun left => left.2.elim (fun none => last ⟨left.1, none⟩) fun feed => crlf ⟨left.1, feed⟩]
          exact ih.imp (fun same => by rw [same]) fun same => by rw [same]; rfl

theorem trimEnd_joinLines (s : List Char) :
    Text.trimEnd (joinLines (Text.splitLines s)) = Text.joinLineEnds (Text.trimEnd s) := by
  rw [← Text.trimEnd_joinLineEnds]
  rcases joinLineEnds_eq_joinLines s with same | returned
  · rw [same]
  · rw [returned, Text.trimEnd_append, if_pos (by decide)]

theorem blank_of_isLineEnd {c : Char} (lineEnd : isLineEnd c = true) : Text.isBlank c = true := by
  simp only [isLineEnd, Bool.or_eq_true, decide_eq_true_eq] at lineEnd
  rcases lineEnd with rfl | rfl <;> decide

theorem trimEnd_dropWhile (s : List Char) :
    Text.trimEnd (s.dropWhile isLineEnd) = (Text.trimEnd s).dropWhile isLineEnd := by
  induction s with
  | nil => rfl
  | cons c rest ih =>
      rw [Text.trimEnd_cons, List.dropWhile_cons]
      by_cases lineEnd : isLineEnd c = true
      · rw [if_pos lineEnd, ih]
        split
        · rename_i none
          rw [none, Text.trimEnd_singleton, if_pos (blank_of_isLineEnd lineEnd)]
        · rw [List.dropWhile_cons, if_pos lineEnd]
      · rw [if_neg lineEnd, Text.trimEnd_cons]
        split
        · rw [Text.trimEnd_singleton]
          split
          · rfl
          · rw [List.dropWhile_cons, if_neg lineEnd]
        · rw [List.dropWhile_cons, if_neg lineEnd]

theorem dropWhile_joinLineEnds (s : List Char) :
    (Text.joinLineEnds s).dropWhile isLineEnd = Text.joinLineEnds (s.dropWhile isLineEnd) := by
  fun_induction Text.joinLineEnds s with
  | case1 s ih => simpa [isLineEnd] using ih
  | case2 c s other ih =>
      rw [List.dropWhile_cons, List.dropWhile_cons]
      split
      · exact ih
      · rw [Text.joinLineEnds_cons]
        rintro ⟨rfl, feed⟩
        obtain ⟨tail, shape⟩ := List.head?_eq_some_iff.mp feed
        exact other tail rfl shape
  | case3 => rfl

theorem comparable_joinLines {stored content : List Char} (held : Text.trimEnd stored = Text.trimEnd content) :
    comparable (joinLines (Text.splitLines stored)) = Text.joinLineEnds (comparable content) := by
  rw [comparable, trimEnd_dropWhile, trimEnd_joinLines, held, dropWhile_joinLineEnds, ← trimEnd_dropWhile]
  rfl

theorem comparable_of_visible {c : Char} (visible : Text.isBlank c = false) (start rest : List Char) :
    comparable (start ++ c :: rest) =
      Text.joinLineEnds (start.dropWhile isLineEnd) ++ c :: Text.joinLineEnds (Text.trimEnd rest) := by
  have inner : isLineEnd c ≠ true := fun lineEnd => by simp [blank_of_isLineEnd lineEnd] at visible
  have others : c ≠ '\n' ∧ c ≠ '\r' := by
    refine ⟨?_, ?_⟩ <;> (rintro rfl; cases visible)
  have start : (start ++ c :: rest).dropWhile isLineEnd = start.dropWhile isLineEnd ++ c :: rest := by
    rw [List.dropWhile_append, List.dropWhile_cons, if_neg inner]
    split
    · rename_i none
      rw [List.isEmpty_iff.mp none, List.nil_append]
    · rfl
  have kept : Text.trimEnd (c :: rest) = c :: Text.trimEnd rest := by
    rw [Text.trimEnd_cons, Text.trimEnd_singleton]
    split
    · rename_i none
      rw [none, visible, if_neg (by decide)]
    · rfl
  rw [comparable, start, Text.trimEnd_append, kept,
    if_neg (by simp), Text.joinLineEnds_append (by simpa using others.1),
    Text.joinLineEnds_cons fun crlf => others.2 crlf.1]

theorem withoutMark_append {start : List Char} (tilde : '~' ∈ start) :
    ∃ kept, ∀ rest, withoutMark (start ++ rest) = kept ++ rest := by
  by_cases mark : ['-', '-', '-', '\n'] <+: start
  · obtain ⟨kept, rfl⟩ := mark
    exact ⟨kept, fun rest => rfl⟩
  · refine ⟨start, fun rest => ?_⟩
    rw [withoutMark.eq_def]
    split
    · rename_i left same
      -- the four characters cannot reach beyond the tilde
      rcases start with _ | ⟨a, _ | ⟨b, _ | ⟨c, _ | ⟨d, start⟩⟩⟩⟩
      all_goals simp_all
    · rfl

/-- The lines that say of a snapshot file what it is. -/
structure Head (lines : List (List Char)) : Prop where
  feedless : ∀ line ∈ lines, '\n' ∉ line
  unmarked : ∀ line ∈ lines, isMark line = false
  mapping : isHead (String.ofList (List.intercalate ['\n'] (['-', '-', '-'] :: lines))) = true

def fileText (lines : List (List Char)) (content : List Char) : String :=
  String.ofList ((['-', '-', '-'] :: (lines ++ [['-', '-', '-']])).flatMap (· ++ ['\n']) ++ content)

theorem storedContent?_fileText {lines : List (List Char)} (head : Head lines) (content : List Char) :
    storedContent? (fileText lines content) = some (joinLines (Text.splitLines content)) := by
  have cut : Text.splitLines (fileText lines content).toList =
      ['-', '-', '-'] :: (lines ++ ['-', '-', '-'] :: Text.splitLines content) := by
    rw [fileText, String.toList_ofList, Text.splitLines_lines]
    · simp
    · intro line member
      simp only [List.mem_cons, List.mem_append, List.not_mem_nil, or_false] at member
      rcases member with rfl | inside | rfl
      · decide
      · exact head.feedless line inside
      · decide
  have mark : isMark ['-', '-', '-'] = true := by decide
  have upTo : (lines ++ ['-', '-', '-'] :: Text.splitLines content).takeWhile (!isMark ·) = lines := by
    rw [List.takeWhile_append_of_pos fun line member => by simp [head.unmarked line member], List.takeWhile_cons, mark]
    simp
  rw [storedContent?, cut]
  simp only [mark, upTo, head.mapping, ↓reduceIte]
  simp

theorem comparable_compose (source : String) :
    ∃ front, '~' ∈ front ∧ ∀ output, comparable (Snapshot.compose source output).toList =
      front ++ Text.joinLineEnds (Text.trimEnd ('\n' :: output.toList)) := by
  have separator : Snapshot.separator = List.replicate 79 '~' ++ '~' :: ['\n'] := by decide
  refine ⟨Text.joinLineEnds ((source.toList ++ List.replicate 79 '~').dropWhile isLineEnd) ++ ['~'], by simp, ?_⟩
  intro output
  have shape : (Snapshot.compose source output).toList =
      (source.toList ++ List.replicate 79 '~') ++ '~' :: '\n' :: output.toList := by
    simp [Snapshot.toList_compose, separator]
  rw [shape, comparable_of_visible (by decide)]
  simp

theorem trimEnd_feed_inj {first second : List Char} :
    Text.joinLineEnds (Text.trimEnd ('\n' :: first)) = Text.joinLineEnds (Text.trimEnd ('\n' :: second)) ↔
      Text.joinLineEnds (Text.trimEnd first) = Text.joinLineEnds (Text.trimEnd second) := by
  have feed (s : List Char) : Text.joinLineEnds (Text.trimEnd ('\n' :: s)) =
      if Text.joinLineEnds (Text.trimEnd s) = [] then [] else '\n' :: Text.joinLineEnds (Text.trimEnd s) := by
    rw [Text.trimEnd_cons]
    simp only [Text.joinLineEnds_eq_nil_iff]
    split
    · rfl
    · rw [Text.joinLineEnds_feed]
  rw [feed, feed]
  split <;> split <;> simp_all

theorem matchesStored_compose {source first second : String} {stored : List Char}
    (held : Text.trimEnd stored = Text.trimEnd (Snapshot.compose source first).toList)
    (single : ¬['\r', '\r', '\n'] <:+: (Snapshot.compose source first).toList) :
    matchesStored (joinLines (Text.splitLines stored)) (Snapshot.compose source second).toList = true ↔
      Text.joinLineEnds (Text.trimEnd first.toList) = Text.joinLineEnds (Text.trimEnd second.toList) := by
  obtain ⟨front, tilde, compared⟩ := comparable_compose source
  obtain ⟨kept, unmarked⟩ := withoutMark_append tilde
  have part : Text.trimEnd ((Snapshot.compose source first).toList.dropWhile isLineEnd) <:+:
      (Snapshot.compose source first).toList :=
    (Text.prefix_trimEnd _).isInfix.trans (List.dropWhile_suffix _).isInfix
  have joined : Text.joinLineEnds (comparable (Snapshot.compose source first).toList) =
      comparable (Snapshot.compose source first).toList :=
    Text.joinLineEnds_joinLineEnds fun inside => single (inside.trans part)
  rw [matchesStored, comparable_joinLines held, joined, compared, compared, unmarked, unmarked, ← trimEnd_feed_inj]
  simp

/-- Where a baseline is the snapshot of an output, a store in memory lets only that output pass. A directory that holds
it in a file also lets outputs pass that differ from it in the blanks at their end or in their line ends. -/
theorem stores_on_compose {store : MemoryStore} {files : FileSystem} {dir name source first : String}
    {lines : List (List Char)} {stored : List Char} (baseline : store.get? name = some (Snapshot.compose source first))
    (file : files.readText (Path.join (Path.join dir directoryName) (safeName name ++ ".snap")) =
      .ok (fileText lines stored))
    (head : Head lines) (held : Text.trimEnd stored = Text.trimEnd (Snapshot.compose source first).toList)
    (single : ¬['\r', '\r', '\n'] <:+: (Snapshot.compose source first).toList) (second : String) :
    (store.record name (Snapshot.compose source second)).1 =
        (if first = second then .ok ()
        else .error (MemoryStore.mismatch name (Snapshot.compose source first) (Snapshot.compose source second))) ∧
      ((snapshots files dir).record () name (Snapshot.compose source second)).1 =
        .ofExcept (if Text.joinLineEnds (Text.trimEnd first.toList) = Text.joinLineEnds (Text.trimEnd second.toList)
          then .ok () else .error (mismatch name)) := by
  constructor
  · have same : Snapshot.compose source first = Snapshot.compose source second ↔ first = second :=
      ⟨Snapshot.compose_output_inj, fun same => by rw [same]⟩
    rw [MemoryStore.record_of_some baseline]
    simp only [same]
  · simp only [snapshots, compare, file, Except.toOption, Option.bind_some, storedContent?_fileText head,
      matchesStored_compose held single]

def sampleLines : List (List Char) := [['s', 'o', 'u', 'r', 'c', 'e', ':', ' ', 't', '.', 'r', 's']]

def sampleFiles (text : String) : FileSystem where
  root := .directory [(Text.toUtf8 "fx", .directory [(Text.toUtf8 directoryName, .directory
    [(Text.toUtf8 "a.snap", .file (.ok (Text.toUtf8 text)))] {})] {})] {}
  current := []

theorem head_sampleLines : Head sampleLines := ⟨by decide, by decide, by cbv⟩

theorem readText_sampleFiles (text : String) :
    (sampleFiles text).readText (Path.join (Path.join "/fx" directoryName) (safeName "a" ++ ".snap")) = .ok text := by
  have path : Path.join (Path.join "/fx" directoryName) (safeName "a" ++ ".snap") = "/fx/__snapshots__/a.snap" := rfl
  have way : (Path.ofText "/fx/__snapshots__/a.snap").absolute = true ∧
      FileTree.steps "/fx/__snapshots__/a.snap" = ["fx", "__snapshots__", "a.snap"] := ⟨rfl, rfl⟩
  have found (bytes : List UInt8) (reach : FileTree.Reach) (links : Nat) : FileTree.follow reach links
      (.directory [(Text.toUtf8 "fx", .directory [(Text.toUtf8 directoryName, .directory
        [(Text.toUtf8 "a.snap", .file (.ok bytes))] {})] {})] {}) [] ["fx", "__snapshots__", "a.snap"] =
      .ok (.file (.ok bytes)) := by
    have alone {name : String} {node : FileTree} (above : List FileTree) (rest : List String)
        (plain : name ≠ "." ∧ name ≠ "..") (short : name.utf8ByteSize ≤ FileTree.maxNameLength)
        (direct : ∀ target, node ≠ .link target) :
        FileTree.follow reach links (.directory [(Text.toUtf8 name, node)] {}) above (name :: rest) =
          FileTree.follow reach links node (.directory [(Text.toUtf8 name, node)] {} :: above) rest :=
      FileTree.follow_entry rfl plain short (by simp [FileTree.entry?]) direct rest
    rw [alone _ _ (by decide) (by decide) (by simp), directoryName, alone _ _ (by decide) (by decide) (by simp),
      alone _ _ (by decide) (by decide) (by simp), FileTree.follow]
  have read : (sampleFiles text).readText "/fx/__snapshots__/a.snap" =
      (Text.ofUtf8 (Text.toUtf8 text)).mapError fun _ => .notText := by
    have whole : "/fx/__snapshots__/a.snap".contains '\x00' = false := by cbv
    rw [FileSystem.readText, if_neg (by decide), whole, if_neg Bool.false_ne_true, if_neg (by decide), way.1, way.2,
      FileSystem.follow, FileSystem.start, if_pos rfl]
    show (FileTree.follow _ _ (sampleFiles text).root [] _ >>= FileTree.content) = _
    rw [sampleFiles, found]
    rfl
  rw [path, read, Text.ofUtf8_toUtf8]
  rfl

def sampleStore : MemoryStore := ⟨[("a", Snapshot.compose "x\n" "y\n")]⟩

def sampleSnapshots : SnapshotStore Unit :=
  snapshots (sampleFiles (fileText sampleLines (Snapshot.compose "x\n" "y\n").toList)) "/fx"

theorem sample_single : ¬['\r', '\r', '\n'] <:+: (Snapshot.compose "x\n" "y\n").toList := by decide +kernel

theorem sample_stores_on_compose :
    (sampleStore.record "a" (Snapshot.compose "x\n" "z\n")).1 =
        .error (MemoryStore.mismatch "a" (Snapshot.compose "x\n" "y\n") (Snapshot.compose "x\n" "z\n")) ∧
      (sampleSnapshots.record () "a" (Snapshot.compose "x\n" "z\n")).1 = .error (.error (mismatch "a")) :=
  stores_on_compose rfl (readText_sampleFiles _) head_sampleLines rfl sample_single "z\n"

/-- An output that has lost its last line feed passes in the directory and not in memory. -/
theorem stores_differ_on_last_line_end : "y\n" ≠ "y" ∧
    (sampleStore.record "a" (Snapshot.compose "x\n" "y")).1 =
        .error (MemoryStore.mismatch "a" (Snapshot.compose "x\n" "y\n") (Snapshot.compose "x\n" "y")) ∧
      (sampleSnapshots.record () "a" (Snapshot.compose "x\n" "y")).1 = .ok () := by
  refine ⟨by decide, ?_, ?_⟩
  · rfl
  · have passed : matchesStored (joinLines (Text.splitLines (Snapshot.compose "x\n" "y\n").toList))
        (Snapshot.compose "x\n" "y").toList = true := (matchesStored_compose rfl sample_single).mpr (by decide)
    simp only [sampleSnapshots, snapshots, compare, readText_sampleFiles, Except.toOption, Option.bind_some,
      storedContent?_fileText head_sampleLines, passed, if_true]
    rfl

end FormatAudit.SnapshotDirectory
