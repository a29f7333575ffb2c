import FormatAudit.Proofs.Files.Naming

/-! Loading a fixture reads the entry that it was listed for, and nothing else of the files around it. -/

namespace FormatAudit

namespace FileTree

theorem entry?_of_mem {entries : List (FileName × FileTree)} (distinct : (entries.map Prod.fst).Nodup)
    {name : FileName}
    {node : FileTree} (member : (name, node) ∈ entries) : entry? entries name = some node := by
  induction entries with
  | nil => cases member
  | cons entry rest ih =>
      obtain ⟨key, other⟩ := entry
      rw [List.map_cons, List.nodup_cons] at distinct
      rw [ entry?]
      rcases List.mem_cons.mp member with same | later
      · cases same
        rw [if_pos rfl]
      · have different : key ≠ name := fun same => distinct.1 (List.mem_map.mpr ⟨_, later, same.symm⟩)
        rw [if_neg different, ih distinct.2 later]

theorem steps_of_plain {name : String} (slashless : '/' ∉ name.toList)
    (plain : name ≠ "" ∧ name ≠ "." ∧ name ≠ "..") :
    steps name = [name] ∧ (Path.ofText name).absolute = false := by
  have alone := Path.ofText_of_plain slashless (Path.isPlain_of_plain plain)
  refine ⟨?_, by rw [alone]⟩
  simp [steps, alone, Path.pieces_of_slashless slashless, Path.isPlain_of_plain plain]

theorem follow_entry {reach : Reach} {links : Nat} {entries : List (FileName × FileTree)} {refusals : Refusals}
    {above : List FileTree} {step : String} {node : FileTree} (search : refusals.search = none)
    (plain : step ≠ "." ∧ step ≠ "..") (short : step.utf8ByteSize ≤ maxNameLength)
    (found : entry? entries (Text.toUtf8 step) = some node) (direct : ∀ target, node ≠ .link target)
    (rest : List String) : follow reach links (.directory entries refusals) above (step :: rest) =
      follow reach links node (.directory entries refusals :: above) rest := by
  rw [follow.eq_def]
  simp only [search, plain, found, Nat.not_lt.mpr short, ↓reduceIte]

/-- What is read of a file of a directory: its text, unless its name is too long for the system or the
directory cannot be searched. -/
def readNamed (refusals : Refusals) (name : String) (content : Except SystemError (List UInt8)) :
    Except SystemError String :=
  if name.contains '\x00' then .error .invalid
  else if maxPathLength < name.utf8ByteSize then .error .nameTooLong
  else match refusals.search with
    | some cause => .error cause
    | none => if maxNameLength < name.utf8ByteSize then .error .nameTooLong else (file content).content

theorem readInside_of_mem {entries : List (FileName × FileTree)} (distinct : (entries.map Prod.fst).Nodup)
    (refusals : Refusals) {name : String} {content : Except SystemError (List UInt8)}
    (member : (Text.toUtf8 name, file content) ∈ entries) (slashless : '/' ∉ name.toList)
    (plain : name ≠ "" ∧ name ≠ "." ∧ name ≠ "..") :
    (directory entries refusals).readInside name = readNamed refusals name content := by
  obtain ⟨way, relative⟩ := steps_of_plain slashless plain
  rw [readInside, readNamed, if_neg plain.1]
  split
  · rfl
  · split
    · rfl
    · rw [if_neg (by simp [relative]), way]
      cases search : refusals.search with
      | some cause =>
          rw [follow.eq_def]
          simp only [search, bind, Except.bind]
      | none =>
          by_cases long : maxNameLength < name.utf8ByteSize
          · rw [follow.eq_def]
            simp only [search, plain.2, long, ↓reduceIte, bind, Except.bind]
          · have found := entry?_of_mem distinct member
            rw [follow_entry search plain.2 (Nat.not_lt.mp long) found (by simp), follow]
            simp only [long, ↓reduceIte]
            rfl

end FileTree

namespace Fixture

theorem exists_content_of_nameIn? {entry : FileName × FileTree} {name : String} (found : nameIn? entry = some name) :
    ∃ content, entry = (Text.toUtf8 name, .file content) := by
  obtain ⟨read, _, content, node⟩ := nameIn?_eq_some_iff.mp found
  exact ⟨content, Prod.ext (Text.toUtf8_of_ofUtf8 read).symm node⟩

def ofFile (refusals : Refusals) (path name : String) (content : Except SystemError (List UInt8)) :
    Except SuiteError Fixture :=
  match FileTree.readNamed refusals name content with
  | .ok text => .ok (ofText path text)
  | .error cause => .error (.io path cause)

theorem load_join {files : FileSystem} {dir : String} {entries : List (FileName × FileTree)} {refusals : Refusals}
    (names : FileTree.ProperNames entries) (opened : files.openDirectory dir = .ok (.directory entries refusals))
    {name : String} {content : Except SystemError (List UInt8)}
    (member : (Text.toUtf8 name, .file content) ∈ entries)
    (found : nameIn? (Text.toUtf8 name, .file content) = some name) :
    load files (Path.join dir name) = ofFile refusals (Path.join dir name) name content := by
  obtain ⟨slashless, plain⟩ := plain_of_nameIn? names member found
  have directory := FileSystem.openDirectory_eq_ok opened
  have text : (do
      let directory ← files.openPath (Path.parent (Path.join dir name))
      directory.readInside (Path.fileName (Path.join dir name))) = FileTree.readNamed refusals name content := by
    rw [Path.parent_join dir slashless plain, Path.fileName_join dir slashless plain, directory]
    exact FileTree.readInside_of_mem names.distinct refusals member slashless plain
  rw [ofFile, ← text]
  rfl

end Fixture

end FormatAudit
