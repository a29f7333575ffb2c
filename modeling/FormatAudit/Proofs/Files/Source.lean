import FormatAudit.Fixture
import FormatAudit.Proofs.Text.LineEnds

/-! The line ends in the source of a fixture. Each CRLF of a text has been made a line feed once, and a carriage return
of its own is kept, also where it stands before a CRLF. -/

namespace FormatAudit.Fixture

theorem load_eq_ok_iff {files : FileSystem} {path : String} {fixture : Fixture} :
    load files path = .ok fixture ↔
    ∃ directory s, files.openPath (Path.parent path) = .ok directory ∧
      directory.readInside (Path.fileName path) = .ok s ∧ fixture = ofText path s := by
  unfold load
  cases opened : files.openPath (Path.parent path) with
  | error cause => simp [bind, Except.bind]
  | ok directory =>
      cases read : directory.readInside (Path.fileName path) <;> simp [bind, Except.bind, read, eq_comm]

/-- The source of a fixture holds a CRLF if and only if its text held one with a carriage return before it. Where it
holds none, and nowhere else, joining line ends once more changes nothing. So it is for the fixtures that are loaded,
whose sources are those of the texts that were read. -/
theorem source_joined_iff (path s : String) :
    (['\r', '\n'] <:+: (ofText path s).source.toList ↔ ['\r', '\r', '\n'] <:+: s.toList) ∧
    (Text.normalizeLineEndings (ofText path s).source = (ofText path s).source ↔
      ¬['\r', '\r', '\n'] <:+: s.toList) ∧
    ∀ files fixture, load files path = .ok fixture ↔
      ∃ directory s, files.openPath (Path.parent path) = .ok directory ∧
        directory.readInside (Path.fileName path) = .ok s ∧ fixture = ofText path s := by
  have source : (ofText path s).source.toList = Text.joinLineEnds s.toList := String.toList_ofList
  have again : Text.normalizeLineEndings (ofText path s).source = (ofText path s).source ↔
      Text.joinLineEnds (Text.joinLineEnds s.toList) = Text.joinLineEnds s.toList := by
    rw [← String.toList_inj, Text.normalizeLineEndings, String.toList_ofList, source]
  refine ⟨?_, ?_, fun _ _ => load_eq_ok_iff⟩
  · rw [source, Text.crlf_infix_joinLineEnds_iff]
  · rw [again, Text.joinLineEnds_eq_self_iff, Text.crlf_infix_joinLineEnds_iff]

/-- A carriage return before a CRLF makes a CRLF with the line feed, which is joined only the next time. -/
theorem crlf_left_in_source : ['\r', '\n'] <:+: (ofText "a" "x\r\r\n").source.toList ∧
    Text.normalizeLineEndings (Text.normalizeLineEndings "x\r\r\n") ≠ Text.normalizeLineEndings "x\r\r\n" := by
  decide

end FormatAudit.Fixture
