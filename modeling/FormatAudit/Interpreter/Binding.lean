import FormatAudit.Version.Basic

/-!
Interpreters that a formatter can be run for: an executable and the version that it reports.
-/

namespace FormatAudit

structure Binding where
  executable : String
  version : Version
  deriving DecidableEq, Repr

def Binding.text (b : Binding) : String := s!"{b.executable} {b.version.text}"

end FormatAudit
