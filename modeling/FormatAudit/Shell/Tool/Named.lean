import FormatAudit.Shell.Tool.Edit
import FormatAudit.Shell.Tool.Lines
import FormatAudit.Shell.Tool.Search
import FormatAudit.Shell.Tool.Translate

/-!
The programs for texts by their names.
-/

namespace FormatAudit.Shell.Tool

def byName : List (String × Tool) :=
  [("cat", cat), ("cut", cut), ("egrep", grep "E"), ("fgrep", grep "F"), ("grep", grep ""), ("head", head),
    ("rev", rev), ("sed", sed), ("sort", sort), ("tac", tac), ("tail", tail), ("tr", tr), ("uniq", uniq), ("wc", wc)]

end FormatAudit.Shell.Tool
