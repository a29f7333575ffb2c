import FormatAudit.Interpreter.Track
import FormatAudit.Process
import FormatAudit.Text.Utf8

/-!
Asking an interpreter for its version by running a script with it.
-/

namespace FormatAudit.CommandProbe

/-- The script that makes an interpreter print its version. -/
def versionScript : String := "import platform; print(platform.python_version())"

def probe (launch : Launcher) (script : String) : Probe := fun executable =>
  match launch ⟨executable, ["-c", script], []⟩ with
  | .error cause => .error (.spawn executable cause)
  | .ok completion =>
    if completion.succeeded then .ok (Text.trim (Text.ofUtf8Lossy completion.output))
    else .error (.exit executable completion.status (Text.trim (Text.ofUtf8Lossy completion.errors)))

end FormatAudit.CommandProbe
