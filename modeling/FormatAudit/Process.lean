import FormatAudit.SystemError

/-!
Programs as seen from outside: arguments and input go in; a status and two streams of bytes come out.
-/

namespace FormatAudit

structure Invocation where
  program : String
  arguments : List String
  input : List UInt8

structure Completion where
  status : ExitStatus
  output : List UInt8
  errors : List UInt8
  written : Except SystemError Unit

def Completion.succeeded (completion : Completion) : Bool := completion.status == some 0

abbrev Launcher := Invocation → Except SystemError Completion

end FormatAudit
