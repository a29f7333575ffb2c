/-!
Errors of the operating system, as the file system and the starting of programs give them.
-/

namespace FormatAudit

inductive SystemError
  | notFound
  | denied
  | notDirectory
  | isDirectory
  | brokenPipe
  | alreadyThere
  | invalid
  | nameTooLong
  | nulInName
  | tooManyLinks
  | outside
  | notText
  | other (message : String)
  deriving DecidableEq, Repr

def SystemError.message : SystemError → String
  | notFound => "No such file or directory (os error 2)"
  | denied => "Permission denied (os error 13)"
  | notDirectory => "Not a directory (os error 20)"
  | isDirectory => "Is a directory (os error 21)"
  | brokenPipe => "Broken pipe (os error 32)"
  | alreadyThere => "File exists (os error 17)"
  | invalid => "Invalid argument (os error 22)"
  | nameTooLong => "File name too long (os error 36)"
  | nulInName => "file name contained an unexpected NUL byte"
  | tooManyLinks => "Too many levels of symbolic links (os error 40)"
  | outside => "a path led outside of the filesystem"
  | notText => "stream did not contain valid UTF-8"
  | other message => message

abbrev ExitStatus := Option Int

def ExitStatus.text : ExitStatus → String
  | some code => s!"Some({code})"
  | none => "None"

end FormatAudit
