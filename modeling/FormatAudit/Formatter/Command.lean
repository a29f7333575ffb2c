import FormatAudit.Decoding.Tree
import FormatAudit.Process
import FormatAudit.Text.Blank
import FormatAudit.Text.Utf8

/-!
Formatters that are programs. The options of a call become command-line arguments; the source goes in
and the formatted text, or with one more flag a parse report, comes out.
-/

namespace FormatAudit

structure Command where
  program : String
  baseArguments : List String
  treeFlag : String
  deriving DecidableEq, Repr

namespace Command

def defaultTreeFlag : String := "--debug-print-ast"

def ofProgram (program : String) : Command := ⟨program, [], defaultTreeFlag⟩

/-- A boolean option is a flag or its denial, every other one a flag and a value. -/
def settingArguments (option : String × Setting) : List String :=
  match option.2 with
  | .boolean true => ["--" ++ option.1]
  | .boolean false => ["--no-" ++ option.1]
  | value => ["--" ++ option.1, value.render]

def derivedArguments (options : CallOptions) : List String :=
  ["--parser", options.parser.text, "--interpreter", options.interpreter.executable,
    "--stdin-filepath", options.file]

def pluginArguments (dirs : List String) : List String := dirs.flatMap fun dir => ["--plugin-search-dir", dir]

def arguments (command : Command) (options : CallOptions) (wantsTree : Bool) : List String :=
  command.baseArguments ++ derivedArguments options ++ pluginArguments options.base.pluginDirs ++
    options.base.passthrough.flatMap settingArguments ++ if wantsTree then [command.treeFlag] else []

def run (launch : Launcher) (command : Command) (arguments : List String) (source : String) :
    Except FormatterError String :=
  match launch ⟨command.program, arguments, Text.toUtf8 source⟩ with
  | .error cause => .error (.spawn command.program cause)
  | .ok completion =>
    if !completion.succeeded then
      .error (.exit command.program completion.status (Text.trim (Text.ofUtf8Lossy completion.errors)))
    else match completion.written with
      | .error cause => .error (.spawn command.program cause)
      | .ok () => (Text.ofUtf8 completion.output).mapError fun fault => .invalidOutput fault.message

def parse (launch : Launcher) (command : Command) (source : String) (options : CallOptions) :
    Except FormatterError ParseReport := do
  let output ← command.run launch (command.arguments options true) source
  (Decoder.parseReport.run output).mapError fun error => .invalidOutput error.message

def formatter (launch : Launcher) (command : Command) : Formatter where
  format source options := .ofExcept (command.run launch (command.arguments options false) source)
  parse source options := .ofExcept (command.parse launch source options)
  normalizeOptions := .ok
  clean _ := Formatter.cleanNothing

end Command

end FormatAudit
