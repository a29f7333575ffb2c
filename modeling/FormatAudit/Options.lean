import FormatAudit.ParserName
import FormatAudit.Setting
import FormatAudit.Interpreter.Binding

/-!
Formatter options in layers: the defaults, the caller's overrides, and what each call derives from
its parser, its interpreter and its file. Only the derived layer names these three.
-/

namespace FormatAudit

/-- What a caller sets: where plugins are sought, and options passed through to the formatter. -/
structure Overrides where
  pluginDirs : Option (List String)
  passthrough : Fields Setting
  deriving Repr

structure FormatOptions where
  pluginDirs : List String
  passthrough : Fields Setting
  deriving Repr

structure CallOptions where
  base : FormatOptions
  parser : ParserName
  interpreter : Binding
  file : String
  deriving Repr

namespace Overrides

def none : Overrides := ⟨.none, []⟩

def set (o : Overrides) (name : String) (value : Setting) : Overrides :=
  { o with passthrough := o.passthrough.insert name value }

end Overrides

namespace FormatOptions

def defaultPluginDir : String := "."

def derivedNames : List String := ["parser", "interpreter", "filepath"]

def merged (o : Overrides) : FormatOptions :=
  ⟨o.pluginDirs.getD [defaultPluginDir], o.passthrough.filter fun option => option.1 ∉ derivedNames⟩

def same (a b : FormatOptions) : Bool :=
  a.pluginDirs == b.pluginDirs && (Setting.mapping a.passthrough).same (.mapping b.passthrough)

def resolve (options : FormatOptions) (parser : ParserName) (interpreter : Binding) (file : String) : CallOptions :=
  ⟨options, parser, interpreter, file⟩

end FormatOptions

namespace CallOptions

def withParser (options : CallOptions) (parser : ParserName) : CallOptions := { options with parser := parser }

def same (a b : CallOptions) : Bool :=
  a.base.same b.base && a.parser == b.parser && a.interpreter == b.interpreter && a.file == b.file

end CallOptions

end FormatAudit
