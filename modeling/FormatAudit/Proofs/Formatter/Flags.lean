import FormatAudit.Formatter.Command

/-! The flags that a command is called with. Each option that is passed through has one flag, made from its name;
what the options cannot name is filtered by option names, while the derived flags have names of their own. -/

namespace FormatAudit.Command

def settingFlag (option : String × Setting) : String :=
  match option.2 with
  | .boolean false => "--no-" ++ option.1
  | _ => "--" ++ option.1

def settingOperands (option : String × Setting) : List String :=
  match option.2 with
  | .boolean _ => []
  | value => [value.render]

def passedFlags (options : CallOptions) : List String := options.base.passthrough.map settingFlag

theorem settingArguments_eq (option : String × Setting) :
    settingArguments option = settingFlag option :: settingOperands option := by
  obtain ⟨name, value⟩ := option
  cases value with
  | boolean value => cases value <;> rfl
  | _ => rfl

theorem arguments_eq (command : Command) (options : CallOptions) (wantsTree : Bool) :
    command.arguments options wantsTree = command.baseArguments ++ derivedArguments options ++
      pluginArguments options.base.pluginDirs ++
      (options.base.passthrough.flatMap fun option => settingFlag option :: settingOperands option) ++
      if wantsTree then [command.treeFlag] else [] := by
  simp only [arguments, ← settingArguments_eq]

theorem settingFlag_eq_iff {option : String × Setting} {name : String} (plain : ¬['n', 'o', '-'] <+: name.toList) :
    settingFlag option = "--" ++ name ↔ option.1 = name ∧ option.2 ≠ .boolean false := by
  obtain ⟨own, value⟩ := option
  have stated : "--" ++ own = "--" ++ name ↔ own = name := String.append_right_inj _
  have denied : "--no-" ++ own ≠ "--" ++ name := by
    intro same
    have tails : ['n', 'o', '-'] ++ own.toList = name.toList := by
      have := congrArg String.toList same
      simpa using this
    exact plain ⟨_, tails⟩
  cases value with
  | boolean value => cases value <;> simp [settingFlag, stated, denied]
  | _ => simp [settingFlag, stated]

theorem mem_passedFlags_merged {overrides : Overrides} {parser : ParserName} {interpreter : Binding}
    {file name : String}
    (plain : ¬['n', 'o', '-'] <+: name.toList) :
    "--" ++ name ∈ passedFlags ((FormatOptions.merged overrides).resolve parser interpreter file) ↔
      name ∉ FormatOptions.derivedNames ∧
        ∃ value, (name, value) ∈ overrides.passthrough ∧ value ≠ .boolean false := by
  rw [passedFlags, List.mem_map]
  simp only [settingFlag_eq_iff plain, FormatOptions.resolve, FormatOptions.merged, List.mem_filter, decide_eq_true_eq]
  constructor
  · rintro ⟨⟨_, value⟩, ⟨present, passed⟩, rfl, stated⟩
    exact ⟨passed, value, present, stated⟩
  · rintro ⟨passed, value, present, stated⟩
    exact ⟨(name, value), ⟨present, passed⟩, rfl, stated⟩

/-- The arguments of a call hold the derived flags once each, and then the flags of the options. Of the derived flags
these repeat neither the one for the parser nor the one for the interpreter; they repeat the one for the file exactly
if an option is called like that flag and is not denied. -/
theorem derived_flags_in_arguments (command : Command) (overrides : Overrides) (parser : ParserName)
    (interpreter : Binding) (file : String) (wantsTree : Bool) :
    let options := (FormatOptions.merged overrides).resolve parser interpreter file
    command.arguments options wantsTree = command.baseArguments ++
        ["--parser", parser.text, "--interpreter", interpreter.executable, "--stdin-filepath", file] ++
        pluginArguments options.base.pluginDirs ++
        (options.base.passthrough.flatMap fun option => settingFlag option :: settingOperands option) ++
        (if wantsTree then [command.treeFlag] else []) ∧
      "--parser" ∉ passedFlags options ∧ "--interpreter" ∉ passedFlags options ∧
      ("--stdin-filepath" ∈ passedFlags options ↔
        ∃ value, ("stdin-filepath", value) ∈ overrides.passthrough ∧ value ≠ .boolean false) := by
  intro options
  have derived (name : String) (listed : name ∈ FormatOptions.derivedNames)
    (plain : ¬['n', 'o', '-'] <+: name.toList) :
      "--" ++ name ∉ passedFlags options := fun passed => ((mem_passedFlags_merged plain).mp passed).1 listed
  refine ⟨arguments_eq command options wantsTree, ?_, ?_, ?_⟩
  · exact derived "parser" (by decide) (by decide)
  · exact derived "interpreter" (by decide) (by decide)
  · have path : "--" ++ "stdin-filepath" ∈ passedFlags options ↔ _ := mem_passedFlags_merged (by decide)
    exact path.trans (and_iff_right (by decide))

/-- An option can be called like the flag for the file: the command is then given a second path. -/
theorem stdin_filepath_is_passed : ∃ (overrides : Overrides) (parser : ParserName) (interpreter : Binding),
    let options := (FormatOptions.merged overrides).resolve parser interpreter "a.py"
    "--stdin-filepath" ∈ passedFlags options ∧ (ofProgram "fmt").arguments options false =
      ["--parser", "python", "--interpreter", "python3", "--stdin-filepath", "a.py", "--plugin-search-dir", ".",
        "--stdin-filepath", "b.py"] :=
  ⟨Overrides.none.set "stdin-filepath" (.text "b.py"),
    ⟨"python", by decide⟩, ⟨"python3", ⟨3, 11, 4, [], []⟩⟩,
    by decide, rfl⟩

end FormatAudit.Command
