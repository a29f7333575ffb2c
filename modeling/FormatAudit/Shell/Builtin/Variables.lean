import FormatAudit.Shell.Builtin.Basic

/-!
Commands that change variables, arguments and flags.
-/

namespace FormatAudit.Shell.Run

def setting (argument : String) : String × Option String :=
  let name := argument.toList.takeWhile (· ≠ '=')
  match argument.toList.drop name.length with
  | _ :: value => (String.ofList name, some (String.ofList value))
  | [] => (argument, none)

def refuseName {α : Type} (name : String) : Run α := fail s!"{name}: bad variable name"

def mark (name : String) (change : Variable → Variable) : Run Unit :=
  modifySession fun s =>
    { s with store := s.store.insert name (change ((s.store.get? name).getD ⟨none, false, false⟩)) }

/-- Marks the variables that arguments name, after setting them to the values that come with the names. -/
def markAll (change : Variable → Variable) : List String → Run Unit
  | [] => setStatus 0
  | argument :: rest => do
    let (name, value) := setting argument
    if !isName name.toList then refuseName name
    match value with
    | some value => setVariable name value
    | none => pure ()
    mark name change
    markAll change rest

def declare (change : Variable → Variable) (arguments : List String) : Run Unit := do
  let (_, names) ← options "p" "" arguments
  markAll change names

def declareLocal (arguments : List String) : Run Unit := do
  match (← session).hidden with
  | [] => fail "not in a function"
  | _ => do
    setStatus 0
    for argument in arguments do
      let (name, value) := setting argument
      if !isName name.toList then refuseName name
      modifySession fun s =>
        { s with hidden := match s.hidden with
          | frame :: rest => (if frame.contains name then frame else frame.insert name (s.store.get? name)) :: rest
          | [] => [] }
      match value with
      | some value => setVariable name value
      | none => pure ()

def restoreVariables (frame : Fields (Option Variable)) : Run Unit :=
  modifySession fun s =>
    { s with store := frame.foldl (fun store (name, old) =>
        match old with
        | some v => store.insert name v
        | none => store.erase name) s.store }

def unset (arguments : List String) : Run Unit := do
  let (found, names) ← options "fv" "" arguments
  let functions := (found.getLast?.map Prod.fst) = some 'f'
  setStatus 0
  for name in names do
    if functions then modifySession fun s => { s with functions := s.functions.erase name }
    else if !isName name.toList then refuseName name
    else if ((← session).store.get? name).any Variable.fixed then fail s!"{name}: is read only"
    else modifySession fun s => { s with store := s.store.erase name }

def flagNames : List (String × Char) :=
  [("errexit", 'e'), ("noglob", 'f'), ("ignoreeof", 'I'), ("interactive", 'i'), ("monitor", 'm'), ("noexec", 'n'),
    ("stdin", 's'), ("xtrace", 'x'), ("verbose", 'v'), ("vi", 'V'), ("emacs", 'E'), ("noclobber", 'C'),
    ("allexport", 'a'), ("notify", 'b'), ("nounset", 'u'), ("privileged", 'p'), ("nolog", 'L'), ("debug", 'D')]

def setFlag (on : Bool) (flag : Char) : Run Unit :=
  modifySession fun s =>
    let others := s.flags.filter (· ≠ flag)
    { s with flags := if on then flag :: others else others }

/-- Sets the flags of arguments, and gives the arguments behind them and whether these are to be taken. -/
def setFlags : List String → Run (List String × Bool)
  | [] => pure ([], false)
  | argument :: rest =>
    match argument.toList with
    | ['-'] => do
      setFlag false 'x'
      setFlag false 'v'
      pure (rest, !rest.isEmpty)
    | ['-', '-'] => pure (rest, true)
    | [sign, 'o'] =>
      if sign = '-' || sign = '+' then
        match rest with
        | [] => pure ([], false)
        | name :: rest => do
          match flagNames.lookup name with
          | some flag => setFlag (sign = '-') flag
          | none => fail s!"Illegal option -o {name}"
          setFlags rest
      else pure (argument :: rest, true)
    | sign :: letters =>
      if (sign = '-' || sign = '+') && !letters.isEmpty then do
        for letter in letters do
          if flagNames.any (·.2 = letter) then setFlag (sign = '-') letter else fail s!"Illegal option -{letter}"
        setFlags rest
      else pure (argument :: rest, true)
    | [] => pure (argument :: rest, true)

def setArguments (arguments : List String) : Run Unit := do
  setStatus 0
  let (rest, taken) ← setFlags arguments
  if taken then modifySession fun s => { s with arguments := rest }

def shift (arguments : List String) : Run Unit := do
  let n ← match arguments with
    | argument :: _ => count argument
    | [] => pure 1
  if (← session).arguments.length < n then fail "can't shift that many"
  modifySession fun s => { s with arguments := s.arguments.drop n, status := 0 }

end FormatAudit.Shell.Run
