import FormatAudit.Decoding.Basic
import FormatAudit.Formatter.Basic
import FormatAudit.Setting

/-!
Reading trees, option values and parse reports from JSON. A tree takes every value, an option value
every one but null; integers have to fit 64 bits with a sign.
-/

namespace FormatAudit.Decoder

def maxInteger : Int := Nat.pow 2 63 - 1

def number {α : Type} (ofInteger : Int → α) (ofFloat : Binary64 → α) (numeral : Json.Numeral) :
    Except DecodeError α := do
  match ← ofFault numeral.value with
  | .integer n => if n ≤ maxInteger then .ok (ofInteger n) else .error (.integerTooLarge n)
  | .float x => .ok (ofFloat x)

def tree (room : Nat) : Json → Except DecodeError Tree
  | .null => .ok .null
  | .boolean value => .ok (.boolean value)
  | .number numeral => number .integer .float numeral
  | .text token => .text <$> ofFault token.value
  | .array items stop =>
    match room with
    | 0 => .error .tooDeep
    | room + 1 => do
      let items ← treeItems room items
      ended stop
      pure (.sequence items)
  | .object members stop =>
    match room with
    | 0 => .error .tooDeep
    | room + 1 => do
      let pairs ← treeMembers room members
      ended stop
      pure (.ofFields pairs)
  | .broken fault => .error (.fault fault)
where
  treeItems (room : Nat) : List Json → Except DecodeError (List Tree)
    | [] => .ok []
    | item :: rest => do
      let item ← tree room item
      let rest ← treeItems room rest
      pure (item :: rest)
  treeMembers (room : Nat) : List (Json.StringToken × Json) → Except DecodeError (List (String × Tree))
    | [] => .ok []
    | (key, value) :: rest => do
      let key ← ofFault key.value
      let value ← tree room value
      let rest ← treeMembers room rest
      pure ((key, value) :: rest)

def setting (room : Nat) : Json → Except DecodeError Setting
  | .null => .error .nullSetting
  | .boolean value => .ok (.boolean value)
  | .number numeral => number .integer .float numeral
  | .text token => .text <$> ofFault token.value
  | .array items stop =>
    match room with
    | 0 => .error .tooDeep
    | room + 1 => do
      let items ← settingItems room items
      ended stop
      pure (.sequence items)
  | .object members stop =>
    match room with
    | 0 => .error .tooDeep
    | room + 1 => do
      let pairs ← settingMembers room members
      ended stop
      pure (.mapping (Fields.ofList pairs))
  | .broken fault => .error (.fault fault)
where
  settingItems (room : Nat) : List Json → Except DecodeError (List Setting)
    | [] => .ok []
    | item :: rest => do
      let item ← setting room item
      let rest ← settingItems room rest
      pure (item :: rest)
  settingMembers (room : Nat) : List (Json.StringToken × Json) → Except DecodeError (List (String × Setting))
    | [] => .ok []
    | (key, value) :: rest => do
      let key ← ofFault key.value
      let value ← setting room value
      let rest ← settingMembers room rest
      pure ((key, value) :: rest)

def errorList : Decoder (List String) := texts "a string"

structure ReportMembers where
  tree : Option Tree
  errors : Option (List String)

def reportMembers (room : Nat) (found : ReportMembers) :
    List (Json.StringToken × Json) → Except DecodeError ReportMembers
  | [] => .ok found
  | (key, value) :: rest => do
    let key ← ofFault key.value
    if key = "ast" then
      if found.tree.isSome then .error (.duplicateField "ast")
      else reportMembers room { found with tree := some (← tree room value) } rest
    else if key = "errors" then
      if found.errors.isSome then .error (.duplicateField "errors")
      else reportMembers room { found with errors := some (← errorList room value) } rest
    else do
      skip value
      reportMembers room found rest

def reportOfItems (room : Nat) (items : List Json) (stop : Option Json.Fault) : Except DecodeError ParseReport :=
  match items with
  | [] => do
    ended stop
    .error (.tooShort 0 "struct ParseResult with 2 elements")
  | [first] => do
    let tree ← tree room first
    ended stop
    pure (.clean tree)
  | first :: second :: rest => do
    let tree ← tree room first
    let errors ← errorList room second
    noMore rest stop
    pure ⟨tree, errors⟩

/-- A parse report as an object, of which members of other names are stepped over, or as a list. -/
def parseReport : Decoder ParseReport
  | room, .array items stop => descend room fun room => reportOfItems room items stop
  | room, .object members stop => descend room fun room => do
    let found ← reportMembers room ⟨none, none⟩ members
    ended stop
    match found.tree with
    | none => .error (.missingField "ast")
    | some tree => .ok ⟨tree, found.errors.getD []⟩
  | _, value => mismatch "struct ParseResult" value

end FormatAudit.Decoder
