import FormatAudit.Yaml.Node
import FormatAudit.Yaml.Token.Basic

/-!
Values as sequences of tokens. Where the tokens come to their end before the end of the text, reading
stops. Every way to read a value leaves no more tokens than there were.
-/

namespace FormatAudit.Yaml

abbrev UpTo (n : Nat) := { tokens : List Token // tokens.length ≤ n }

def UpTo.widen {m n : Nat} (fewer : m ≤ n) (rest : UpTo m) : UpTo n := ⟨rest.1, Nat.le_trans rest.2 fewer⟩

/-- A value and the tokens after it, if reading did not stop in it. -/
structure Reading (n : Nat) where
  node : Yaml
  rest : Option (UpTo n)

/-- The items of a sequence, and the tokens after its end if it has been reached. -/
structure ItemRun (n : Nat) where
  items : List Yaml
  rest : Option (UpTo n)

/-- The members of a mapping, and the tokens after its end if it has been reached. -/
structure MemberRun (n : Nat) where
  members : List (Yaml × Yaml)
  rest : Option (UpTo n)

variable {m n : Nat}

def Reading.broken : Reading n := ⟨.broken, none⟩

def Reading.map (f : Yaml → Yaml) (r : Reading n) : Reading n := { r with node := f r.node }

def Reading.widen (fewer : m ≤ n) (r : Reading m) : Reading n := ⟨r.node, r.rest.map (.widen fewer)⟩

def ItemRun.stopped : ItemRun n := ⟨[], none⟩

def ItemRun.cons (item : Yaml) (fewer : m ≤ n) (r : ItemRun m) : ItemRun n :=
  ⟨item :: r.items, r.rest.map (.widen fewer)⟩

def ItemRun.toReading (fewer : m ≤ n) (r : ItemRun m) : Reading n :=
  ⟨.sequence r.items r.rest.isSome, r.rest.map (.widen fewer)⟩

def MemberRun.stopped : MemberRun n := ⟨[], none⟩

def MemberRun.cons (key value : Yaml) (fewer : m ≤ n) (r : MemberRun m) : MemberRun n :=
  ⟨(key, value) :: r.members, r.rest.map (.widen fewer)⟩

def MemberRun.toReading (fewer : m ≤ n) (r : MemberRun m) : Reading n :=
  ⟨.mapping r.members r.rest.isSome, r.rest.map (.widen fewer)⟩

abbrev TagPrefixes := List (String × String)

def tagName? (prefixes : TagPrefixes) (handle suffix : String) : Option String :=
  match prefixes.find? (·.1 = handle) with
  | some (_, value) => some (value ++ suffix)
  | none =>
    if handle = "!!" then some ("tag:yaml.org,2002:" ++ suffix)
    else if handle.length < 2 then some (handle ++ suffix)
    else none

def textTag : String := "tag:yaml.org,2002:str"

structure Properties where
  anchor : Option String
  tag : Option String
  deriving DecidableEq, Repr

namespace Properties

def none : Properties := ⟨.none, .none⟩

def isNone (p : Properties) : Bool := p.anchor.isNone && p.tag.isNone

def onScalar (p : Properties) (s : Scalar) : Scalar := { s with plain := s.plain && p.tag ≠ some textTag }

def onNode (p : Properties) (value : Yaml) : Yaml :=
  let value := match value with
    | .scalar s => .scalar (p.onScalar s)
    | value => value
  match p.anchor with
  | some name => .anchored name value
  | .none => value

end Properties

def readProperties (prefixes : TagPrefixes) (tokens : List Token) : Option (Properties × UpTo tokens.length) :=
  match tokens with
  | .anchor name :: .tag handle suffix :: rest =>
    (tagName? prefixes handle suffix).map fun tag =>
      (⟨some name, some tag⟩, ⟨rest, by simp only [List.length_cons]; omega⟩)
  | .tag handle suffix :: .anchor name :: rest =>
    (tagName? prefixes handle suffix).map fun tag =>
      (⟨some name, some tag⟩, ⟨rest, by simp only [List.length_cons]; omega⟩)
  | .anchor name :: rest => some (⟨some name, none⟩, ⟨rest, by simp⟩)
  | .tag handle suffix :: rest =>
    (tagName? prefixes handle suffix).map fun tag => (⟨none, some tag⟩, ⟨rest, by simp⟩)
  | tokens => some (.none, ⟨tokens, Nat.le_refl _⟩)

inductive Slot
  | document
  | blockKey
  | blockValue
  | item
  | dashItem
  | pairKey
  | pairValue
  | memberKey
  | memberValue
  | flowItem
  deriving DecidableEq, Repr

namespace Slot

def allowsBlock : Slot → Bool
  | document | blockKey | blockValue | item | dashItem => true
  | _ => false

def allowsDash : Slot → Bool
  | blockKey | blockValue => true
  | _ => false

def isVacant : Slot → Token → Bool
  | document, token => token.endsDocument
  | blockKey, token | blockValue, token => token ∈ [.key, .colon, .blockEnd]
  | item, token => token ∈ [.dash, .blockEnd]
  | dashItem, token => token ∈ [.dash, .key, .colon, .blockEnd]
  | pairKey, token => token ∈ [.colon, .comma, .flowSequenceEnd]
  | pairValue, token => token ∈ [.comma, .flowSequenceEnd]
  | memberKey, token => token ∈ [.colon, .comma, .flowMappingEnd]
  | memberValue, token => token ∈ [.comma, .flowMappingEnd]
  | flowItem, _ => false

end Slot

def onlyProperties (properties : Properties) (tokens : List Token) : Reading tokens.length :=
  if properties.isNone || tokens.isEmpty then .broken
  else ⟨.scalar ⟨"", true⟩, some ⟨tokens, Nat.le_refl _⟩⟩

mutual

def readNode (prefixes : TagPrefixes) (slot : Slot) (tokens : List Token) : Reading tokens.length :=
  match readProperties prefixes tokens with
  | none => .broken
  | some (properties, ⟨rest, fewer⟩) =>
    ((readContent prefixes slot properties rest).map properties.onNode).widen fewer
termination_by 5 * tokens.length + 2

def readContent (prefixes : TagPrefixes) (slot : Slot) (properties : Properties) (tokens : List Token) :
    Reading tokens.length :=
  match tokens with
  | .scalar s :: rest => ⟨.scalar s, some ⟨rest, by simp⟩⟩
  | .alias name :: rest => if properties.isNone then ⟨.alias name, some ⟨rest, by simp⟩⟩
    else onlyProperties properties (.alias name :: rest)
  | .flowSequence :: rest => (readFlowItems prefixes rest).toReading (by simp)
  | .flowMapping :: rest => (readFlowMembers prefixes rest).toReading (by simp)
  | .dash :: rest =>
    if slot.allowsDash then (readDashItems prefixes (.dash :: rest)).toReading (Nat.le_refl _)
    else onlyProperties properties (.dash :: rest)
  | .blockSequence :: rest =>
    if slot.allowsBlock then (readBlockItems prefixes rest).toReading (by simp)
    else onlyProperties properties (.blockSequence :: rest)
  | .blockMapping :: rest =>
    if slot.allowsBlock then (readBlockMembers prefixes rest).toReading (by simp)
    else onlyProperties properties (.blockMapping :: rest)
  | tokens => onlyProperties properties tokens
termination_by 5 * tokens.length + 1

def readOptional (prefixes : TagPrefixes) (slot : Slot) (tokens : List Token) : Reading tokens.length :=
  if tokens.head?.any slot.isVacant then ⟨absent, some ⟨tokens, Nat.le_refl _⟩⟩
  else readNode prefixes slot tokens
termination_by 5 * tokens.length + 3

/-- Reads the value of a key, in front of which a colon stands if it is written. -/
def readValue (prefixes : TagPrefixes) (slot : Slot) (tokens : List Token) : Reading tokens.length :=
  match tokens with
  | [] => .broken
  | .colon :: rest => (readOptional prefixes slot rest).widen (by simp)
  | token :: rest => ⟨absent, some ⟨token :: rest, Nat.le_refl _⟩⟩
termination_by 5 * tokens.length

def readDashItems (prefixes : TagPrefixes) (tokens : List Token) : ItemRun tokens.length :=
  match tokens with
  | [] => .stopped
  | .dash :: rest =>
    let item := readOptional prefixes .dashItem rest
    match item.rest with
    | none => ⟨[item.node], none⟩
    | some ⟨after, fewer⟩ => (readDashItems prefixes after).cons item.node (by simp only [List.length_cons]; omega)
  | token :: rest => ⟨[], some ⟨token :: rest, Nat.le_refl _⟩⟩
termination_by 5 * tokens.length

def readBlockItems (prefixes : TagPrefixes) (tokens : List Token) : ItemRun tokens.length :=
  match tokens with
  | .blockEnd :: rest => ⟨[], some ⟨rest, by simp⟩⟩
  | .dash :: rest =>
    let item := readOptional prefixes .item rest
    match item.rest with
    | none => ⟨[item.node], none⟩
    | some ⟨after, fewer⟩ => (readBlockItems prefixes after).cons item.node (by simp only [List.length_cons]; omega)
  | _ => .stopped
termination_by 5 * tokens.length

def readBlockMembers (prefixes : TagPrefixes) (tokens : List Token) : MemberRun tokens.length :=
  match tokens with
  | .blockEnd :: rest => ⟨[], some ⟨rest, by simp⟩⟩
  | .key :: rest =>
    let key := readOptional prefixes .blockKey rest
    match key.rest with
    | none => ⟨[(key.node, .broken)], none⟩
    | some ⟨colon, keyFewer⟩ =>
      let value := readValue prefixes .blockValue colon
      match value.rest with
      | none => ⟨[(key.node, value.node)], none⟩
      | some ⟨after, fewer⟩ =>
        (readBlockMembers prefixes after).cons key.node value.node (by simp only [List.length_cons]; omega)
  | .colon :: rest =>
    let value := readOptional prefixes .blockValue rest
    match value.rest with
    | none => ⟨[(absent, value.node)], none⟩
    | some ⟨after, fewer⟩ =>
      (readBlockMembers prefixes after).cons absent value.node (by simp only [List.length_cons]; omega)
  | _ => .stopped
termination_by 5 * tokens.length

/-- Reads a pair that is an item of a flow sequence, behind the mark of its key. What shows that no key is
written is taken for the key. -/
def readPair (prefixes : TagPrefixes) (tokens : List Token) : Reading tokens.length :=
  let key : Reading tokens.length :=
    if tokens.head?.any Slot.pairKey.isVacant then ⟨absent, some ⟨tokens.drop 1, by simp⟩⟩
    else readNode prefixes .pairKey tokens
  match key.rest with
  | none => ⟨.mapping [(key.node, .broken)] false, none⟩
  | some ⟨colon, fewer⟩ =>
    let value := (readValue prefixes .pairValue colon).widen fewer
    let rest := value.rest.filter (!·.1.isEmpty)
    ⟨.mapping [(key.node, value.node)] rest.isSome, rest⟩
termination_by 5 * tokens.length + 3

def readFlowItems (prefixes : TagPrefixes) (tokens : List Token) : ItemRun tokens.length :=
  match tokens with
  | [] => .stopped
  | .flowSequenceEnd :: rest => ⟨[], some ⟨rest, by simp⟩⟩
  | token :: rest =>
    let item : Reading (rest.length + 1) :=
      if token = .key then (readPair prefixes rest).widen (Nat.le_succ _)
      else readNode prefixes .flowItem (token :: rest)
    match item.rest with
    | some ⟨.comma :: after, fewer⟩ =>
      have : after.length < rest.length + 1 := fewer
      (readFlowItems prefixes after).cons item.node (Nat.le_of_lt this)
    | some ⟨.flowSequenceEnd :: after, fewer⟩ => ⟨[item.node], some ⟨after, Nat.le_of_lt fewer⟩⟩
    | _ => ⟨[item.node], none⟩
termination_by 5 * tokens.length + 3

def readFlowMembers (prefixes : TagPrefixes) (tokens : List Token) : MemberRun tokens.length :=
  match tokens with
  | [] => .stopped
  | .flowMappingEnd :: rest => ⟨[], some ⟨rest, by simp⟩⟩
  | token :: rest =>
    let key : Reading (rest.length + 1) :=
      if token = .key then (readOptional prefixes .memberKey rest).widen (Nat.le_succ _)
      else if token = .colon then ⟨absent, some ⟨token :: rest, Nat.le_refl _⟩⟩
      else readNode prefixes .memberKey (token :: rest)
    match key.rest with
    | none => ⟨[(key.node, .broken)], none⟩
    | some ⟨colon, keyFewer⟩ =>
      let value : Reading (rest.length + 1) :=
        if token = .key || token = .colon then (readValue prefixes .memberValue colon).widen keyFewer
        else if colon.isEmpty then .broken
        else ⟨absent, some ⟨colon, keyFewer⟩⟩
      match value.rest with
      | some ⟨.comma :: after, fewer⟩ =>
        have : after.length < rest.length + 1 := fewer
        (readFlowMembers prefixes after).cons key.node value.node (Nat.le_of_lt this)
      | some ⟨.flowMappingEnd :: after, fewer⟩ =>
          ⟨[(key.node, value.node)], some ⟨after, Nat.le_of_lt fewer⟩⟩
      | _ => ⟨[(key.node, value.node)], none⟩
termination_by 5 * tokens.length + 4
decreasing_by all_goals simp only [List.length_cons]; omega

end

end FormatAudit.Yaml
