import FormatAudit.Yaml.Scalar

/-!
What a YAML text holds, up to the first place where it is not YAML. A collection in which reading
stops is kept as far as it goes and marked as not whole; where nothing could be read of a value, it is
`broken`. Aliases are replaced by what their anchors stand on.
-/

namespace FormatAudit

inductive Yaml
  | scalar (value : Yaml.Scalar)
  | sequence (items : List Yaml) (whole : Bool)
  | mapping (members : List (Yaml × Yaml)) (whole : Bool)
  | anchored (name : String) (value : Yaml)
  | alias (name : String)
  | broken
  deriving Repr

namespace Yaml

def absent : Yaml := .scalar .absent

def weight : Yaml → Nat
  | .scalar _ => 1
  | .sequence items _ => weightOfItems items + 2
  | .mapping members _ => weightOfMembers members + 2
  | .anchored _ value => weight value
  | .alias _ | .broken => 0
where
  weightOfItems : List Yaml → Nat
    | [] => 0
    | item :: rest => weight item + weightOfItems rest
  weightOfMembers : List (Yaml × Yaml) → Nat
    | [] => 0
    | (key, value) :: rest => weight key + weight value + weightOfMembers rest

/-- What the anchors of a text stand on: the number of the last one of each name, the values of those that
are complete, and the weight that aliases may still bring in. -/
structure Anchors where
  numbers : List (String × Nat)
  values : List (Nat × Yaml)
  room : Nat

namespace Anchors

def maxWeight : Nat := 1000000

def start : Anchors := ⟨[], [], maxWeight⟩

def enter (anchors : Anchors) (name : String) : Nat × Anchors :=
  let number := anchors.numbers.length
  (number, { anchors with numbers := (name, number) :: anchors.numbers })

def complete (anchors : Anchors) (number : Nat) (value : Yaml) : Anchors :=
  { anchors with values := (number, value) :: anchors.values }

def value? (anchors : Anchors) (name : String) : Option Yaml := do
  let (_, number) ← anchors.numbers.find? (·.1 = name)
  let (_, value) ← anchors.values.find? (·.1 = number)
  pure value

def use (anchors : Anchors) (name : String) : Yaml × Anchors :=
  match anchors.value? name with
  | none => (.broken, anchors)
  | some value =>
    let weight := value.weight
    if anchors.room < weight then (.broken, { anchors with room := 0 })
    else (value, { anchors with room := anchors.room - weight })

end Anchors

def resolve (anchors : Anchors) : Yaml → Yaml × Anchors
  | .scalar value => (.scalar value, anchors)
  | .sequence items whole =>
    let (items, anchors) := resolveItems anchors items
    (.sequence items whole, anchors)
  | .mapping members whole =>
    let (members, anchors) := resolveMembers anchors members
    (.mapping members whole, anchors)
  | .anchored name value =>
    let (number, anchors) := anchors.enter name
    let (value, anchors) := resolve anchors value
    (value, anchors.complete number value)
  | .alias name => anchors.use name
  | .broken => (.broken, anchors)
where
  resolveItems (anchors : Anchors) : List Yaml → List Yaml × Anchors
    | [] => ([], anchors)
    | item :: rest =>
      let (item, anchors) := resolve anchors item
      let (rest, anchors) := resolveItems anchors rest
      (item :: rest, anchors)
  resolveMembers (anchors : Anchors) : List (Yaml × Yaml) → List (Yaml × Yaml) × Anchors
    | [] => ([], anchors)
    | (key, value) :: rest =>
      let (key, anchors) := resolve anchors key
      let (value, anchors) := resolve anchors value
      let (rest, anchors) := resolveMembers anchors rest
      ((key, value) :: rest, anchors)

end Yaml

end FormatAudit
