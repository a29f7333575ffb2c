import FormatAudit.Yaml.Node

/-!
Members that come from other mappings. The key `<<`, when it is not quoted, brings the members of a
mapping, or of each mapping of a sequence, into the one that it stands in; there they follow all others and
give way to them, and of two of them the later one counts. No mapping may name a key twice.
-/

namespace FormatAudit.Yaml

def isMergeKey : Yaml → Bool
  | .scalar key => key.plain && key.text = "<<"
  | _ => false

def sameKey : Yaml → Yaml → Bool
  | .scalar a, .scalar b => a.text = b.text
  | .sequence as _, .sequence bs _ => sameItems as bs
  | .mapping as _, .mapping bs _ => sameMembers as bs
  | _, _ => false
where
  sameItems : List Yaml → List Yaml → Bool
    | [], [] => true
    | a :: as, b :: bs => sameKey a b && sameItems as bs
    | _, _ => false
  sameMembers : List (Yaml × Yaml) → List (Yaml × Yaml) → Bool
    | [], [] => true
    | (a, x) :: as, (b, y) :: bs => sameKey a b && sameKey x y && sameMembers as bs
    | _, _ => false

def hasKey (members : List (Yaml × Yaml)) (key : Yaml) : Bool := members.any fun member => sameKey member.1 key

def isWhole : Yaml → Bool
  | .scalar _ => true
  | .sequence items whole => areWhole items && whole
  | .mapping members whole => areWholeMembers members && whole
  | .anchored _ _ | .alias _ | .broken => false
where
  areWhole : List Yaml → Bool
    | [] => true
    | item :: rest => isWhole item && areWhole rest
  areWholeMembers : List (Yaml × Yaml) → Bool
    | [] => true
    | (key, value) :: rest => isWhole key && isWhole value && areWholeMembers rest

def sources? : Yaml → Option (List (List (Yaml × Yaml)))
  | .scalar s => if s.isNull then some [] else none
  | .mapping members whole => if isWhole (.mapping members whole) then some [members] else none
  | .sequence items whole => if whole then sourcesOfItems items else none
  | _ => none
where
  sourcesOfItems : List Yaml → Option (List (List (Yaml × Yaml)))
    | [] => some []
    | item :: rest => do pure ((← sources? item) ++ (← sourcesOfItems rest))

def addMissing (members : List (Yaml × Yaml)) (more : List (Yaml × Yaml)) : List (Yaml × Yaml) :=
  more.foldl (fun members member => if hasKey members member.1 then members else members ++ [member]) members

def collect (taken : List (Yaml × Yaml)) (sources : List (List (Yaml × Yaml))) (whole : Bool) :
    List (Yaml × Yaml) → Yaml
  | [] => if whole then .mapping (sources.reverse.foldl addMissing taken) true else .mapping taken false
  | (key, value) :: rest =>
    if isMergeKey key then
      match sources? value with
      | some more => collect taken (sources ++ more) whole rest
      | none => .mapping taken false
    else if hasKey taken key then .mapping taken false
    else collect (taken ++ [(key, value)]) sources whole rest

/-- The value with all members in the mappings that they belong to, each mapping up to its first fault. -/
def merged : Yaml → Yaml
  | .sequence items whole => .sequence (mergedItems items) whole
  | .mapping members whole => collect [] [] whole (mergedMembers members)
  | value => value
where
  mergedItems : List Yaml → List Yaml
    | [] => []
    | item :: rest => merged item :: mergedItems rest
  mergedMembers : List (Yaml × Yaml) → List (Yaml × Yaml)
    | [] => []
    | (key, value) :: rest => (key, merged value) :: mergedMembers rest

end FormatAudit.Yaml
