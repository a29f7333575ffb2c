import FormatAudit.Fields
import FormatAudit.Number.Binary64

/-!
Syntax trees as a formatter reports them: scalars, sequences, and nodes with named fields. Two trees
are the same when they hold the same scalars in the same places; the order of fields is no part of it.
-/

namespace FormatAudit

inductive Tree
  | null
  | boolean (value : Bool)
  | integer (value : Int)
  | float (value : Binary64)
  | text (value : String)
  | sequence (items : List Tree)
  | mapping (fields : List (String × Tree))
  deriving Repr

namespace Tree

def kindField : String := "type"

def kindOf (fields : Fields Tree) : Option String :=
  match Fields.get? fields kindField with
  | some (.text kind) => some kind
  | _ => none

def kind : Tree → Option String
  | .mapping fields => kindOf fields
  | _ => none

def ofFields (pairs : List (String × Tree)) : Tree := .mapping (Fields.ofList pairs)

def same : Tree → Tree → Bool
  | .null, .null => true
  | .boolean a, .boolean b => a == b
  | .integer a, .integer b => a == b
  | .float a, .float b => a.equal b
  | .text a, .text b => a == b
  | .sequence as, .sequence bs => sameItems as bs
  | .mapping as, .mapping bs => as.length == bs.length && sameFields as bs
  | _, _ => false
where
  sameItems : List Tree → List Tree → Bool
    | [], [] => true
    | a :: as, b :: bs => same a b && sameItems as bs
    | _, _ => false
  sameFields : List (String × Tree) → List (String × Tree) → Bool
    | [], _ => true
    | (name, a) :: rest, bs =>
      (match Fields.get? bs name with
      | some b => same a b
      | none => false) && sameFields rest bs

/-- A size of a tree: one for each tree in it and one for each place of an item or a field. -/
def weight : Tree → Nat
  | .sequence items => 1 + itemsWeight items
  | .mapping fields => 1 + fieldsWeight fields
  | _ => 1
where
  itemsWeight : List Tree → Nat
    | [] => 0
    | item :: rest => 1 + item.weight + itemsWeight rest
  fieldsWeight : List (String × Tree) → Nat
    | [] => 0
    | (_, value) :: rest => 1 + value.weight + fieldsWeight rest

def WellKeyed : Tree → Prop
  | .sequence items => keyedItems items
  | .mapping fields => Fields.Distinct fields ∧ keyedFields fields
  | _ => True
where
  keyedItems : List Tree → Prop
    | [] => True
    | item :: rest => item.WellKeyed ∧ keyedItems rest
  keyedFields : List (String × Tree) → Prop
    | [] => True
    | (_, value) :: rest => value.WellKeyed ∧ keyedFields rest

end Tree

end FormatAudit
