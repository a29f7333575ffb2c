import FormatAudit.Fields
import FormatAudit.Failure
import FormatAudit.Formatter.Basic

/-!
Snapshots hold a source and the output for it with a line of tildes between. A store compares a
snapshot with what it holds under a name; the first one recorded under a name becomes what is held.
-/

namespace FormatAudit

namespace Snapshot

def separatorWidth : Nat := 80

def separatorChar : Char := '~'

def separator : List Char := List.replicate separatorWidth separatorChar ++ ['\n']

def compose (source output : String) : String := source ++ String.ofList separator ++ output

end Snapshot

/-- A place where snapshots are recorded under names; recording may fail or crash. -/
structure SnapshotStore (σ : Type) where
  record : σ → (name content : String) → Attempt UnitFailure Unit × σ

structure MemoryStore where
  entries : Fields String
  deriving DecidableEq, Repr

namespace MemoryStore

def ofBaselines (baselines : List (String × String)) : MemoryStore := ⟨Fields.ofList baselines⟩

def get? (store : MemoryStore) (name : String) : Option String := store.entries.get? name

def size (store : MemoryStore) : Nat := store.entries.length

def mismatch (name stored content : String) : UnitFailure :=
  .snapshot name s!"expected:\n{stored}\nactual:\n{content}"

def record (store : MemoryStore) (name content : String) : Verdict × MemoryStore :=
  match store.get? name with
  | some stored => (if stored = content then .ok () else .error (mismatch name stored content), store)
  | none => (.ok (), ⟨store.entries.insert name content⟩)

def snapshots : SnapshotStore MemoryStore :=
  ⟨fun store name content =>
    let (verdict, store) := store.record name content
    (.ofExcept verdict, store)⟩

end MemoryStore

end FormatAudit
