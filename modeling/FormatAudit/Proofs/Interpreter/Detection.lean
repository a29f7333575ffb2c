import FormatAudit.Interpreter.Track
import Mathlib

/-! The executables that are probed to find interpreters. A search stops in each track at the first candidate that
can be bound, and a cell is searched for once. What one track has probed the next one does not know of. -/

namespace FormatAudit

namespace Track

variable {constraint : Requirement} {probe : Probe}

theorem resolve_cons (executable : String) (rest : List String) : resolve constraint probe (executable :: rest) =
    match bind? constraint probe executable with
    | some binding => (some binding, [executable])
    | none => ((resolve constraint probe rest).1, executable :: (resolve constraint probe rest).2) := by
  cases bound : bind? constraint probe executable with
  | some binding => simp only [resolve, bound]
  | none => simp only [resolve, bound]

theorem probed_prefix (candidates : List String) : (resolve constraint probe candidates).2 <+: candidates := by
  induction candidates with
  | nil => exact List.prefix_refl _
  | cons executable rest ih =>
      rw [resolve_cons]
      cases bind? constraint probe executable with
      | some binding => exact List.prefix_append [executable] rest
      | none => exact List.cons_prefix_cons.mpr ⟨rfl, ih⟩

theorem probed_pair (first second : String) : (resolve constraint probe [first, second]).2 =
    if (bind? constraint probe first).isSome then [first] else [first, second] := by
  rw [resolve_cons]
  cases bind? constraint probe first with
  | some binding => rfl
  | none =>
      rw [resolve_cons]
      cases bind? constraint probe second <;> rfl

end Track

namespace Resolution

theorem probed_detect (tracks : List Track) (probe : Probe) : (detect tracks probe).2 =
    tracks.flatMap fun track => (Track.resolve track.constraint probe track.candidates).2 := by
  simp only [detect, List.flatMap_map]

theorem probed_sublist (tracks : List Track) (probe : Probe) :
    (detect tracks probe).2.Sublist (tracks.flatMap (·.candidates)) := by
  rw [probed_detect]
  induction tracks with
  | nil => exact List.Sublist.refl _
  | cons track rest ih =>
      rw [List.flatMap_cons, List.flatMap_cons]
      exact (Track.probed_prefix track.candidates).sublist.append ih

def lookUp (cell : Option Resolution) : List (List Track × Probe) → List Resolution × List String
  | [] => ([], [])
  | (tracks, probe) :: rest =>
    let (found, probed) := detectOnce cell tracks probe
    let (others, more) := lookUp (some found) rest
    (found :: others, probed ++ more)

theorem lookUp_filled (held : Resolution) (requests : List (List Track × Probe)) :
    lookUp (some held) requests = (List.replicate requests.length held, []) := by
  induction requests with
  | nil => rfl
  | cons request rest ih =>
      obtain ⟨tracks, probe⟩ := request
      simp only [lookUp, detectOnce, ih]
      rfl

theorem lookUp_empty (tracks : List Track) (probe : Probe) (rest : List (List Track × Probe)) :
    lookUp none ((tracks, probe) :: rest) =
      (List.replicate (rest.length + 1) (detect tracks probe).1, (detect tracks probe).2) := by
  simp only [lookUp, detectOnce, lookUp_filled, List.append_nil]
  rfl

theorem probed_defaults (probe : Probe) : (detect Track.defaults probe).2 =
    (if (Track.bind? Track.python2.constraint probe "python2").isSome then ["python2"] else ["python2", "python"]) ++
      if (Track.bind? Track.python3.constraint probe "python3").isSome then ["python3"] else ["python3", "python"] := by
  rw [probed_detect, Track.defaults, List.flatMap_cons, List.flatMap_singleton]
  exact congrArg₂ _ (Track.probed_pair _ _) (Track.probed_pair _ _)

/-- Of any number of lookups in one cell the first makes all probes, and it makes each at most once for each track
that lists the executable. So with the default tracks an executable is probed twice exactly if neither `python2` nor
`python3` can be bound in its own track: then it is `python`, which both of them try next. -/
theorem lookUp_probes (probe : Probe) :
    (∀ (tracks : List Track) (rest : List (List Track × Probe)),
      (lookUp none ((tracks, probe) :: rest)).2 = (detect tracks probe).2 ∧
      (detect tracks probe).2.Sublist (tracks.flatMap (·.candidates))) ∧
    ∀ count : Nat,
      let probed := (lookUp none (List.replicate count (Track.defaults, probe))).2
      (probed.Nodup ↔ count = 0 ∨ (Track.bind? Track.python2.constraint probe "python2").isSome ∨
        (Track.bind? Track.python3.constraint probe "python3").isSome) ∧
      (¬probed.Nodup → probed = ["python2", "python", "python3", "python"]) := by
  refine ⟨?_, ?_⟩
  · intro tracks rest
    rw [lookUp_empty]
    exact ⟨rfl, probed_sublist tracks probe⟩
  · intro count probed
    cases count with
    | zero => exact ⟨by simp [probed, lookUp], by simp [probed, lookUp]⟩
    | succ count =>
        have made : probed = (detect Track.defaults probe).2 := by
          change (lookUp none (List.replicate (count + 1) _)).2 = _
          rw [List.replicate_succ, lookUp_empty]
        rw [made, probed_defaults]
        cases (Track.bind? Track.python2.constraint probe "python2").isSome <;>
          cases (Track.bind? Track.python3.constraint probe "python3").isSome <;> simp

/-- Where nothing can be run, `python` is probed for both tracks. -/
theorem python_probed_twice : ∃ probe : Probe,
    (lookUp none [(Track.defaults, probe)]).2 = ["python2", "python", "python3", "python"] ∧
    ¬(lookUp none [(Track.defaults, probe)]).2.Nodup :=
  ⟨fun executable => .error (.spawn executable .notFound), by decide, by decide⟩

end Resolution

end FormatAudit
