import FormatAudit.Proofs.Interpreter.Detection

/-! What a search for interpreters finds and what it costs. In each track it ends with the first candidate that
qualifies, which is also the last one probed, or after all candidates if none qualifies. -/

namespace FormatAudit

namespace Track

/-- The executable reports a version, and that version meets the constraint. A failed probe and a report that cannot
be read disqualify a candidate as a version outside the constraint does. -/
def Qualifies (constraint : Requirement) (probe : Probe) (executable : String) (version : Version) : Prop :=
  ∃ raw, probe executable = .ok raw ∧ Version.ofReport? raw = some version ∧ constraint.admits version = true

inductive Searched (constraint : Requirement) (probe : Probe) : List String → Option Binding → List String → Prop
  | found (before : List String) {executable : String} {version : Version} (after : List String)
      (rejected : ∀ earlier ∈ before, ∀ other, ¬Qualifies constraint probe earlier other)
      (qualified : Qualifies constraint probe executable version) :
      Searched constraint probe (before ++ executable :: after) (some ⟨executable, version⟩)
        (before ++ [executable])
  | exhausted (candidates : List String)
      (rejected : ∀ candidate ∈ candidates, ∀ version, ¬Qualifies constraint probe candidate version) :
      Searched constraint probe candidates none candidates

variable {constraint : Requirement} {probe : Probe} {candidates probed : List String} {executable : String}

theorem bind?_eq_some_iff {binding : Binding} : bind? constraint probe executable = some binding ↔
    executable = binding.executable ∧ Qualifies constraint probe executable binding.version := by
  obtain ⟨name, version⟩ := binding
  unfold bind? Qualifies
  cases probe executable with
  | error cause => simp
  | ok raw =>
      simp only [Except.ok.injEq, exists_eq_left']
      cases Version.ofReport? raw with
      | none => simp
      | some reported =>
          simp only [Option.ite_none_right_eq_some, Option.some.injEq, Binding.mk.injEq]
          constructor
          · rintro ⟨admitted, same, rfl⟩
            exact ⟨same, rfl, admitted⟩
          · rintro ⟨same, rfl, admitted⟩
            exact ⟨admitted, same, rfl⟩

theorem Qualifies.version_eq {other : Requirement} {first second : Version}
    (qualified : Qualifies constraint probe executable first) (again : Qualifies other probe executable second) :
    first = second := by
  obtain ⟨raw, answer, reported, _⟩ := qualified
  obtain ⟨rawAgain, answerAgain, reportedAgain, _⟩ := again
  obtain rfl := Except.ok.inj (answer.symm.trans answerAgain)
  exact Option.some.inj (reported.symm.trans reportedAgain)

theorem bind?_eq_none_iff : bind? constraint probe executable = none ↔
    ∀ version, ¬Qualifies constraint probe executable version := by
  rw [Option.eq_none_iff_forall_ne_some]
  constructor
  · intro unbound version qualified
    exact unbound ⟨executable, version⟩ (bind?_eq_some_iff.mpr ⟨rfl, qualified⟩)
  · intro rejected binding bound
    exact rejected binding.version (bind?_eq_some_iff.mp bound).2

namespace Searched

theorem skip {binding : Option Binding} (searched : Searched constraint probe candidates binding probed)
    (rejected : ∀ version, ¬Qualifies constraint probe executable version) :
    Searched constraint probe (executable :: candidates) binding (executable :: probed) := by
  cases searched with
  | found before after earlier qualified =>
      exact .found (executable :: before) after (List.forall_mem_cons.mpr ⟨rejected, earlier⟩) qualified
  | exhausted _ others => exact .exhausted _ (List.forall_mem_cons.mpr ⟨rejected, others⟩)

theorem qualifies {binding : Binding} (searched : Searched constraint probe candidates (some binding) probed) :
    binding.executable ∈ candidates ∧ Qualifies constraint probe binding.executable binding.version := by
  cases searched with
  | found before after _ qualified => exact ⟨by simp, qualified⟩

theorem eq_none_iff {binding : Option Binding} (searched : Searched constraint probe candidates binding probed) :
    binding = none ↔ ∀ candidate ∈ candidates, ∀ version, ¬Qualifies constraint probe candidate version := by
  cases searched with
  | found before after _ qualified =>
      constructor
      · intro unbound
        cases unbound
      · intro rejected
        exact absurd qualified (rejected _ (by simp) _)
  | exhausted _ rejected => exact ⟨fun _ => rejected, fun _ => rfl⟩

end Searched

theorem searched_resolve (constraint : Requirement) (probe : Probe) (candidates : List String) :
    Searched constraint probe candidates (resolve constraint probe candidates).1
      (resolve constraint probe candidates).2 := by
  induction candidates with
  | nil => exact .exhausted [] (by simp)
  | cons executable rest ih =>
      rw [resolve_cons]
      cases bound : bind? constraint probe executable with
      | some binding =>
          obtain ⟨rfl, qualified⟩ := bind?_eq_some_iff.mp bound
          exact .found [] rest (by simp) qualified
      | none => exact ih.skip (bind?_eq_none_iff.mp bound)

example : resolve python3.constraint
    (fun executable =>
      if executable = "missing" then .error (.spawn executable .notFound)
      else if executable = "weird" then .ok "not a version"
      else if executable = "old" then .ok "2.7.18"
      else .ok "3.12.1\n")
    ["missing", "old", "weird", "good", "spare"] =
      (some ⟨"good", ⟨3, 12, 1, [], []⟩⟩, ["missing", "old", "weird", "good"]) := by decide +kernel

theorem qualifies_of_resolve {binding : Binding} (found : (resolve constraint probe candidates).1 = some binding) :
    binding.executable ∈ candidates ∧ Qualifies constraint probe binding.executable binding.version := by
  have searched := searched_resolve constraint probe candidates
  rw [found] at searched
  exact searched.qualifies

end Track

namespace Resolution

theorem mem_bindings_iff {resolution : Resolution} {binding : Binding} :
    binding ∈ resolution.bindings ↔ ∃ entry ∈ resolution.tracks, entry.binding = some binding := by
  simp [bindings, List.mem_filterMap]

def searchTrack (probe : Probe) (track : Track) : TrackBinding × List String :=
  (⟨track.name, (Track.resolve track.constraint probe track.candidates).1⟩,
    (Track.resolve track.constraint probe track.candidates).2)

theorem detect_eq_searches (tracks : List Track) (probe : Probe) : detect tracks probe =
    (⟨(tracks.map (searchTrack probe)).map (·.1)⟩, (tracks.map (searchTrack probe)).flatMap (·.2)) := by
  refine Prod.ext ?_ ?_
  · simp only [detect, List.map_map]
    rfl
  · rw [probed_detect, List.flatMap_map]
    rfl

theorem tracks_detect (tracks : List Track) (probe : Probe) :
    (detect tracks probe).1.tracks = tracks.map fun track => (searchTrack probe track).1 := by
  rw [detect_eq_searches, List.map_map]
  rfl

theorem qualifies_of_mem_bindings {tracks : List Track} {probe : Probe} {binding : Binding}
    (bound : binding ∈ (detect tracks probe).1.bindings) :
      ∃ track ∈ tracks, binding.executable ∈ track.candidates ∧
      Track.Qualifies track.constraint probe binding.executable binding.version := by
  obtain ⟨entry, member, holds⟩ := mem_bindings_iff.mp bound
  rw [tracks_detect] at member
  obtain ⟨track, inside, rfl⟩ := List.mem_map.mp member
  exact ⟨track, inside, Track.qualifies_of_resolve holds⟩

/-- A search has an entry for each track in turn, and probes for one track after the other; each track's own search
ends at its first candidate that qualifies, or finds nothing exactly if none does. Of any lookups in one cell only
the first searches, and all are given what it found. -/
theorem detect_finds_first (tracks : List Track) (probe : Probe) :
    (∃ searches : List (TrackBinding × List String),
      detect tracks probe = (⟨searches.map (·.1)⟩, searches.flatMap (·.2)) ∧
      List.Forall₂ (fun track search => search.1.track = track.name ∧
        Track.Searched track.constraint probe track.candidates search.1.binding search.2 ∧
        (search.1.binding = none ↔ ∀ candidate ∈ track.candidates, ∀ version,
          ¬Track.Qualifies track.constraint probe candidate version)) tracks searches) ∧
    ∀ later : List (List Track × Probe),
      lookUp none ((tracks, probe) :: later) =
        (List.replicate (later.length + 1) (detect tracks probe).1, (detect tracks probe).2) ∧
      lookUp (some (detect tracks probe).1) later = (List.replicate later.length (detect tracks probe).1, []) := by
  refine ⟨⟨tracks.map (searchTrack probe), detect_eq_searches tracks probe, ?_⟩,
    fun later => ⟨lookUp_empty tracks probe later, lookUp_filled _ later⟩⟩
  rw [List.forall₂_map_right_iff, List.forall₂_same]
  intro track _
  have searched := Track.searched_resolve track.constraint probe track.candidates
  exact ⟨rfl, searched, searched.eq_none_iff⟩

end Resolution

end FormatAudit
