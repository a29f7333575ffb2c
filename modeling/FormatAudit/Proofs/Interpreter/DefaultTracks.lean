import FormatAudit.Proofs.Interpreter.Selection
import FormatAudit.Proofs.Version.Releases
import FormatAudit.Proofs.Version.Reported

/-! What the default tracks can bind. Their constraints name no pre-release and have no version in common, so both
tracks bind releases only, and not the same executable: a suite without a range loses none of what they bind. -/

namespace FormatAudit

namespace Track

theorem admits_python2_iff {v : Version} : python2.constraint.admits v = true ↔
    v.pre = [] ∧ toLex (2, toLex (7, 0)) ≤ v.numbers ∧ v.numbers < toLex (3, toLex (0, 0)) := by
  rw [Requirement.admits_iff_of_plain (by decide)]
  refine and_congr_right fun release => ?_
  simp [python2, atLeast, below, Comparator.admits_greaterEq_iff release, Comparator.admits_less_iff release]

theorem admits_python3_iff {v : Version} : python3.constraint.admits v = true ↔
    v.pre = [] ∧ toLex (3, toLex (0, 0)) ≤ v.numbers := by
  rw [Requirement.admits_iff_of_plain (by decide)]
  refine and_congr_right fun release => ?_
  simp [python3, atLeast, Comparator.admits_greaterEq_iff release]

theorem executable_ne_of_qualifies {probe : Probe} {old new : Binding}
    (qualified : Qualifies python2.constraint probe old.executable old.version)
    (qualifiedToo : Qualifies python3.constraint probe new.executable new.version) :
      old.executable ≠ new.executable := by
  intro same
  rw [same] at qualified
  have version : old.version = new.version := qualified.version_eq qualifiedToo
  obtain ⟨_, _, _, below⟩ := qualified
  obtain ⟨_, _, _, above⟩ := qualifiedToo
  rw [version, admits_python2_iff] at below
  exact absurd (admits_python3_iff.mp above).2 (not_le_of_gt below.2.2)

end Track

theorem Version.trim_eq_text_of_release {raw : String} {v : Version} (reported : ofReport? raw = some v)
    (release : v.pre = []) : Text.trim raw = v.text := by
  obtain ⟨_, plain | ⟨letter, _⟩⟩ := ofReport?_eq_some_iff.mp reported
  · exact plain
  · rw [startsWithLetter, release] at letter
    cases letter

namespace Resolution

variable {probe : Probe}

theorem bindings_defaults (probe : Probe) : (detect Track.defaults probe).1.bindings =
    (Track.resolve Track.python2.constraint probe Track.python2.candidates).1.toList ++
      (Track.resolve Track.python3.constraint probe Track.python3.candidates).1.toList := by
  simp only [bindings, tracks_detect, searchTrack, Track.defaults, List.map_cons, List.map_nil]
  cases (Track.resolve Track.python2.constraint probe Track.python2.candidates).1 <;>
    cases (Track.resolve Track.python3.constraint probe Track.python3.candidates).1 <;> rfl

theorem release_of_mem_defaults {binding : Binding} (bound : binding ∈ (detect Track.defaults probe).1.bindings) :
    ∃ raw, probe binding.executable = .ok raw ∧ Version.ofReport? raw = some binding.version ∧
      binding.version.pre = [] := by
  obtain ⟨track, member, _, raw, answer, reported, admitted⟩ := qualifies_of_mem_bindings bound
  have plain : ∀ track ∈ Track.defaults, ∀ c ∈ track.constraint.comparators, c.pre = [] := by decide
  exact ⟨raw, answer, reported, ((Requirement.admits_iff_of_plain (plain track member)).mp admitted).1⟩

theorem nodup_executables_defaults (probe : Probe) :
    ((detect Track.defaults probe).1.bindings.map (·.executable)).Nodup := by
  rw [bindings_defaults]
  cases old : (Track.resolve Track.python2.constraint probe Track.python2.candidates).1 with
  | none => cases (Track.resolve Track.python3.constraint probe Track.python3.candidates).1 <;> simp
  | some binding =>
      cases new : (Track.resolve Track.python3.constraint probe Track.python3.candidates).1 with
      | none => simp
      | some other =>
          have different := Track.executable_ne_of_qualifies (Track.qualifies_of_resolve old).2
            (Track.qualifies_of_resolve new).2
          simp [different]

/-- The default tracks bind releases, below and from 3.0.0 on, and never the same executable. An executable that
reports a pre-release, with its hyphen or without, is bound by neither. So a suite that takes every version runs under
all that the tracks bind. -/
theorem defaults_bind_releases (probe : Probe) :
    let resolution := (detect Track.defaults probe).1
    (∃ old new : Option Binding, resolution.tracks = [⟨"python2", old⟩, ⟨"python3", new⟩] ∧
      (∀ binding ∈ old, binding.version.pre = [] ∧ toLex (2, toLex (7, 0)) ≤ binding.version.numbers ∧
        binding.version.numbers < toLex (3, toLex (0, 0))) ∧
      (∀ binding ∈ new, binding.version.pre = [] ∧ toLex (3, toLex (0, 0)) ≤ binding.version.numbers) ∧
      ∀ binding ∈ old, ∀ other ∈ new, binding.executable ≠ other.executable) ∧
    (∀ binding ∈ resolution.bindings, ∃ raw, probe binding.executable = .ok raw ∧
      Text.trim raw = binding.version.text) ∧
    (∀ (executable raw : String) (version : Version), probe executable = .ok raw → version.WellFormed →
      version.pre ≠ [] →
      (Text.trim raw = version.text ∨ version.startsWithLetter = true ∧ Text.trim raw = version.gluedText) →
      ∀ binding ∈ resolution.bindings, binding.executable ≠ executable) ∧
    ∀ coverage, (InterpreterSet.build resolution .any coverage).bindings = resolution.bindings := by
  intro resolution
  refine ⟨⟨(Track.resolve Track.python2.constraint probe Track.python2.candidates).1,
    (Track.resolve Track.python3.constraint probe Track.python3.candidates).1,
      tracks_detect Track.defaults probe, ?_, ?_, ?_⟩,
    ?_, ?_, ?_⟩
  · intro binding found
    obtain ⟨_, _, _, _, admitted⟩ := Track.qualifies_of_resolve found
    exact Track.admits_python2_iff.mp admitted
  · intro binding found
    obtain ⟨_, _, _, _, admitted⟩ := Track.qualifies_of_resolve found
    exact Track.admits_python3_iff.mp admitted
  · intro binding found other foundToo
    exact Track.executable_ne_of_qualifies (Track.qualifies_of_resolve found).2 (Track.qualifies_of_resolve foundToo).2
  · intro binding bound
    obtain ⟨raw, answer, reported, release⟩ := release_of_mem_defaults bound
    exact ⟨raw, answer, Version.trim_eq_text_of_release reported release⟩
  · intro executable raw version answer wellFormed prerelease text binding bound same
    obtain ⟨rawToo, answerToo, reported, release⟩ := release_of_mem_defaults bound
    rw [same, answer] at answerToo
    obtain rfl := Except.ok.inj answerToo
    have read : Version.ofReport? raw = some version := Version.ofReport?_eq_some_iff.mpr ⟨wellFormed, text⟩
    obtain rfl := Option.some.inj (read.symm.trans reported)
    exact prerelease release
  · intro coverage
    have every : resolution.bindings.filter (VersionRange.any.admits ·.version) = resolution.bindings :=
      List.filter_eq_self.mpr fun _ _ => rfl
    rw [InterpreterSet.bindings_build, every]
    exact firstUses_of_nodup (nodup_executables_defaults probe)

def Sample.host : Probe := fun executable =>
  if executable = "python3" then .ok "3.13.0rc2\n"
  else if executable = "python" then .ok "3.12.1\n"
  else .error (.spawn executable .notFound)

theorem sample_defaults_bind_releases :
    (detect Track.defaults Sample.host).1.bindings = [⟨"python", ⟨3, 12, 1, [], []⟩⟩] ∧
    Sample.host "python3" = .ok "3.13.0rc2\n" ∧
      Text.trim "3.13.0rc2\n" = Version.gluedText ⟨3, 13, 0, ["rc2"], []⟩ ∧
    (∀ binding ∈ (detect Track.defaults Sample.host).1.bindings, binding.executable ≠ "python3") ∧
    (InterpreterSet.build (detect Track.defaults Sample.host).1 .any .all).bindings =
      (detect Track.defaults Sample.host).1.bindings := by
  have strict : Version.parse "3.13.0-rc2" = .ok ⟨3, 13, 0, ["rc2"], []⟩ := by decide +kernel
  have glued : Text.trim "3.13.0rc2\n" = Version.gluedText ⟨3, 13, 0, ["rc2"], []⟩ := by decide +kernel
  obtain ⟨_, _, unbound, whole⟩ := defaults_bind_releases Sample.host
  refine ⟨by decide +kernel, rfl, glued, ?_, whole .all⟩
  exact unbound "python3" _ _ rfl (Version.parseChars_eq_ok_iff.mp strict).1
    (by decide) (.inr ⟨by decide +kernel, glued⟩)

end Resolution

end FormatAudit
