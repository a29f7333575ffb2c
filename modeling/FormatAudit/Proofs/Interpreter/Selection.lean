import FormatAudit.Proofs.Interpreter.Search
import FormatAudit.Interpreter.Selection
import Mathlib

/-! The interpreters of a suite are the first uses of their executables among the bindings in its range, so their
executables are distinct. A binding out of range is passed over before its executable counts as used. -/

namespace FormatAudit

/-- The bindings, in order, whose executable no earlier one has. -/
def firstUses (bindings : List Binding) : List Binding :=
  (bindings.zipIdx.filter fun placed : Binding × Nat =>
    ∀ earlier ∈ bindings.take placed.2, earlier.executable ≠ placed.1.executable).map (·.1)

/-- An executable has one version wherever it is bound. -/
def Unambiguous (bindings : List Binding) : Prop :=
  ∀ first ∈ bindings, ∀ second ∈ bindings, first.executable = second.executable →
    first.version = second.version

instance (bindings : List Binding) : Decidable (Unambiguous bindings) :=
  inferInstanceAs (Decidable (∀ first ∈ bindings, ∀ second ∈ bindings, _ → _))

theorem firstUses_append_singleton (front : List Binding) (last : Binding) : firstUses (front ++ [last]) =
    firstUses front ++ if ∀ earlier ∈ front, earlier.executable ≠ last.executable then [last] else [] := by
  rw [firstUses, List.zipIdx_append, List.filter_append, List.map_append]
  congr 1
  · rw [firstUses]
    congr 1
    refine List.filter_congr ?_
    intro placed member
    rw [List.take_append_of_le_length (List.snd_lt_of_mem_zipIdx member).le]
  · rw [List.zipIdx_singleton, List.filter_singleton, Nat.zero_add, List.take_left]
    by_cases fresh : ∀ earlier ∈ front, earlier.executable ≠ last.executable
    · rw [decide_eq_true fresh, if_pos fresh]
      rfl
    · rw [decide_eq_false fresh, if_neg fresh]
      rfl

theorem firstUses_sublist (bindings : List Binding) : (firstUses bindings).Sublist bindings := by
  have places : bindings.zipIdx.map (·.1) = bindings := List.zipIdx_map_fst 0 bindings
  have kept : (firstUses bindings).Sublist (bindings.zipIdx.map (·.1)) := List.filter_sublist.map _
  rwa [places] at kept

theorem unused_firstUses_iff {bindings : List Binding} {executable : String} :
    (∀ first ∈ firstUses bindings, first.executable ≠ executable) ↔
      ∀ binding ∈ bindings, binding.executable ≠ executable := by
  induction bindings using List.reverseRecOn with
  | nil => exact Iff.rfl
  | append_singleton front last ih =>
      rw [firstUses_append_singleton, List.forall_mem_append, List.forall_mem_append, ih]
      refine and_congr_right fun unused => ?_
      split
      · exact Iff.rfl
      · rename_i again
        push Not at again
        obtain ⟨earlier, inside, same⟩ := again
        have other : last.executable ≠ executable := same ▸ unused earlier inside
        simp [other]

theorem exists_mem_firstUses {bindings : List Binding} {binding : Binding} (member : binding ∈ bindings) :
    ∃ first ∈ firstUses bindings, first.executable = binding.executable := by
  by_contra missing
  push Not at missing
  exact unused_firstUses_iff.mp missing binding member rfl

theorem firstUses_eq_nil_iff {bindings : List Binding} : firstUses bindings = [] ↔ bindings = [] := by
  constructor
  · intro unused
    refine List.eq_nil_iff_forall_not_mem.mpr fun binding member => ?_
    obtain ⟨first, used, _⟩ := exists_mem_firstUses member
    rw [unused] at used
    cases used
  · rintro rfl
    rfl

theorem nodup_executables_firstUses (bindings : List Binding) : ((firstUses bindings).map (·.executable)).Nodup := by
  induction bindings using List.reverseRecOn with
  | nil => exact List.nodup_nil
  | append_singleton front last ih =>
      rw [firstUses_append_singleton, List.map_append]
      split
      · rename_i fresh
        refine List.nodup_append.mpr ⟨ih, List.nodup_singleton _, ?_⟩
        rintro executable used other atEnd rfl
        obtain ⟨earlier, member, named⟩ := List.mem_map.mp used
        exact fresh earlier ((firstUses_sublist front).subset member) (named.trans (List.mem_singleton.mp atEnd))
      · rw [List.map_nil, List.append_nil]
        exact ih

theorem firstUses_of_nodup {bindings : List Binding} (distinct : (bindings.map (·.executable)).Nodup) :
    firstUses bindings = bindings := by
  induction bindings using List.reverseRecOn with
  | nil => rfl
  | append_singleton front last ih =>
      rw [List.map_append, List.nodup_append] at distinct
      have fresh : ∀ earlier ∈ front, earlier.executable ≠ last.executable := fun earlier member =>
        distinct.2.2 _ (List.mem_map_of_mem member) _ (List.mem_singleton_self _)
      rw [firstUses_append_singleton, ih distinct.1, if_pos fresh]

theorem firstUses_filter {keep : Binding → Bool} {bindings : List Binding}
    (agree : ∀ first ∈ bindings, ∀ second ∈ bindings,
      first.executable = second.executable → keep first = keep second) :
    firstUses (bindings.filter keep) = (firstUses bindings).filter keep := by
  induction bindings using List.reverseRecOn with
  | nil => rfl
  | append_singleton front last ih =>
      have inFront := ih fun first member second memberToo =>
        agree first (List.mem_append_left _ member) second (List.mem_append_left _ memberToo)
      rw [firstUses_append_singleton, List.filter_append, List.filter_append]
      by_cases kept : keep last = true
      · have unseen : (∀ earlier ∈ front.filter keep, earlier.executable ≠ last.executable) ↔
            ∀ earlier ∈ front, earlier.executable ≠ last.executable := by
          constructor
          · intro fresh earlier member same
            have keptToo := agree earlier (List.mem_append_left _ member) last (by simp) same
            exact fresh earlier (List.mem_filter.mpr ⟨member, keptToo.trans kept⟩) same
          · intro fresh earlier member
            exact fresh earlier (List.mem_filter.mp member).1
        rw [List.filter_singleton, kept, cond_true, firstUses_append_singleton, inFront]
        simp only [unseen]
        split <;> simp [kept]
      · rw [List.filter_singleton, Bool.eq_false_iff.mpr kept, cond_false, List.append_nil, inFront]
        split <;> simp [kept]

theorem Resolution.unambiguous_detect (tracks : List Track) (probe : Probe) :
    Unambiguous (detect tracks probe).1.bindings := by
  intro first bound second boundToo same
  obtain ⟨_, _, _, qualified⟩ := qualifies_of_mem_bindings bound
  obtain ⟨_, _, _, qualifiedToo⟩ := qualifies_of_mem_bindings boundToo
  rw [same] at qualified
  exact qualified.version_eq qualifiedToo

theorem Resolution.missingTracks_eq_nil_iff (resolution : Resolution) :
    resolution.missingTracks = [] ↔ ¬∃ entry ∈ resolution.tracks, entry.binding = none := by
  simp [missingTracks]

namespace InterpreterSet

theorem choose_append (range : VersionRange) (chosen front rest : List Binding) :
    choose range chosen (front ++ rest) = choose range (choose range chosen front) rest := by
  induction front generalizing chosen with
  | nil => rfl
  | cons binding front ih =>
      rw [List.cons_append, choose, choose]
      split
      · exact ih chosen
      · exact ih (chosen ++ [binding])

theorem choose_singleton (range : VersionRange) (chosen : List Binding) (binding : Binding) :
    choose range chosen [binding] =
    if range.admits binding.version = true ∧ ∀ earlier ∈ chosen, earlier.executable ≠ binding.executable
      then chosen ++ [binding] else chosen := by
  have passed : (chosen.any (·.executable == binding.executable) || !range.admits binding.version) = true ↔
      ¬(range.admits binding.version = true ∧
        ∀ earlier ∈ chosen, earlier.executable ≠ binding.executable) := by
    rw [not_and_or, or_comm]
    simp
  simp only [choose, passed, ite_not]

theorem choose_eq_firstUses (range : VersionRange) (bindings : List Binding) :
    choose range [] bindings = firstUses (bindings.filter (range.admits ·.version)) := by
  induction bindings using List.reverseRecOn with
  | nil => rfl
  | append_singleton front last ih =>
      rw [choose_append, ih, choose_singleton, List.filter_append, List.filter_singleton]
      simp only [unused_firstUses_iff]
      by_cases admitted : range.admits last.version = true
      · rw [admitted, cond_true, firstUses_append_singleton]
        simp only [true_and]
        split
        · rfl
        · rw [List.append_nil]
      · rw [if_neg fun both => admitted both.1, Bool.eq_false_iff.mpr admitted, cond_false, List.append_nil]

example :
    let twice : List Binding := [⟨"python", ⟨2, 7, 18, [], []⟩⟩, ⟨"python", ⟨3, 11, 4, [], []⟩⟩]
    let range : VersionRange := .requirement ⟨[⟨.greaterEq, 3, some 0, some 0, []⟩]⟩
    choose range [] twice = [⟨"python", ⟨3, 11, 4, [], []⟩⟩] ∧
      (firstUses twice).filter (range.admits ·.version) = [] := by decide

theorem bindings_build (resolution : Resolution) (range : VersionRange) (coverage : Coverage) :
    (build resolution range coverage).bindings = firstUses (resolution.bindings.filter (range.admits ·.version)) :=
  choose_eq_firstUses range resolution.bindings

theorem nodup_executables (resolution : Resolution) (range : VersionRange) (coverage : Coverage) :
    ((build resolution range coverage).bindings.map (·.executable)).Nodup := by
  rw [bindings_build]
  exact nodup_executables_firstUses _

theorem nodup_bindings (resolution : Resolution) (range : VersionRange) (coverage : Coverage) :
    (build resolution range coverage).bindings.Nodup :=
  (nodup_executables resolution range coverage).of_map

theorem bindings_build_eq_nil_iff (resolution : Resolution) (range : VersionRange) (coverage : Coverage) :
    (build resolution range coverage).bindings = [] ↔
      ¬∃ binding ∈ resolution.bindings, range.admits binding.version = true := by
  rw [bindings_build, firstUses_eq_nil_iff, List.filter_eq_nil_iff]
  simp

theorem checks_build (resolution : Resolution) (range : VersionRange) (coverage : Coverage) :
    (build resolution range coverage).checks =
      ⟨atLeastOneCheck, if ∃ binding ∈ resolution.bindings, range.admits binding.version = true then .ok ()
        else .error (.noInterpreter range.text)⟩ ::
      if coverage = .all then
        [⟨allTracksCheck, if ∃ entry ∈ resolution.tracks, entry.binding = none
          then .error (.missingTracks resolution.missingTracks) else .ok ()⟩]
      else [] := by
  have unchosen := bindings_build_eq_nil_iff resolution range coverage
  change choose range [] resolution.bindings = [] ↔ _ at unchosen
  simp only [build, unchosen, resolution.missingTracks_eq_nil_iff, ite_not]
  split <;> rfl

/-- A suite runs under the bindings in its range that use their executables first among those, so every executable in
range is there once. Where executables have one version each, as after a search, the range may as well be applied to
the first uses of all. The checks look at the range and at the tracks separately. -/
theorem build_selects (resolution : Resolution) (range : VersionRange) (coverage : Coverage) :
    let set := build resolution range coverage
    let inRange := resolution.bindings.filter (range.admits ·.version)
    (set.bindings = firstUses inRange ∧ (set.bindings.map (·.executable)).Nodup ∧
      ∀ binding ∈ inRange, ∃ chosen ∈ set.bindings, chosen.executable = binding.executable) ∧
    (Unambiguous resolution.bindings →
      set.bindings = (firstUses resolution.bindings).filter (range.admits ·.version)) ∧
    (∀ tracks probe, Unambiguous (Resolution.detect tracks probe).1.bindings) ∧
    set.checks =
      ⟨atLeastOneCheck, if ∃ binding ∈ resolution.bindings, range.admits binding.version = true then .ok ()
        else .error (.noInterpreter range.text)⟩ ::
      if coverage = .all then
        [⟨allTracksCheck, if ∃ entry ∈ resolution.tracks, entry.binding = none
          then .error (.missingTracks ((resolution.tracks.filter (·.binding.isNone)).map (·.track))) else .ok ()⟩]
      else [] := by
  intro set inRange
  have chosen : set.bindings = firstUses inRange := bindings_build resolution range coverage
  refine ⟨⟨chosen, nodup_executables resolution range coverage, ?_⟩, ?_, Resolution.unambiguous_detect,
    checks_build resolution range coverage⟩
  · intro binding member
    rw [chosen]
    exact exists_mem_firstUses member
  · intro unambiguous
    rw [chosen]
    refine firstUses_filter fun first member second memberToo same => ?_
    rw [unambiguous first member second memberToo same]

/-- Tracks of which one found nothing and two found the same executable. -/
def Sample.resolution : Resolution :=
  ⟨[⟨"old", some ⟨"python", ⟨2, 7, 18, [], []⟩⟩⟩, ⟨"none", none⟩,
    ⟨"new", some ⟨"python3", ⟨3, 11, 4, [], []⟩⟩⟩,
    ⟨"again", some ⟨"python3", ⟨3, 11, 4, [], []⟩⟩⟩]⟩

def Sample.range : VersionRange := .requirement ⟨[⟨.greaterEq, 3, some 0, some 0, []⟩]⟩

theorem sample_build_selects : Unambiguous Sample.resolution.bindings ∧
    (build Sample.resolution Sample.range .all).bindings =
      (firstUses Sample.resolution.bindings).filter (Sample.range.admits ·.version) ∧
    (build Sample.resolution Sample.range .all).bindings = [⟨"python3", ⟨3, 11, 4, [], []⟩⟩] ∧
    (build Sample.resolution Sample.range .all).checks =
      [⟨atLeastOneCheck, .ok ()⟩, ⟨allTracksCheck, .error (.missingTracks ["none"])⟩] := by
  have unambiguous : Unambiguous Sample.resolution.bindings := by decide
  obtain ⟨_, filtered, _, checks⟩ := build_selects Sample.resolution Sample.range .all
  exact ⟨unambiguous, filtered unambiguous, by decide, checks.trans rfl⟩

end InterpreterSet

end FormatAudit
