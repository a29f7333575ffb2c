import FormatAudit.Version.Requirement
import Mathlib

/-! Releases and the requirements that bound them. A requirement that names no pre-release is met by releases only, and
those it bounds lie in an interval of the order of their numbers. -/

namespace FormatAudit

/-- The numbers of a version in the order of releases. -/
def Version.numbers (v : Version) : ℕ ×ₗ ℕ ×ₗ ℕ := toLex (v.major, toLex (v.minor, v.patch))

theorem Requirement.admits_iff_of_plain {r : Requirement} {v : Version} (plain : ∀ c ∈ r.comparators, c.pre = []) :
    r.admits v = true ↔ v.pre = [] ∧ ∀ c ∈ r.comparators, c.admits v = true := by
  have unnamed : r.comparators.any (·.namesPreOf v) = false := by
    refine List.any_eq_false.mpr fun c member => ?_
    simp [Comparator.namesPreOf, plain c member]
  rw [admits, unnamed, Bool.or_false, Bool.and_eq_true, List.all_eq_true, decide_eq_true_eq, and_comm]

namespace Comparator

variable {operator : Operator} {major minor patch : Nat} {v : Version}

theorem admitsExact_iff (release : v.pre = []) :
    (Comparator.mk operator major (some minor) (some patch) []).admitsExact v = true ↔
      toLex (major, toLex (minor, patch)) = v.numbers := by
  simp [admitsExact, Version.numbers, release, and_assoc]

theorem admitsBeyond_iff (side : Ordering) (release : v.pre = []) :
    (Comparator.mk operator major (some minor) (some patch) []).admitsBeyond side v = true ↔
      compare v.numbers (toLex (major, toLex (minor, patch))) = side := by
  have numbers : compare v.numbers (toLex (major, toLex (minor, patch))) =
      (compare v.major major).then ((compare v.minor minor).then (compare v.patch patch)) := rfl
  have decided {first second : Nat} (different : first ≠ second) (later : Ordering) :
      (compare first second).then later = compare first second := by
    cases order : compare first second with
    | eq => exact absurd (Nat.compare_eq_eq.mp order) different
    | lt => rfl
    | gt => rfl
  rw [numbers]
  by_cases majors : v.major = major
  · by_cases minors : v.minor = minor
    · by_cases patches : v.patch = patch
      · simp [admitsBeyond, majors, minors, patches, release, Version.comparePre]
      · simp [admitsBeyond, majors, minors, patches]
    · simp [admitsBeyond, majors, minors, decided minors]
  · simp [admitsBeyond, majors, decided majors]

theorem admits_greaterEq_iff (release : v.pre = []) :
    (Comparator.mk .greaterEq major (some minor) (some patch) []).admits v = true ↔
      toLex (major, toLex (minor, patch)) ≤ v.numbers := by
  rw [admits, Bool.or_eq_true, admitsExact_iff release, admitsBeyond_iff .gt release, compare_gt_iff_gt,
    le_iff_eq_or_lt]

theorem admits_less_iff (release : v.pre = []) :
    (Comparator.mk .less major (some minor) (some patch) []).admits v = true ↔
      v.numbers < toLex (major, toLex (minor, patch)) := by
  rw [admits, admitsBeyond_iff .lt release, compare_lt_iff_lt]

end Comparator

end FormatAudit
