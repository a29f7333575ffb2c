import FormatAudit.Proofs.Snapshot.Store
import Mathlib

/-! A snapshot is taken apart at its first separator. The line feed that ends a separator keeps two of them from
overlapping, so tildes at the end of a source do not move the place where it is cut. -/

namespace FormatAudit.Text

def cutAt (part : List Char) : List Char → Option (List Char × List Char)
  | [] => if part = [] then some ([], []) else none
  | c :: rest =>
    if part <+: c :: rest then some ([], (c :: rest).drop part.length)
    else (cutAt part rest).map fun (front, left) => (c :: front, left)

theorem cutAt_eq_some_iff {part s front left : List Char} : cutAt part s = some (front, left) ↔
    s = front ++ part ++ left ∧ ∀ before after, s = before ++ part ++ after → front.length ≤ before.length := by
  induction s generalizing front left with
  | nil =>
      rw [cutAt]
      split
      · rename_i empty
        rw [empty, Option.some.injEq, Prod.mk.injEq]
        constructor
        · rintro ⟨rfl, rfl⟩
          simp
        · rintro ⟨whole, _⟩
          obtain ⟨none, rfl⟩ := List.append_eq_nil_iff.mp whole.symm
          exact ⟨(List.append_eq_nil_iff.mp none).1.symm, rfl⟩
      · rename_i more
        simp [more]
  | cons c rest ih =>
      rw [cutAt]
      split
      · rename_i first
        obtain ⟨tail, shape⟩ := first
        rw [← shape, List.drop_left, Option.some.injEq, Prod.mk.injEq]
        constructor
        · rintro ⟨rfl, rfl⟩
          simp
        · rintro ⟨whole, earliest⟩
          obtain rfl : front = [] := List.length_eq_zero_iff.mp (Nat.le_zero.mp (earliest [] tail rfl))
          exact ⟨rfl, List.append_cancel_left whole⟩
      · rename_i later
        have shifted {before after : List Char} (shape : c :: rest = before ++ part ++ after) :
            ∃ more, before = c :: more ∧ rest = more ++ part ++ after := by
          cases before with
          | nil => exact absurd ⟨after, shape.symm⟩ later
          | cons d more =>
              obtain ⟨rfl, same⟩ := List.cons.inj shape
              exact ⟨more, rfl, same⟩
        simp only [Option.map_eq_some_iff, Prod.exists, Prod.mk.injEq, ih]
        constructor
        · rintro ⟨front, left, ⟨rfl, earliest⟩, rfl, rfl⟩
          refine ⟨rfl, fun before after shape => ?_⟩
          obtain ⟨more, rfl, same⟩ := shifted shape
          exact Nat.succ_le_succ (earliest more after same)
        · rintro ⟨whole, earliest⟩
          obtain ⟨more, rfl, same⟩ := shifted whole
          refine ⟨more, left, ⟨same, fun before after shape => ?_⟩, rfl, rfl⟩
          have := earliest (c :: before) after (by rw [shape]; rfl)
          exact Nat.le_of_succ_le_succ this

theorem prefix_of_occurrence {body source output before after : List Char} {last : Char} (single : last ∉ body)
    (free : ¬body ++ [last] <:+: source)
    (same : source ++ (body ++ [last]) ++ output = before ++ (body ++ [last]) ++ after) : source <+: before := by
  rw [List.append_assoc source, List.append_assoc before, List.append_eq_append_iff] at same
  rcases same with ⟨more, rfl, _⟩ | ⟨ahead, rfl, same⟩
  · exact List.prefix_append source more
  · -- the occurrence begins `ahead` before the end of the source
    rw [List.append_eq_append_iff] at same
    rcases same with ⟨inside, rfl, _⟩ | ⟨beyond, shape, same⟩
    · exact absurd ⟨before, inside, by simp⟩ free
    · -- what lies beyond the source ends in the last character, and is shorter than the part that begins there
      by_contra outside
      have nonempty : ahead ≠ [] := by
        rintro rfl
        exact outside (by simp)
      cases beyond using List.reverseRecOn with
      | nil => exact free ⟨before, [], by simpa using shape⟩
      | append_singleton tail d =>
          rw [← List.append_assoc] at shape
          obtain ⟨rfl, ends⟩ := List.append_inj' shape rfl
          obtain rfl := List.singleton_inj.mp ends
          have shorter : (tail ++ [last]).length ≤ (ahead ++ tail).length := by
            have := List.length_pos_iff.mpr nonempty
            simp only [List.length_append, List.length_singleton]
            omega
          have start : tail ++ [last] <+: ahead ++ tail :=
            List.prefix_of_prefix_length_le ⟨after, rfl⟩ ⟨[last] ++ output, by rw [← same]; simp⟩ shorter
          exact single (start.subset (by simp))

end FormatAudit.Text

namespace FormatAudit.Snapshot

def parts? (snapshot : String) : Option (String × String) :=
  (Text.cutAt separator snapshot.toList).map fun (source, output) => (String.ofList source, String.ofList output)

theorem source_prefix_of_separator {source output : String} (free : ¬separator <:+: source.toList)
    {before after : List Char} (occurs : (compose source output).toList = before ++ separator ++ after) :
    source.toList <+: before := by
  rw [toList_compose] at occurs
  exact Text.prefix_of_occurrence (by decide) free occurs

theorem parts?_compose {source : String} (free : ¬separator <:+: source.toList) (output : String) :
    parts? (compose source output) = some (source, output) := by
  have cut : Text.cutAt separator (compose source output).toList = some (source.toList, output.toList) :=
    Text.cutAt_eq_some_iff.mpr ⟨toList_compose source output,
      fun _ _ occurs => (source_prefix_of_separator free occurs).length_le⟩
  simp [parts?, cut]

/-- A snapshot determines its two parts. They are what stands before and after its first separator, however the source
ends and whatever the output holds, as long as the source has no separator itself. -/
theorem compose_determines_parts {source other : String} (free : ¬separator <:+: source.toList)
    (freeToo : ¬separator <:+: other.toList) (output result : String) :
    (compose source output = compose other result → source = other ∧ output = result) ∧
    parts? (compose source output) = some (source, output) ∧
    ∀ before after, (compose source output).toList = before ++ separator ++ after → source.toList <+: before := by
  refine ⟨?_, parts?_compose free output, fun _ _ => source_prefix_of_separator free⟩
  intro same
  have cut := parts?_compose free output
  rw [same, parts?_compose freeToo result] at cut
  obtain ⟨rfl, rfl⟩ := Prod.mk.inj (Option.some.inj cut)
  exact ⟨rfl, rfl⟩

theorem sample_compose_determines_parts : ¬separator <:+: "x\n~~".toList ∧ ¬separator <:+: "x\n~".toList ∧
    parts? (compose "x\n~~" (String.ofList separator)) = some ("x\n~~", String.ofList separator) ∧
    compose "x\n~~" (String.ofList separator) ≠ compose "x\n~" (String.ofList ('~' :: separator)) := by
  have free : ¬separator <:+: "x\n~~".toList := by decide
  have freeToo : ¬separator <:+: "x\n~".toList := by decide
  obtain ⟨determined, cut, _⟩ :=
    compose_determines_parts free freeToo (String.ofList separator) (String.ofList ('~' :: separator))
  refine ⟨free, freeToo, cut, fun same => ?_⟩
  exact absurd (determined same).1 (by decide)

end FormatAudit.Snapshot
