import FormatAudit.Proofs.Fields
import FormatAudit.Proofs.Snapshot.Store

/-! Whole histories of a store in memory. What is known first for a name decides every record under it, and a record
that finds its name in the store leaves the store as it is. So records under different names may change places. -/

namespace FormatAudit

namespace MemoryStore

/-- Records contents under names, one after the other: the verdict on each, and the store at the end. -/
def recordAll (store : MemoryStore) : List (String × String) → List Verdict × MemoryStore
  | [] => ([], store)
  | (name, content) :: rest =>
    let (verdict, held) := store.record name content
    let (verdicts, final) := recordAll held rest
    (verdict :: verdicts, final)

/-- The content known first for a name: the last baseline given for it, or else its earliest record. -/
def firstKnown (baselines records : List (String × String)) (name : String) : Option String :=
  (baselines.reverse.lookup name).or (records.lookup name)

variable (store : MemoryStore)

theorem recordAll_cons (record : String × String) (rest : List (String × String)) :
    store.recordAll (record :: rest) =
      ((store.record record.1 record.2).1 :: ((store.record record.1 record.2).2.recordAll rest).1,
        ((store.record record.1 record.2).2.recordAll rest).2) := rfl

theorem recordAll_append (front rest : List (String × String)) : store.recordAll (front ++ rest) =
    ((store.recordAll front).1 ++ ((store.recordAll front).2.recordAll rest).1,
      ((store.recordAll front).2.recordAll rest).2) := by
  induction front generalizing store with
  | nil => rfl
  | cons record front ih => rw [List.cons_append, recordAll_cons, ih, recordAll_cons, List.cons_append]

theorem get?_record (name content other : String) : (store.record name content).2.get? other =
    (store.get? other).or (if name = other then some content else none) := by
  cases found : store.get? name with
  | some stored =>
      rw [record_of_some found]
      by_cases same : name = other
      · rw [← same, found, Option.some_or]
      · rw [if_neg same, Option.or_none]
  | none =>
      rw [record_of_none found]
      exact Fields.get?_append store.entries [(name, content)] other

theorem verdict_record (name content : String) : ∃ known, (store.get? name).or (some content) = some known ∧
    (store.record name content).1 = if known = content then .ok () else .error (mismatch name known content) := by
  cases found : store.get? name with
  | some stored => exact ⟨stored, rfl, by rw [record_of_some found]⟩
  | none => exact ⟨content, rfl, by rw [record_of_none found, if_pos rfl]⟩

theorem record_of_error {name content : String} {failure : UnitFailure}
    (failed : (store.record name content).1 = .error failure) : (store.record name content).2 = store := by
  cases found : store.get? name with
  | some stored => rw [record_of_some found]
  | none =>
      rw [record_of_none found] at failed
      cases failed

theorem recordAll_grows (records : List (String × String)) : store.entries <+:
    (store.recordAll records).2.entries := by
  induction records generalizing store with
  | nil => exact List.prefix_refl _
  | cons record rest ih => exact (record_grows store record.1 record.2).trans (ih _)

theorem known_record (name content : String) (rest : List (String × String)) (other : String) :
    ((store.record name content).2.get? other).or (rest.lookup other) =
      (store.get? other).or (((name, content) :: rest).lookup other) := by
  rw [get?_record, Option.or_assoc, List.lookup_cons]
  by_cases same : name = other
  · simp [same]
  · rw [if_neg same, Option.none_or, beq_false_of_ne (Ne.symm same)]

theorem get?_recordAll (records : List (String × String)) (name : String) :
    (store.recordAll records).2.get? name = (store.get? name).or (records.lookup name) := by
  induction records generalizing store with
  | nil => simp [recordAll]
  | cons record rest ih => rw [recordAll_cons, ih, known_record]

theorem verdicts_recordAll (records : List (String × String)) :
    List.Forall₂ (fun record verdict => ∃ known, (store.get? record.1).or (records.lookup record.1) = some known ∧
      verdict = if known = record.2 then .ok () else .error (mismatch record.1 known record.2))
      records (store.recordAll records).1 := by
  induction records generalizing store with
  | nil => exact .nil
  | cons record rest ih =>
      obtain ⟨name, content⟩ := record
      have later := ih (store.record name content).2
      simp only [known_record] at later
      refine .cons ?_ later
      rw [List.lookup_cons_self]
      exact store.verdict_record name content

theorem distinct_record {store : MemoryStore} (distinct : store.entries.Distinct) (name content : String) :
    (store.record name content).2.entries.Distinct := by
  cases found : store.get? name with
  | some stored =>
      rw [record_of_some found]
      exact distinct
  | none =>
      rw [record_of_none found, ← Fields.insert_of_absent found]
      exact distinct.insert name content

theorem distinct_recordAll {store : MemoryStore} (distinct : store.entries.Distinct)
    (records : List (String × String)) :
    (store.recordAll records).2.entries.Distinct := by
  induction records generalizing store with
  | nil => exact distinct
  | cons record rest ih => exact ih (distinct_record distinct record.1 record.2)

theorem get?_ofBaselines (baselines : List (String × String)) (name : String) :
    (ofBaselines baselines).get? name = baselines.reverse.lookup name := by
  rw [← Fields.get?_eq_lookup]
  exact Fields.get?_ofList baselines name

theorem get?_history (baselines records : List (String × String)) (name : String) :
    ((ofBaselines baselines).recordAll records).2.get? name = firstKnown baselines records name := by
  rw [get?_recordAll, get?_ofBaselines, firstKnown]

theorem firstKnown_eq_none_iff {baselines records : List (String × String)} {name : String} :
    firstKnown baselines records name = none ↔ name ∉ (baselines ++ records).map (·.1) := by
  rw [firstKnown, Option.or_eq_none_iff, ← Fields.get?_eq_lookup, ← Fields.get?_eq_lookup, Fields.get?_eq_none_iff,
    Fields.get?_eq_none_iff, List.map_append, List.mem_append, not_or]
  simp [Fields.keys]

theorem size_history (baselines records : List (String × String)) :
    ((ofBaselines baselines).recordAll records).2.size = ((baselines ++ records).map (·.1)).toFinset.card := by
  have distinct : ((ofBaselines baselines).recordAll records).2.entries.Distinct :=
    distinct_recordAll (Fields.Distinct.ofList baselines) records
  have names : ((ofBaselines baselines).recordAll records).2.entries.keys.toFinset =
      ((baselines ++ records).map (·.1)).toFinset := by
    ext name
    rw [List.mem_toFinset, List.mem_toFinset, ← not_iff_not, ← Fields.get?_eq_none_iff, ← firstKnown_eq_none_iff]
    exact Eq.congr_left (get?_history baselines records name)
  calc ((ofBaselines baselines).recordAll records).2.size
      = ((ofBaselines baselines).recordAll records).2.entries.keys.length := (List.length_map _).symm
    _ = ((ofBaselines baselines).recordAll records).2.entries.keys.toFinset.card :=
        (List.toFinset_card_of_nodup distinct).symm
    _ = ((baselines ++ records).map (·.1)).toFinset.card := by rw [names]

theorem verdict_congr {store other : MemoryStore} {name : String} (same : store.get? name = other.get? name)
    (content : String) : (store.record name content).1 = (other.record name content).1 := by
  cases found : store.get? name with
  | some stored => rw [record_of_some found, record_of_some (same.symm.trans found)]
  | none => rw [record_of_none found, record_of_none (same.symm.trans found)]

theorem verdicts_congr {store other : MemoryStore} (same : ∀ name, store.get? name = other.get? name)
    (records : List (String × String)) : (store.recordAll records).1 = (other.recordAll records).1 := by
  induction records generalizing store other with
  | nil => rfl
  | cons record rest ih =>
      have later : ∀ name, (store.record record.1 record.2).2.get? name =
        (other.record record.1 record.2).2.get? name := by
        intro name
        rw [get?_record, get?_record, same]
      rw [recordAll_cons, recordAll_cons, verdict_congr (same record.1), ih later]

theorem verdict_after_other {first second : String × String} (apart : first.1 ≠ second.1) :
    ((store.record first.1 first.2).2.record second.1 second.2).1 = (store.record second.1 second.2).1 := by
  refine verdict_congr ?_ second.2
  rw [get?_record, if_neg apart, Option.or_none]

theorem get?_record_comm {first second : String × String} (apart : first.1 ≠ second.1) (name : String) :
    ((store.record first.1 first.2).2.record second.1 second.2).2.get? name =
      ((store.record second.1 second.2).2.record first.1 first.2).2.get? name := by
  simp only [get?_record, Option.or_assoc]
  by_cases own : first.1 = name
  · have foreign : second.1 ≠ name := fun same => apart (own.trans same.symm)
    rw [if_neg foreign, Option.none_or, Option.or_none]
  · rw [if_neg own, Option.none_or, Option.or_none]

/-- Two records under different names: each gets the verdict that it gets in the other order, and so does all that
follows. -/
theorem recordAll_swap {first second : String × String} (apart : first.1 ≠ second.1)
    (rest : List (String × String)) :
    (∃ verdict other later, (store.recordAll (first :: second :: rest)).1 = verdict :: other :: later ∧
      (store.recordAll (second :: first :: rest)).1 = other :: verdict :: later) ∧
    ∀ name, (store.recordAll (first :: second :: rest)).2.get? name =
      (store.recordAll (second :: first :: rest)).2.get? name := by
  simp only [recordAll_cons]
  refine ⟨⟨_, _, _, rfl, ?_⟩, ?_⟩
  · rw [verdict_after_other store apart, verdict_after_other store apart.symm,
      verdicts_congr (get?_record_comm store apart) rest]
  · intro name
    rw [get?_recordAll, get?_recordAll, get?_record_comm store apart]

/-- A store in memory goes by what is known first for a name, over every history: that decides each record under the
name and is what the store holds for it. Nothing held is changed or taken out, a failed record leaves the store as it
was, and of two neighbouring records under different names either may come first. -/
theorem history_keeps_first_known (baselines : List (String × String)) :
    let start := ofBaselines baselines
    (∀ records : List (String × String),
      List.Forall₂ (fun record verdict => ∃ known, firstKnown baselines records record.1 = some known ∧
        verdict = if known = record.2 then .ok () else .error (mismatch record.1 known record.2))
        records (start.recordAll records).1 ∧
      (∀ name, (start.recordAll records).2.get? name = firstKnown baselines records name) ∧
      (start.recordAll records).2.size = ((baselines ++ records).map (·.1)).toFinset.card) ∧
    (∀ before after : List (String × String),
      (start.recordAll before).2.entries <+: (start.recordAll (before ++ after)).2.entries) ∧
    (∀ (before : List (String × String)) (name content : String) (failure : UnitFailure),
      ((start.recordAll before).2.record name content).1 = .error failure →
      ((start.recordAll before).2.record name content).2 = (start.recordAll before).2) ∧
    ∀ (before after : List (String × String)) (first second : String × String), first.1 ≠ second.1 →
      (∃ verdict other later,
        (start.recordAll (before ++ first :: second :: after)).1 =
          (start.recordAll before).1 ++ verdict :: other :: later ∧
        (start.recordAll (before ++ second :: first :: after)).1 =
          (start.recordAll before).1 ++ other :: verdict :: later) ∧
      ∀ name, (start.recordAll (before ++ first :: second :: after)).2.get? name =
        (start.recordAll (before ++ second :: first :: after)).2.get? name := by
  intro start
  refine ⟨?_, ?_, ?_, ?_⟩
  · intro records
    refine ⟨?_, get?_history baselines records, size_history baselines records⟩
    have verdicts := start.verdicts_recordAll records
    simp only [start, get?_ofBaselines] at verdicts
    exact verdicts
  · intro before after
    rw [recordAll_append]
    exact recordAll_grows _ after
  · intro before name content failure failed
    exact record_of_error _ failed
  · intro before after first second apart
    obtain ⟨⟨verdict, other, later, own, turned⟩, held⟩ := (start.recordAll before).2.recordAll_swap apart after
    simp only [recordAll_append]
    exact ⟨⟨verdict, other, later, by rw [own], by rw [turned]⟩, held⟩

def Sample.baselines : List (String × String) := [("a", "old"), ("a", "x")]

def Sample.records : List (String × String) := [("b", "u"), ("a", "old"), ("b", "v"), ("a", "x")]

theorem sample_history_keeps_first_known :
    ((ofBaselines Sample.baselines).recordAll Sample.records).1 =
      [.ok (), .error (mismatch "a" "x" "old"), .error (mismatch "b" "u" "v"), .ok ()] ∧
    ((ofBaselines Sample.baselines).recordAll Sample.records).2.size = 2 ∧
    (((ofBaselines Sample.baselines).recordAll [("b", "u")]).2.record "a" "old").1 = .error (mismatch "a" "x" "old") ∧
    (((ofBaselines Sample.baselines).recordAll [("b", "u")]).2.record "a" "old").2 =
      ((ofBaselines Sample.baselines).recordAll [("b", "u")]).2 ∧
    "a" ≠ "b" ∧
    ∀ name, ((ofBaselines Sample.baselines).recordAll Sample.records).2.get? name =
      ((ofBaselines Sample.baselines).recordAll [("b", "u"), ("b", "v"), ("a", "old"), ("a", "x")]).2.get? name := by
  obtain ⟨whole, _, kept, swapped⟩ := history_keeps_first_known Sample.baselines
  have failed : (((ofBaselines Sample.baselines).recordAll [("b", "u")]).2.record "a" "old").1 =
      .error (mismatch "a" "x" "old") := by rfl
  have apart : "a" ≠ "b" := by decide
  exact ⟨by rfl, (whole Sample.records).2.2.trans (by decide), failed, kept [("b", "u")] "a" "old" _ failed, apart,
    (swapped [("b", "u")] [("a", "x")] ("a", "old") ("b", "v") apart).2⟩

end MemoryStore

end FormatAudit
