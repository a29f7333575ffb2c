import FormatAudit.Formatter.Call

/-! Attempts and steps that succeed: each part of them did, and nothing crashed. The calls of a step are those of
its parts up to the first that fails. -/

namespace FormatAudit

namespace Attempt

variable {ε ε' α : Type}

theorem isolate_eq_ok_iff {crashed : Crash → ε} {attempt : Attempt ε α} {a : α} :
    attempt.isolate crashed = .ok a ↔ attempt = .ok a := by
  rcases attempt with (e | crash) | a' <;> simp [isolate]

theorem isolate_ofExcept (crashed : Crash → ε) (result : Except ε α) :
    (ofExcept result).isolate crashed = result := by
  cases result <;> rfl

theorem mapError_eq_ok_iff {f : ε → ε'} {attempt : Attempt ε α} {a : α} :
    attempt.mapError f = .ok a ↔ attempt = .ok a := by
  rcases attempt with (e | crash) | a' <;> simp [mapError]

theorem mapError_eq_fail_iff {f : ε → ε'} {attempt : Attempt ε α} {e' : ε'} :
    attempt.mapError f = .error (.error e') ↔ ∃ e, attempt = .error (.error e) ∧ f e = e' := by
  rcases attempt with (e | crash) | a <;> simp [mapError]

theorem mapError_eq_crash_iff {f : ε → ε'} {attempt : Attempt ε α} {crash : Crash} :
    attempt.mapError f = .error (.crash crash) ↔ attempt = .error (.crash crash) := by
  rcases attempt with (e | found) | a <;> simp [mapError]

theorem ofCrash_eq_ok_iff {result : Except Crash α} {a : α} :
    (ofCrash result : Attempt ε α) = .ok a ↔ result = .ok a := by
  cases result <;> simp [ofCrash]

theorem ofCrash_eq_crash_iff {result : Except Crash α} {crash : Crash} :
    (ofCrash result : Attempt ε α) = .error (.crash crash) ↔ result = .error crash := by
  cases result <;> simp [ofCrash]

theorem ofCrash_ne_fail {result : Except Crash α} {e : ε} :
    (ofCrash result : Attempt ε α) ≠ .error (.error e) := by
  cases result <;> simp [ofCrash]

theorem ofExcept_eq_ok_iff {result : Except ε α} {a : α} :
    ofExcept result = .ok a ↔ result = .ok a := by
  cases result <;> simp [ofExcept]

end Attempt

namespace Step

variable {ε ε' α β : Type}

@[simp] theorem result_ofAttempt (attempt : Attempt ε α) : (ofAttempt attempt).result = attempt := rfl

@[simp] theorem result_pure (a : α) : (pure a : Step ε α).result = .ok a := rfl

@[simp] theorem result_mapError (f : ε → ε') (step : Step ε α) :
    (step.mapError f).result = step.result.mapError f := rfl

theorem result_bind_eq_ok_iff {step : Step ε α} {next : α → Step ε β} {b : β} :
    (step >>= next).result = .ok b ↔ ∃ a, step.result = .ok a ∧ (next a).result = .ok b := by
  change (andThen step next).result = .ok b ↔ _
  unfold andThen
  cases step.result with
  | error fault => simp
  | ok a => simp

theorem result_bind_eq_error_iff {step : Step ε α} {next : α → Step ε β} {fault : Fault ε} :
    (step >>= next).result = .error fault ↔
      step.result = .error fault ∨ ∃ a, step.result = .ok a ∧ (next a).result = .error fault := by
  change (andThen step next).result = .error fault ↔ _
  unfold andThen
  cases step.result with
  | error found => simp
  | ok a => simp

section

variable {step : Step ε α}

theorem bind_of_ok {a : α} (done : step.result = .ok a) (next : α → Step ε β) :
    step >>= next = ⟨step.calls ++ (next a).calls, (next a).result⟩ := by
  change andThen step next = _
  rw [andThen, done]

theorem bind_of_error {fault : Fault ε} (failed : step.result = .error fault) (next : α → Step ε β) :
    step >>= next = ⟨step.calls, .error fault⟩ := by
  change andThen step next = _
  rw [andThen, failed]

theorem calls_bind_of_silent (step : Step ε α) {next : α → Step ε β} (silent : ∀ a, (next a).calls = []) :
    (step >>= next).calls = step.calls := by
  cases result : step.result with
  | error fault => rw [bind_of_error result]
  | ok a => rw [bind_of_ok result, silent, List.append_nil]

end

end Step

end FormatAudit
