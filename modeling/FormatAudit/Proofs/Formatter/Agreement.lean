import FormatAudit.Verification

/-! Two formatters that agree where an audit calls them. What the audit then does with either is the same,
down to the calls that it makes. -/

namespace FormatAudit

namespace Formatter

/-- Two formatters do the same in the calls made for the given options. What a tree is cleaned under is not these
options but what they are normalised to, so `clean` stands apart. -/
structure AgreesAt (first second : Formatter) (options : CallOptions) : Prop where
  format : ∀ source, first.format source options = second.format source options
  parse : ∀ source, first.parse source options = second.parse source options
  normalizeOptions : first.normalizeOptions options = second.normalizeOptions options

theorem callFormat_congr {first second : Formatter} {source : String} {options : CallOptions}
    (agree : first.format source options = second.format source options) :
    first.callFormat source options = second.callFormat source options := by
  rw [callFormat, callFormat, agree]

theorem AgreesAt.callParse {first second : Formatter} {options : CallOptions}
    (agree : first.AgreesAt second options) (source : String) :
    first.callParse source options = second.callParse source options := by
  rw [Formatter.callParse, Formatter.callParse, agree.parse]

end Formatter

theorem verifyAlternate_congr {first second : Formatter} {fixture : Fixture} {reference : CallOptions}
    {parser : ParserName} (agree : first.format fixture.source (reference.withParser parser) =
      second.format fixture.source (reference.withParser parser)) (output : String) :
    verifyAlternate first fixture reference output parser = verifyAlternate second fixture reference output parser := by
  rw [verifyAlternate, verifyAlternate, Formatter.callFormat_congr agree]

theorem RoundTrip.take_congr {first second : Formatter} {options : CallOptions}
    (agree : first.AgreesAt second options) (cleaned : ∀ normalized,
      first.normalizeOptions options = .ok normalized → first.clean normalized = second.clean normalized)
    (fixture : Fixture) (formatted : String) :
    take first fixture options formatted = take second fixture options formatted := by
  unfold take reparse
  rw [agree.callParse, agree.callParse, ← agree.normalizeOptions]
  cases canonical : first.normalizeOptions options with
  | error crash => rfl
  | ok normalized =>
      have same := cleaned normalized canonical
      simp only [bind, Step.andThen, Step.ofAttempt, Attempt.ofCrash, same]

end FormatAudit
