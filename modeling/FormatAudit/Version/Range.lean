import FormatAudit.Text.Blank
import FormatAudit.Version.Requirement

/-!
The versions that a suite is run for: every version, pre-releases included, or those that meet a
requirement.
-/

namespace FormatAudit

inductive VersionRange
  | any
  | requirement (r : Requirement)
  deriving DecidableEq, Repr

/-- A text that is no range, as it was given, and what is wrong with it. -/
structure RangeError where
  range : String
  reason : VersionError
  deriving DecidableEq, Repr

def RangeError.message (e : RangeError) : String := s!"invalid version range '{e.range}': {e.reason.message}"

namespace VersionRange

def wildcard : String := "*"

def parse (s : String) : Except RangeError VersionRange :=
  let trimmed := Text.trim s
  if trimmed = "" ∨ trimmed = wildcard then .ok .any
  else match Requirement.parse trimmed with
    | .ok r => .ok (.requirement r)
    | .error reason => .error ⟨s, reason⟩

def admits : VersionRange → Version → Bool
  | any, _ => true
  | requirement r, v => r.admits v

def isAny : VersionRange → Bool
  | any => true
  | requirement _ => false

def text : VersionRange → String
  | any => wildcard
  | requirement r => r.text

end VersionRange

end FormatAudit
