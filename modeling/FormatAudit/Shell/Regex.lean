import FormatAudit.Shell.Pattern

/-!
Regular expressions and where they are found in a text: as far to the left as they can start, and then as
long as they can be. Of the ways to reach the same end, one is kept in which earlier parts are longer.
-/

namespace FormatAudit.Shell

inductive Regex
  | nothing
  | char (c : Char)
  | any
  | set (negated : Bool) (ranges : List CharRange)
  | start
  | finish
  | group (number : Nat) (body : Regex)
  | followed (first second : Regex)
  | either (first second : Regex)
  | times (least : Nat) (most : Option Nat) (body : Regex)
  deriving DecidableEq, Repr

structure Subject where
  chars : Array Char
  ignoresCase : Bool

structure Reach where
  position : Nat
  groups : List (Nat × Nat × Nat)

namespace Subject

def size (s : Subject) : Nat := s.chars.size

def slice (s : Subject) (first last : Nat) : List Char := (s.chars.extract first last).toList

def fold (s : Subject) (c : Char) : Char := if s.ignoresCase then c.toLower else c

/-- A character belongs to a set; where case does not count, in either case. -/
def inSet (s : Subject) (negated : Bool) (ranges : List CharRange) (c : Char) : Bool :=
  (ranges.any fun range =>
    range.contains c || s.ignoresCase && (range.contains c.toLower || range.contains c.toUpper)) != negated

end Subject

namespace Regex

def groupCount : Regex → Nat
  | group _ body => body.groupCount + 1
  | times _ _ body => body.groupCount
  | followed a b | either a b => a.groupCount + b.groupCount
  | _ => 0

def distinct (seen : Array Bool) (reached : List Reach) : List Reach :=
  (reached.foldl (fun (seen, kept) r =>
    if seen[r.position]?.getD false then (seen, kept) else (seen.setIfInBounds r.position true, r :: kept))
    (seen, ([] : List Reach))).2.reverse

def unseen (s : Subject) : Array Bool := Array.replicate (s.size + 1) false

def longestFirst (reached : List Reach) : List Reach := reached.mergeSort fun a b => b.position ≤ a.position

def closure (step : Reach → List Reach) : (rounds : Nat) → (seen : Array Bool) →
    (level : List Reach) → List Reach
  | 0, _, level => level
  | rounds + 1, seen, level =>
    if level.isEmpty then []
    else
      let seen := level.foldl (fun seen r => seen.setIfInBounds r.position true) seen
      level ++ closure step rounds seen (distinct seen (level.flatMap step))

def repeated (s : Subject) (step : Reach → List Reach) : Nat → List Reach → List Reach
  | 0, level => level
  | count + 1, level => repeated s step count (distinct (unseen s) (level.flatMap step))

def reach (s : Subject) : Regex → Reach → List Reach
  | nothing, r => [r]
  | char c, r => one r fun d => s.fold c = s.fold d
  | any, r => one r fun _ => true
  | set negated ranges, r => one r (s.inSet negated ranges)
  | start, r => if r.position = 0 then [r] else []
  | finish, r => if r.position = s.size then [r] else []
  | group number body, r =>
    (reach s body r).map fun after =>
      { after with groups := (number, r.position, after.position) :: after.groups.filter (·.1 ≠ number) }
  | followed a b, r => distinct (unseen s) ((reach s a r).flatMap (reach s b))
  | either a b, r => longestFirst (distinct (unseen s) (reach s a r ++ reach s b r))
  | times least most body, r =>
    let rounds := (most.map (· - least)).getD (s.size + 1)
    longestFirst (closure (reach s body) rounds (unseen s) (repeated s (reach s body) least [r]))
where
  one (r : Reach) (fits : Char → Bool) : List Reach :=
    if s.chars[r.position]?.any fits then [{ r with position := r.position + 1 }] else []

structure Found where
  first : Nat
  last : Nat
  groups : List (Nat × Nat × Nat)

def findAt? (e : Regex) (s : Subject) (position : Nat) : Option Found :=
  ((longestFirst (reach s e ⟨position, []⟩)).head?).map fun r => ⟨position, r.position, r.groups⟩

def find? (e : Regex) (s : Subject) (position : Nat) : Option Found :=
  (List.range' position (s.size + 1 - position)).findSome? (e.findAt? s)

/-- The finds of a text, in so many steps. Each is behind the one before it, and an empty one does not touch it. -/
def findsFrom (e : Regex) (s : Subject) : (steps : Nat) → (position : Nat) → (last : Option Nat) → List Found
  | 0, _, _ => []
  | steps + 1, position, last =>
    match e.find? s position with
    | none => []
    | some found =>
      let next := if found.first = found.last then found.last + 1 else found.last
      let rest := e.findsFrom s steps next (some found.last)
      if found.first = found.last && last = some found.first then rest else found :: rest

def finds (e : Regex) (s : Subject) : List Found := e.findsFrom s (s.size + 2) 0 none

end Regex

end FormatAudit.Shell
