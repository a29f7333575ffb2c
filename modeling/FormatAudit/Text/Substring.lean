/-!
Finding a text inside another one, and replacing it.
-/

namespace FormatAudit.Text

def occursIn (part : List Char) : List Char → Bool
  | [] => part.isEmpty
  | c :: rest => part.isPrefixOf (c :: rest) || occursIn part rest

def contains (s part : String) : Bool := occursIn part.toList s.toList

def replaceFrom (part replacement : List Char) : (pending : Nat) → List Char → List Char
  | _, [] => if part = [] then replacement else []
  | pending + 1, _ :: rest => replaceFrom part replacement pending rest
  | 0, c :: rest =>
    if part = [] then replacement ++ c :: replaceFrom part replacement 0 rest
    else if part.isPrefixOf (c :: rest) then
      replacement ++ replaceFrom part replacement (part.length - 1) rest
    else c :: replaceFrom part replacement 0 rest

def replaceAll (s part replacement : String) : String :=
  String.ofList (replaceFrom part.toList replacement.toList 0 s.toList)

example : replaceAll "aaab" "aa" "x" = "xab" := by decide +kernel
example : replaceAll "ab" "" "-" = "-a-b-" := by decide +kernel

end FormatAudit.Text
