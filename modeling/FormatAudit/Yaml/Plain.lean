import FormatAudit.Yaml.Position

/-!
Plain scalars: words with white space between them, on one line or folded from several. What ends
them is a colon before white space, a comment, a line that is indented too little, and, inside a flow
collection, any of the marks that give the collection its shape. The white space behind a plain scalar
is read with it.
-/

namespace FormatAudit.Yaml.Plain

def goesOn (inFlow : Bool) (c : Char) (rest : List Char) : Bool :=
  !(c = ':' && (endsWord rest || inFlow && rest.head?.any isFlowMark) || inFlow && isFlowMark c)

def isBareDash (inFlow : Bool) (c : Char) (rest : List Char) : Bool :=
  inFlow && c = '-' && rest.head?.any isFlowMark

def stops (inFlow : Bool) (least : Int) (gap : Gap) (s : List Char) (p : Position) : Bool :=
  !gap.isNone && !inFlow && p.column < least || p.isMarker s || s.head? = some '#'

/-- Reads on after the characters `text`, the last of them first, and a gap. Lines after the first start
at the column `least` or to the right of it. -/
def readFrom (inFlow : Bool) (least : Int) :
    List Char → Position → (text : List Char) → Gap → (inComment : Bool) → Option (List Char × Place)
  | [], p, text, _, _ => some (text.reverse, ⟨[], p⟩)
  | c :: rest, p, text, gap, inComment =>
    let atWord := text.isEmpty || !gap.isNone
    if c = '\n' then readFrom inFlow least rest (p.next c) text gap.addBreak false
    else if inComment then readFrom inFlow least rest (p.next c) text gap true
    else if isBlank c then
      if !p.fresh then readFrom inFlow least rest (p.next c) text (gap.addBlank c) false
      else if c = '\t' && p.column < least then
        if isRestBlank (c :: rest) then readFrom inFlow least rest (p.next c) text gap true else none
      else readFrom inFlow least rest (p.next c) text gap false
    else if atWord && stops inFlow least gap (c :: rest) p then some (text.reverse, ⟨c :: rest, p⟩)
    else if atWord && isBareDash inFlow c rest then none
    else if goesOn inFlow c rest then
      readFrom inFlow least rest (p.next c) (c :: (gap.folded.reverse ++ text)) .none false
    else some (text.reverse, ⟨c :: rest, p⟩)

def read (inFlow : Bool) (block : Int) (p : Place) : Option (String × Place) :=
  if inFlow && p.position.column < block + 1 then none
  else match readFrom inFlow (block + 1) p.rest p.position [] .none false with
    | some (c :: chars, next) => some (String.ofList (c :: chars), next)
    | _ => none

end FormatAudit.Yaml.Plain
