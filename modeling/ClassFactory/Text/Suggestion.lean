/-
Module: ClassFactory.Text.Suggestion
Purpose: The edit distance between two names and the closest of several candidates, for
  "did you mean" hints.
Main exports: editDistance, lowerAscii, closestMatch
-/

namespace ClassFactory.Text

/-- The next row of the distance table: `row` holds the distances from the characters read so far
to every initial part of `target`, beginning with the empty one; `left` is the entry just written
to the left of the current column. -/
def nextRow (c : Char) : List Char → List Nat → Nat → List Nat
  | t :: target, diagonal :: above :: row, left =>
    let replaced := diagonal + (if c = t then 0 else 1)
    let entry := min (min replaced (above + 1)) (left + 1)
    entry :: nextRow c target (above :: row) entry
  | _, _, _ => []

/-- One table row per character of the source. -/
def finalRow (target : List Char) : List Char → List Nat → List Nat
  | [], row => row
  | c :: source, row =>
    let first := row.headD 0 + 1
    finalRow target source (first :: nextRow c target row first)

/-- The least number of single-character insertions, deletions and replacements that turn `source`
into `target`. -/
def editDistance (source target : List Char) : Nat :=
  (finalRow target source (List.range (target.length + 1))).getLastD 0

/-- The name with its ASCII capitals made small. -/
def lowerAscii (name : String) : List Char :=
  name.toList.map Char.toLower

/-- How many edits a candidate may be away from `name`: a third of its length, at least two. -/
def suggestionLimit (name : String) : Nat :=
  max (name.length / 3) 2

/-- Keeps the nearer of the best candidate so far and a new one; the earlier one wins a tie. -/
def nearer (name : String) (best : Option (Nat × String)) (candidate : String) :
    Option (Nat × String) :=
  if candidate = name then best
  else
    let distance := editDistance (lowerAscii name) (lowerAscii candidate)
    if suggestionLimit name < distance then best
    else
      match best with
      | some (d, _) => if distance < d then some (distance, candidate) else best
      | none => some (distance, candidate)

/-- The candidate closest to `name`, letters compared without regard to ASCII case. A candidate
equal to the name is passed over, one further away than `suggestionLimit` is not suggested, and of
several equally close ones the first is taken. -/
def closestMatch (name : String) (candidates : List String) : Option String :=
  (candidates.foldl (nearer name) none).map Prod.snd

/-- The tail of a "did you mean" message, empty without a suggestion. -/
def suggestionTail (name : String) (candidates : List String) : String :=
  match closestMatch name candidates with
  | some suggestion => "; did you mean `" ++ suggestion ++ "`?"
  | none => ""

end ClassFactory.Text
