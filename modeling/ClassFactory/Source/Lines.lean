/-
Module: ClassFactory.Source.Lines
Purpose: Lines and columns of byte offsets. Lines end at line feeds; lines and columns count
  from one, columns in bytes.
Main exports: lineStarts, LineIndex, LineIndex.ofText, LineIndex.lineColumn, LineIndex.offset?
-/

namespace ClassFactory

/-- The offsets just after each line feed, for a text that begins at byte `offset`. -/
def lineStarts : Nat → List Char → List Nat
  | _, [] => []
  | offset, c :: cs =>
    let next := offset + c.utf8Size
    if c = '\n' then next :: lineStarts next cs else lineStarts next cs

/-- Where each line of a text begins, in ascending order; the first line begins at zero. -/
structure LineIndex where
  /-- Where the lines after the first begin. -/
  later : List Nat
deriving Repr, Inhabited, DecidableEq

namespace LineIndex

/-- The line table of a text. -/
def ofText (text : String) : LineIndex :=
  { later := lineStarts 0 text.toList }

/-- Where each line begins. -/
def starts (index : LineIndex) : List Nat :=
  0 :: index.later

/-- The line starts at or before an offset; never empty, since the first line begins at zero. -/
def startsUpTo (index : LineIndex) (offset : Nat) : List Nat :=
  index.starts.takeWhile (· ≤ offset)

/-- The line and column of a byte offset. An offset beyond the text lies on the last line. -/
def lineColumn (index : LineIndex) (offset : Nat) : Nat × Nat :=
  let reached := index.startsUpTo offset
  (reached.length, offset - reached.getLastD 0 + 1)

/-- The byte offset of a line and column, if the line exists. Column zero counts as column one,
and offsets are numbers of 32 bits. -/
def offset? (index : LineIndex) (line column : Nat) : Option Nat :=
  match line with
  | 0 => none
  | before + 1 => (index.starts[before]?).map fun start => (start + (column - 1)) % Nat.pow 2 32

end LineIndex

end ClassFactory
