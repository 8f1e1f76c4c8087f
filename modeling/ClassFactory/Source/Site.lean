/-
Module: ClassFactory.Source.Site
Purpose: Byte ranges, within one file (`Span`) and within a compilation (`Site`).
Main exports: Span, Site, Site.contains, Site.covers
-/

namespace ClassFactory

/-- A byte range of one file, its end excluded. -/
structure Span where
  start : Nat
  stop : Nat
deriving Repr, Inhabited, DecidableEq

/-- A byte range of one file of a compilation; `file` counts the files in the order they were
added. -/
structure Site where
  file : Nat
  start : Nat
  stop : Nat
deriving Repr, Inhabited, DecidableEq

/-- The range, seen as part of the given file. -/
def Span.inFile (span : Span) (file : Nat) : Site :=
  { file := file, start := span.start, stop := span.stop }

/-- Whether `inner` lies within `outer`; a range contains itself. -/
def Site.contains (outer inner : Site) : Bool :=
  outer.file = inner.file && outer.start ≤ inner.start && inner.stop ≤ outer.stop

/-- Whether a byte offset of a file lies within the range. -/
def Site.covers (site : Site) (file offset : Nat) : Bool :=
  site.file = file && site.start ≤ offset && offset < site.stop

end ClassFactory
