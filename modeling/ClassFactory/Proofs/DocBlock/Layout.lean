/-
Module: ClassFactory.Proofs.DocBlock.Layout
Purpose: How the tags of a documentation block are laid out does not matter. A line is cut in front of
  every `@` that begins a tag and nowhere else, as long as the braces of each tag are closed within
  it; so tags that share a line and tags on lines of their own are the same tags.
Main exports: IsTag, cutLine_append, linePieces_spaced, splitTags_eq_flatMap, layout_irrelevant
-/
import ClassFactory.DocBlock
import Mathlib.Data.List.DropRight
import Mathlib.Data.List.Infix
import Mathlib.Data.List.TakeWhile

namespace ClassFactory

open Text (trim trimStart trimEnd isBlank splitLines splitOnChar joinWith)

/-! ## Trimming and lines -/

namespace Text

/-- A space at the end is trimmed off. -/
theorem trimEnd_concat_space (cs : List Char) : trimEnd (cs ++ [' ']) = trimEnd cs := by
  rw [trimEnd, List.reverse_append, List.reverse_singleton, List.singleton_append,
    List.dropWhile_cons_of_pos (by decide), trimEnd]

/-- A text that ends trimmed stays so behind another one. -/
theorem trimEnd_append {cs : List Char} (front : List Char) (trimmed : trimEnd cs = cs)
    (some : cs ≠ []) : trimEnd (front ++ cs) = front ++ cs := by
  have kept : cs.reverse.dropWhile isBlank = cs.reverse := by
    rw [← trimmed, trimEnd, List.reverse_reverse, List.dropWhile_idempotent]
  have more : (cs.reverse.dropWhile isBlank).isEmpty = false := by
    rw [kept, List.isEmpty_reverse, List.isEmpty_eq_false_iff]
    exact some
  rw [trimEnd, List.reverse_append, List.dropWhile_append, more, kept, if_neg Bool.false_ne_true,
    List.reverse_append, List.reverse_reverse, List.reverse_reverse]

/-- A text that is trimmed does not end in a carriage return. -/
theorem dropEnd_return {cs : List Char} (trimmed : trimEnd cs = cs) : dropEnd ['\r'] cs = cs := by
  rw [dropEnd, dropEnd?]
  cases behind : cs.reverse with
  | nil => rfl
  | cons last front =>
      have kept : (last :: front).dropWhile isBlank = last :: front := by
        rw [← behind, ← trimmed, trimEnd, List.reverse_reverse, List.dropWhile_idempotent]
      have solid : ¬ isBlank last = true := List.dropWhile_eq_self_iff.mp kept (Nat.succ_pos _)
      have other : '\r' ≠ last := by
        rintro rfl
        exact solid rfl
      simp [dropStart?, other]

end Text

/-! ## Tags -/

namespace DocBlock

/-- The text of one tag: a trimmed line that starts with `@`, all braces in it closed, and no other
`@` behind white space outside of braces. -/
structure IsTag (tag : List Char) : Prop where
  opens : tag.head? = some '@'
  trimmed : trim tag = tag
  oneLine : '\n' ∉ tag
  balanced : tag.count '{' = tag.count '}'
  alone : ∀ before, before ++ ['@'] <+: tag → before.getLast?.any isAsciiBlank = true →
    before.count '{' ≠ before.count '}'

instance : DecidablePred IsTag := fun tag =>
  decidable_of_iff
    (tag.head? = some '@' ∧ trim tag = tag ∧ '\n' ∉ tag ∧ tag.count '{' = tag.count '}' ∧
      ∀ before ∈ tag.inits, before ++ ['@'] <+: tag → before.getLast?.any isAsciiBlank = true →
        before.count '{' ≠ before.count '}')
    ⟨fun ⟨opens, trimmed, oneLine, balanced, alone⟩ =>
      ⟨opens, trimmed, oneLine, balanced, fun before starts =>
        alone before ((List.mem_inits _ _).mpr ((List.prefix_append _ _).trans starts)) starts⟩,
     fun tag =>
      ⟨tag.opens, tag.trimmed, tag.oneLine, tag.balanced, fun before _ => tag.alone before⟩⟩

namespace IsTag

variable {tag : List Char} (isTag : IsTag tag)

include isTag

theorem exists_body : ∃ body, tag = '@' :: body := List.head?_eq_some_iff.mp isTag.opens

theorem ne_nil : tag ≠ [] := by
  obtain ⟨body, rfl⟩ := isTag.exists_body
  exact List.cons_ne_nil _ _

/-- A tag ends without white space. -/
theorem trimEnd : trimEnd tag = tag := by
  have trimmed := isTag.trimmed
  obtain ⟨body, rfl⟩ := isTag.exists_body
  rwa [trim, Text.trimStart_cons_of_not_blank body (by decide)] at trimmed

/-- A tag is trimmed to itself. -/
theorem trim_concat_space : trim (tag ++ [' ']) = tag := by
  have ends := isTag.trimEnd
  obtain ⟨body, rfl⟩ := isTag.exists_body
  rw [trim, List.cons_append, Text.trimStart_cons_of_not_blank _ (by decide), ← List.cons_append,
    Text.trimEnd_concat_space, ends]

end IsTag

/-! ## Cutting a line -/

/-- How many braces a text opens and does not close. -/
def openBraces (cs : List Char) : Int := cs.count '{' - cs.count '}'

theorem openBraces_cons (c : Char) (cs : List Char) :
    openBraces (c :: cs) = openBraces [c] + openBraces cs := by
  rw [openBraces, openBraces, openBraces, ← List.singleton_append, List.count_append,
    List.count_append]
  omega

/-- Where no cut is made within a text, the line is cut behind it as if the text had been part of the
piece so far. -/
theorem cutLine_append {depth : Int} {piece cs : List Char}
    (uncut : ∀ before, before ++ ['@'] <+: cs → depth + openBraces before = 0 →
      (before.reverse ++ piece).head?.any isAsciiBlank = false) (rest : List Char) :
    cutLine depth piece (cs ++ rest) =
      cutLine (depth + openBraces cs) (cs.reverse ++ piece) rest := by
  induction cs generalizing depth piece with
  | nil => simp [openBraces]
  | cons c cs ih =>
      -- The first character joins the piece, and what is uncut behind it is uncut in the whole.
      have joins : cutLine (depth + openBraces [c]) (c :: piece) (cs ++ rest) =
          cutLine (depth + openBraces (c :: cs)) ((c :: cs).reverse ++ piece) rest := by
        rw [ih, openBraces_cons c cs, List.reverse_cons, List.append_assoc, List.singleton_append,
          Int.add_assoc]
        intro before starts shut
        have whole : (c :: before) ++ ['@'] <+: c :: cs := by
          rw [List.cons_append, List.cons_prefix_cons]
          exact ⟨rfl, starts⟩
        have bare := uncut (c :: before) whole (by rw [openBraces_cons]; omega)
        rwa [List.reverse_cons, List.append_assoc, List.singleton_append] at bare
      rw [List.cons_append, cutLine]
      split
      next isOpen =>
        subst isOpen
        exact joins
      next noOpen =>
        split
        next isClosed =>
          subst isClosed
          exact joins
        next noClosed =>
          have level : openBraces [c] = 0 := by simp [openBraces, noOpen, noClosed]
          rw [level, Int.add_zero] at joins
          split
          next cut =>
            simp only [Bool.and_eq_true, decide_eq_true_eq] at cut
            obtain ⟨⟨rfl, outside⟩, behind⟩ := cut
            have bare := uncut [] (by simp) (by simp [openBraces, outside])
            rw [List.reverse_nil, List.nil_append, behind] at bare
            cases bare
          next => exact joins

/-- A line that begins with a tag is not cut before the end of the tag. -/
theorem IsTag.cutLine_append {tag : List Char} (isTag : IsTag tag) (rest : List Char) :
    cutLine 0 [] (tag ++ rest) = cutLine 0 tag.reverse rest := by
  have balanced : (0 : Int) + openBraces tag = 0 := by
    rw [openBraces, isTag.balanced]
    omega
  rw [DocBlock.cutLine_append, balanced, List.append_nil]
  intro before starts shut
  rw [List.append_nil, List.head?_reverse, Bool.eq_false_iff]
  intro behind
  refine isTag.alone before starts behind ?_
  rw [openBraces] at shut
  omega

/-- Behind a tag and a space the next tag begins. -/
theorem cutLine_space (piece rest : List Char) :
    cutLine 0 piece (' ' :: '@' :: rest) =
      (piece.reverse ++ [' ']) :: cutLine 0 [] ('@' :: rest) := by
  simp [cutLine, isAsciiBlank]

section Tags

variable {tags : List String} (areTags : ∀ tag ∈ tags, IsTag tag.toList)

include areTags

/-- A line of tags begins with the first of them. -/
theorem exists_line (separator : String) (some : tags ≠ []) :
    ∃ rest, (joinWith separator tags).toList = '@' :: rest := by
  cases tags with
  | nil => exact absurd rfl some
  | cons first rest =>
      obtain ⟨body, starts⟩ := (areTags first List.mem_cons_self).exists_body
      obtain ⟨more, whole⟩ := Text.exists_toList_joinWith separator first rest
      exact ⟨body ++ more, by rw [whole, starts, List.cons_append]⟩

/-- The pieces of a line of tags are the tags. -/
theorem map_trim_cutLine (some : tags ≠ []) :
    (cutLine 0 [] (joinWith " " tags).toList).map trim = tags.map String.toList := by
  induction tags with
  | nil => exact absurd rfl some
  | cons first rest ih =>
      have isTag := areTags first List.mem_cons_self
      have areLater := fun tag mem => areTags tag (List.mem_cons_of_mem _ mem)
      cases rest with
      | nil =>
          have line := isTag.cutLine_append []
          rw [List.append_nil, cutLine, List.reverse_reverse] at line
          rw [joinWith, line, List.map_singleton, List.map_singleton, isTag.trimmed]
      | cons second rest =>
          have later := ih areLater (List.cons_ne_nil _ _)
          obtain ⟨more, starts⟩ := exists_line areLater " " (List.cons_ne_nil _ _)
          have space : " ".toList = [' '] := rfl
          rw [Text.toList_joinWith_cons, isTag.cutLine_append, space, List.singleton_append, starts,
            cutLine_space, ← starts, List.map_cons, later, List.reverse_reverse,
            isTag.trim_concat_space]
          rfl

/-- The pieces of a line of tags are the tags. -/
theorem linePieces_spaced : linePieces (joinWith " " tags).toList = tags.map String.toList := by
  cases tags with
  | nil => rfl
  | cons first rest =>
      rw [linePieces, map_trim_cutLine areTags (List.cons_ne_nil _ _), List.filter_eq_self]
      intro tag mem
      obtain ⟨text, isTag, rfl⟩ := List.mem_map.mp mem
      rw [Bool.not_eq_true', List.isEmpty_eq_false_iff]
      exact (areTags text isTag).ne_nil

/-- Tags on one line leave nothing to trim at the end. -/
theorem trimEnd_spaced : trimEnd (joinWith " " tags).toList = (joinWith " " tags).toList := by
  induction tags with
  | nil => rfl
  | cons first rest ih =>
      cases rest with
      | nil => exact (areTags first List.mem_cons_self).trimEnd
      | cons second rest =>
          have areLater := fun tag mem => areTags tag (List.mem_cons_of_mem _ mem)
          obtain ⟨more, starts⟩ := exists_line areLater " " (List.cons_ne_nil _ _)
          rw [Text.toList_joinWith_cons, ← List.append_assoc]
          exact Text.trimEnd_append _ (ih areLater) (starts ▸ List.cons_ne_nil _ _)

end Tags

/-- A text that begins with a tag has no decoration. -/
theorem undecorated_of_tag {body : List Char} (trimmed : trimEnd ('@' :: body) = '@' :: body) :
    undecorated ('@' :: body) = '@' :: body := by
  have solid : trimStart ('@' :: body) = '@' :: body :=
    Text.trimStart_cons_of_not_blank body (by decide)
  have noStar : Text.dropStart ['*'] ('@' :: body) = '@' :: body := rfl
  rw [undecorated, solid, noStar, trim, solid, trimmed]

/-- Decoration in front of a tag is taken off, and the tag is left. -/
theorem undecorated_starred {tag : List Char} (isTag : IsTag tag) :
    undecorated (' ' :: '*' :: ' ' :: tag) = tag := by
  have star : Text.dropStart ['*'] (trimStart (' ' :: '*' :: ' ' :: tag)) = ' ' :: tag := rfl
  rw [undecorated, star]
  exact isTag.trimmed

/-! ## The tags of a block -/

namespace TagScan

/-- A piece that opens a tag is a tag of its own. -/
theorem tags_take {piece : List Char} (starts : piece.head? = some '@') (scan : TagScan)
    (separator : Char) : (scan.take separator piece).tags = scan.tags ++ [piece] := by
  have alone : scan.current.toList.reverse = scan.current.toList := by
    cases scan.current with
    | none => rfl
    | some tag => rfl
  rw [take, if_pos starts, tags, tags, List.reverse_append, alone]
  rfl

/-- A line on which every piece opens a tag adds its pieces. -/
theorem tags_takeLine {line : List Char}
    (starts : ∀ piece ∈ linePieces (undecorated line), piece.head? = some '@') (scan : TagScan) :
    (scan.takeLine line).tags = scan.tags ++ linePieces (undecorated line) := by
  have later : ∀ (pieces : List (List Char)) (scan : TagScan),
      (∀ piece ∈ pieces, piece.head? = some '@') →
        (pieces.foldl (fun s piece => s.take ' ' piece) scan).tags = scan.tags ++ pieces := by
    intro pieces
    induction pieces with
    | nil => simp
    | cons piece rest ih =>
        intro scan starts
        rw [List.foldl_cons, ih _ fun other mem => starts other (List.mem_cons_of_mem _ mem),
          tags_take (starts piece List.mem_cons_self), List.append_assoc, List.singleton_append]
  rw [takeLine]
  cases pieces : linePieces (undecorated line) with
  | nil => rw [List.append_nil]
  | cons first rest =>
      rw [pieces] at starts
      dsimp only
      rw [later rest _ fun other mem => starts other (List.mem_cons_of_mem _ mem),
        tags_take (starts first List.mem_cons_self), List.append_assoc, List.singleton_append]

end TagScan

/-- Where all pieces of all lines begin tags, the tags are these pieces. -/
theorem splitTags_eq_flatMap {content : String}
    (starts : ∀ line ∈ splitLines content.toList, ∀ piece ∈ linePieces (undecorated line),
      piece.head? = some '@') :
    splitTags content = (splitLines content.toList).flatMap fun line =>
      linePieces (undecorated line) := by
  have run : ∀ (lines : List (List Char)) (scan : TagScan),
      (∀ line ∈ lines, ∀ piece ∈ linePieces (undecorated line), piece.head? = some '@') →
        (lines.foldl TagScan.takeLine scan).tags =
          scan.tags ++ lines.flatMap fun line => linePieces (undecorated line) := by
    intro lines
    induction lines with
    | nil => simp
    | cons line rest ih =>
        intro scan starts
        rw [List.foldl_cons, ih _ fun other mem => starts other (List.mem_cons_of_mem _ mem),
          TagScan.tags_takeLine (starts line List.mem_cons_self), List.flatMap_cons,
          List.append_assoc]
  exact run _ _ starts

/-! ## The two layouts -/

/-- Tags on one line, with a space between them. -/
def oneLine (tags : List String) : String := joinWith " " tags

/-- Tags on lines of their own, each behind a star. -/
def starred (tags : List String) : String := joinWith "\n" (tags.map (" * " ++ ·))

section Layouts

variable {tags : List String} (areTags : ∀ tag ∈ tags, IsTag tag.toList)

include areTags

/-- Tags on one line have no line feed between them. -/
theorem lineFeed_notMem_oneLine : '\n' ∉ (oneLine tags).toList := by
  rw [oneLine]
  induction tags with
  | nil => exact List.not_mem_nil
  | cons first rest ih =>
      have inFirst := (areTags first List.mem_cons_self).oneLine
      cases rest with
      | nil => exact inFirst
      | cons second rest =>
          have inRest := ih fun tag mem => areTags tag (List.mem_cons_of_mem _ mem)
          rw [Text.toList_joinWith_cons, List.mem_append, List.mem_append]
          rintro (first | space | later)
          · exact inFirst first
          · exact absurd space (by decide)
          · exact inRest later

/-- Tags on one line are read as they are. -/
theorem splitTags_oneLine : splitTags (oneLine tags) = tags.map String.toList := by
  cases tags with
  | nil => rfl
  | cons first rest =>
      obtain ⟨body, starts⟩ := exists_line areTags " " (List.cons_ne_nil _ _)
      have ends := trimEnd_spaced areTags
      have pieces := linePieces_spaced areTags
      have lines : splitLines (oneLine (first :: rest)).toList = [(oneLine (first :: rest)).toList] :=
        Text.splitLines_of_oneLine (lineFeed_notMem_oneLine areTags) (starts ▸ List.cons_ne_nil _ _)
      rw [starts] at ends
      have bare := undecorated_of_tag ends
      rw [← starts] at bare
      rw [splitTags_eq_flatMap, lines, List.flatMap_singleton, oneLine, bare, pieces]
      rw [lines, List.forall_mem_singleton, oneLine, bare, pieces]
      intro piece mem
      obtain ⟨tag, isTag, rfl⟩ := List.mem_map.mp mem
      exact (areTags tag isTag).opens

/-- Behind stars there are as many lines as tags. -/
theorem splitLines_starred :
    splitLines (starred tags).toList = tags.map fun tag => ' ' :: '*' :: ' ' :: tag.toList := by
  rw [starred]
  induction tags with
  | nil => rfl
  | cons first rest ih =>
      have isTag := areTags first List.mem_cons_self
      have line : (" * " ++ first).toList = ' ' :: '*' :: ' ' :: first.toList := by
        rw [String.toList_append]
        rfl
      have noFeed : '\n' ∉ (" * " ++ first).toList := by
        rw [line]
        simpa using isTag.oneLine
      cases rest with
      | nil =>
          rw [List.map_singleton, joinWith, Text.splitLines_of_oneLine noFeed (by simp [line]), line]
          rfl
      | cons second rest =>
          have trimmed := Text.trimEnd_append [' ', '*', ' '] isTag.trimEnd isTag.ne_nil
          have noReturn : Text.dropEnd ['\r'] (" * " ++ first).toList = (" * " ++ first).toList := by
            rw [line]
            exact Text.dropEnd_return trimmed
          have later := ih fun tag mem => areTags tag (List.mem_cons_of_mem _ mem)
          have feed : "\n".toList = ['\n'] := rfl
          rw [List.map_cons, List.map_cons, Text.toList_joinWith_cons, feed, List.singleton_append,
            Text.splitLines_append noFeed noReturn, ← List.map_cons, later, line]
          rfl

/-- Tags on lines of their own are read as they are. -/
theorem splitTags_starred : splitTags (starred tags) = tags.map String.toList := by
  have pieces : ∀ tag ∈ tags,
      linePieces (undecorated (' ' :: '*' :: ' ' :: tag.toList)) = [tag.toList] := by
    intro tag mem
    rw [undecorated_starred (areTags tag mem)]
    exact @linePieces_spaced [tag] fun other isTag => List.mem_singleton.mp isTag ▸ areTags tag mem
  rw [splitTags_eq_flatMap, splitLines_starred areTags, List.flatMap_map, List.map_eq_flatMap]
  · exact List.flatMap_congr pieces
  · rw [splitLines_starred areTags]
    intro line isLine piece mem
    obtain ⟨tag, isTag, rfl⟩ := List.mem_map.mp isLine
    rw [pieces tag isTag, List.mem_singleton] at mem
    exact mem ▸ (areTags tag isTag).opens

end Layouts

/-- Tags are read the same whether they share a line, with spaces between them, or stand on lines of
their own behind stars: as they are, so that both blocks say the same of parameters, result, type
and privacy. -/
theorem layout_irrelevant {tags : List String} (areTags : ∀ tag ∈ tags, IsTag tag.toList) :
    splitTags (oneLine tags) = tags.map String.toList ∧
      splitTags (starred tags) = tags.map String.toList ∧
      ofContent (oneLine tags) = ofContent (starred tags) := by
  have together := splitTags_oneLine areTags
  have apart := splitTags_starred areTags
  exact ⟨together, apart, by rw [ofContent, ofContent, together, apart]⟩

/-- Tags with nested braces, an `@` inside of braces and one that no white space stands before. -/
def linkedTags : List String :=
  ["@param \x7b\x7ba: number\x7d\x7d item as in \x7b @link Größe\x7d", "@return \x7bstring\x7d to a@b",
    "@private"]

theorem layout_irrelevant_linked :
    (∀ tag ∈ linkedTags, IsTag tag.toList) ∧
      splitTags (oneLine linkedTags) = linkedTags.map String.toList ∧
      splitTags (starred linkedTags) = linkedTags.map String.toList ∧
      ofContent (oneLine linkedTags) = ofContent (starred linkedTags) := by
  have areTags : ∀ tag ∈ linkedTags, IsTag tag.toList := by decide +kernel
  exact ⟨areTags, layout_irrelevant areTags⟩

end DocBlock

end ClassFactory
