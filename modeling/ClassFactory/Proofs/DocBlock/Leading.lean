/-
Module: ClassFactory.Proofs.DocBlock.Leading
Purpose: Which comment documents a place of a source. The search by halving finds the last comment
  that ends in front of the place, and no other one can stand right in front of it. The range of a
  line comment is widened, even beyond the source, but what it covers then is never a block.
Main exports: slice?_eq_some_iff, lt_endedBefore_iff, InOrder, Documents, leadingBlock_exact,
  widened_beyond_closing
-/
import ClassFactory.DocBlock
import Mathlib.Data.List.Infix

namespace ClassFactory

/-! ## Slices -/

namespace Text

/-- Dropping bytes leaves what stands behind a boundary of that offset. -/
theorem dropBytes?_eq_some_iff {offset : Nat} {cs rest : List Char} :
    dropBytes? offset cs = some rest ↔ ∃ front, cs = front ++ rest ∧ byteLength front = offset := by
  constructor
  · intro cut
    fun_induction dropBytes? offset cs with
    | case1 cs => exact ⟨[], Option.some.inj cut, rfl⟩
    | case2 => cases cut
    | case3 offset c cs fits ih =>
        obtain ⟨front, rfl, length⟩ := ih cut
        refine ⟨c :: front, rfl, ?_⟩
        rw [byteLength, length]
        omega
    | case4 => cases cut
  · rintro ⟨front, rfl, rfl⟩
    exact dropBytes?_append front rest

/-- As many bytes as a text has may be taken from it. -/
theorem takeBytes?_append (front rest : List Char) :
    takeBytes? (byteLength front) (front ++ rest) = some front := by
  induction front with
  | nil => rw [byteLength, takeBytes?]
  | cons c front ih =>
      have some := Char.utf8Size_pos c
      obtain ⟨length, whole⟩ := Nat.exists_eq_add_of_le' (show 1 ≤ c.utf8Size + byteLength front by omega)
      have behind : length + 1 - c.utf8Size = byteLength front := by omega
      rw [byteLength, whole, List.cons_append, takeBytes?, if_pos (by omega), behind, ih]
      rfl

/-- Taking bytes yields what stands in front of a boundary of that offset. -/
theorem takeBytes?_eq_some_iff {length : Nat} {cs front : List Char} :
    takeBytes? length cs = some front ↔ ∃ rest, cs = front ++ rest ∧ byteLength front = length := by
  constructor
  · intro cut
    fun_induction takeBytes? length cs generalizing front with
    | case1 cs => exact ⟨cs, by rw [← Option.some.inj cut]; rfl, by rw [← Option.some.inj cut]; rfl⟩
    | case2 => cases cut
    | case3 length c cs fits ih =>
        obtain ⟨front, taken, rfl⟩ := Option.map_eq_some_iff.mp cut
        obtain ⟨rest, rfl, whole⟩ := ih taken
        refine ⟨rest, rfl, ?_⟩
        rw [byteLength, whole]
        omega
    | case4 => cases cut
  · rintro ⟨rest, rfl, rfl⟩
    exact takeBytes?_append front rest

/-- A slice is what stands between two places of the text. -/
theorem slice?_eq_some_iff {start stop : Nat} {cs middle : List Char} :
    slice? start stop cs = some middle ↔
      ∃ front back, cs = front ++ (middle ++ back) ∧ byteLength front = start ∧
        start + byteLength middle = stop := by
  rw [slice?]
  constructor
  · intro cut
    split at cut
    next ordered =>
      obtain ⟨rest, dropped, taken⟩ := Option.bind_eq_some_iff.mp cut
      obtain ⟨front, rfl, length⟩ := dropBytes?_eq_some_iff.mp dropped
      obtain ⟨back, rfl, width⟩ := takeBytes?_eq_some_iff.mp taken
      exact ⟨front, back, rfl, length, by omega⟩
    next => cases cut
  · rintro ⟨front, back, rfl, rfl, rfl⟩
    rw [if_pos (Nat.le_add_right _ _), dropBytes?_append, Option.bind_some, Nat.add_sub_cancel_left,
      takeBytes?_append]

/-- Of two places of a text, the one with fewer bytes in front of it comes first. -/
theorem exists_between {front after later rest : List Char}
    (same : front ++ after = later ++ rest) (ordered : byteLength front ≤ byteLength later) :
    ∃ between, later = front ++ between ∧ after = between ++ rest := by
  rcases List.append_eq_append_iff.mp same with ⟨between, rfl, rfl⟩ | ⟨between, rfl, rfl⟩
  · exact ⟨between, rfl, rfl⟩
  · rw [byteLength_append] at ordered
    cases between with
    | nil => exact ⟨[], by simp, by simp⟩
    | cons c between =>
        have some := Char.utf8Size_pos c
        rw [byteLength] at ordered
        omega

end Text

/-! ## The search -/

section Search

variable {comments : Array Span} {offset : Nat}

/-- The range of that number ends at or before the offset. -/
def HasEnded (comments : Array Span) (offset index : Nat) : Prop :=
  (comments[index]?).any (fun comment => comment.stop ≤ offset) = true

/-- A range has ended just if there is one of that number that ends in time. -/
theorem hasEnded_iff {index : Nat} :
    HasEnded comments offset index ↔
      ∃ comment, comments[index]? = some comment ∧ comment.stop ≤ offset := by
  rw [HasEnded, Option.any_eq_true]
  simp

/-- Halving keeps between the ranges that have ended and those that have not, and stops at a single
one. -/
theorem halve_spec
    (ordered : ∀ early late, early ≤ late → HasEnded comments offset late →
      HasEnded comments offset early) {budget base size : Nat} (some : 0 < size)
    (enough : size ≤ budget + 1)
    (before : ∀ index < base, HasEnded comments offset index)
    (behind : ∀ index, base + size ≤ index → ¬ HasEnded comments offset index) :
    (∀ index < halve comments offset budget base size, HasEnded comments offset index) ∧
      ∀ index, halve comments offset budget base size < index →
        ¬ HasEnded comments offset index := by
  induction budget generalizing base size with
  | zero =>
      rw [halve]
      exact ⟨before, fun index later => behind index (by omega)⟩
  | succ budget ih =>
      rw [halve]
      split
      next single => exact ⟨before, fun index later => behind index (by omega)⟩
      next =>
        dsimp only
        split
        next reached =>
          have here : HasEnded comments offset (base + size / 2) := reached
          refine ih (by omega) (by omega) (fun index earlier => ordered _ _ (by omega) here) ?_
          exact fun index later => behind index (by omega)
        next missed =>
          have here : ¬ HasEnded comments offset (base + size / 2) := missed
          refine ih (by omega) (by omega) before ?_
          exact fun index later ended => here (ordered _ _ (by omega) ended)

/-- The ranges in front of the number found are those that have ended. -/
theorem lt_endedBefore_iff
    (ordered : ∀ early late, early ≤ late → HasEnded comments offset late →
      HasEnded comments offset early) {index : Nat} :
    index < endedBefore comments offset ↔ HasEnded comments offset index := by
  have beyond : ∀ index, comments.size ≤ index → ¬ HasEnded comments offset index := by
    intro index outside ended
    obtain ⟨comment, found, -⟩ := hasEnded_iff.mp ended
    rw [Array.getElem?_eq_none outside] at found
    cases found
  rw [endedBefore]
  split
  next none =>
    have outside : ¬ HasEnded comments offset index :=
      beyond index (by rw [Array.isEmpty_iff.mp none]; exact Nat.zero_le _)
    simp [outside]
  next some =>
    have some : 0 < comments.size := by
      rw [Array.size_pos_iff]
      rintro rfl
      exact some rfl
    obtain ⟨before, behind⟩ := halve_spec ordered some (Nat.le_succ comments.size)
      (fun index none => absurd none (Nat.not_lt_zero index))
      (fun index outside => beyond index (by omega))
    dsimp only
    generalize halve comments offset comments.size 0 comments.size = base at before behind ⊢
    split
    next reached =>
      constructor
      · intro earlier
        rcases Nat.lt_succ_iff_lt_or_eq.mp earlier with here | rfl
        · exact before index here
        · exact reached
      · intro ended
        exact Nat.lt_succ_of_le (Nat.le_of_not_lt fun later => behind index later ended)
    next missed =>
      refine ⟨before index, fun ended => ?_⟩
      rcases Nat.lt_trichotomy index base with earlier | rfl | later
      · exact earlier
      · exact absurd ended missed
      · exact absurd ended (behind index later)

end Search

/-! ## Comments -/

open Text (slice? dropBytes? byteLength isBlank)

/-- The ranges are those of the comments of a source in order of position: each covers a text that
opens a comment, and no two overlap. -/
structure InOrder (source : List Char) (comments : Array Span) : Prop where
  apart : comments.toList.Pairwise fun earlier later => earlier.stop ≤ later.start
  opens : ∀ comment ∈ comments, ∃ text, slice? comment.start comment.stop source = some text ∧
    (['/', '/'] <+: text ∨ ['/', '*'] <+: text)

/-- There is nothing but white space between the end of a comment and a place of the source. -/
def EndsRightBefore (source : List Char) (offset : Nat) (comment : Span) : Prop :=
  ∃ between, slice? comment.stop offset source = some between ∧ ∀ c ∈ between, isBlank c = true

/-- A comment is a documentation block, of the given text, right in front of a place. -/
structure Documents (source : List Char) (offset : Nat) (comment : Span) (text : List Char) :
    Prop where
  ended : comment.stop ≤ offset
  covers : slice? comment.start comment.stop source = some text
  opens : ['/', '*', '*'] <+: text
  plain : ¬ ['/', '*', '*', '*'] <+: text
  blank : EndsRightBefore source offset comment

section Comments

variable {source text : List Char} {comments : Array Span} {comment : Span} {offset index : Nat}

/-- A comment that starts with its delimiter is left as it is. -/
theorem withDelimiters?_block (covers : slice? comment.start comment.stop source = some text)
    (block : ['/', '*'] <+: text) : withDelimiters? source comment = some comment := by
  obtain ⟨front, back, rfl, start, -⟩ := Text.slice?_eq_some_iff.mp covers
  have cut : dropBytes? comment.start (front ++ (text ++ back)) = some (text ++ back) :=
    Text.dropBytes?_eq_some_iff.mpr ⟨front, rfl, start⟩
  have starts : Text.startsWith ['/', '*'] (text ++ back) = true :=
    Text.isSome_dropStart?_iff.mpr (block.trans (List.prefix_append text back))
  simp only [withDelimiters?, cut, starts, if_true]

/-- A line comment is widened by two bytes, and what stands there is no block: its third character is
the slash that the comment starts with. -/
theorem not_block_of_line (covers : slice? comment.start comment.stop source = some text)
    (line : ['/', '/'] <+: text) {range : Span} {wide : List Char}
    (widened : withDelimiters? source comment = some range)
    (there : slice? range.start range.stop source = some wide) : ¬ ['/', '*', '*'] <+: wide := by
  obtain ⟨front, back, whole, start, -⟩ := Text.slice?_eq_some_iff.mp covers
  obtain ⟨more, rfl⟩ := line
  have cut : dropBytes? comment.start source = some ('/' :: '/' :: (more ++ back)) :=
    Text.dropBytes?_eq_some_iff.mpr ⟨front, whole, start⟩
  have other : Text.startsWith ['/', '*'] ('/' :: '/' :: (more ++ back)) = false := rfl
  simp only [withDelimiters?, cut, other, if_neg Bool.false_ne_true] at widened
  split at widened
  next => cases widened
  next room =>
    obtain rfl := Option.some.inj widened
    rintro ⟨rest, rfl⟩
    obtain ⟨before, behind, again, place, -⟩ := Text.slice?_eq_some_iff.mp there
    have length : byteLength (before ++ ['/', '*']) = comment.start := by
      rw [Text.byteLength_append, place]
      have two : byteLength ['/', '*'] = 2 := by decide
      rw [two]
      exact Nat.sub_add_cancel (Nat.le_of_not_lt room)
    have again : dropBytes? comment.start source = some ('*' :: (rest ++ behind)) :=
      Text.dropBytes?_eq_some_iff.mpr ⟨before ++ ['/', '*'], by simp [again], length⟩
    rw [cut] at again
    cases again

/-- What lies between the end of a comment and a later place is a slice. -/
theorem exists_slice_behind (covers : slice? comment.start comment.stop source = some text)
    (boundary : (dropBytes? offset source).isSome = true) (ended : comment.stop ≤ offset) :
    ∃ between, slice? comment.stop offset source = some between := by
  obtain ⟨rest, found⟩ := Option.isSome_iff_exists.mp boundary
  obtain ⟨later, whole, place⟩ := Text.dropBytes?_eq_some_iff.mp found
  obtain ⟨front, back, rfl, start, stop⟩ := Text.slice?_eq_some_iff.mp covers
  have width : byteLength (front ++ text) = comment.stop := by
    rw [Text.byteLength_append, start, stop]
  rw [← List.append_assoc] at whole
  obtain ⟨between, rfl, behind⟩ := Text.exists_between whole (by rw [width, place]; exact ended)
  refine ⟨between, Text.slice?_eq_some_iff.mpr ⟨front ++ text, rest, ?_, width, ?_⟩⟩
  · rw [← behind, List.append_assoc]
  · rw [← place, Text.byteLength_append, width]

/-- A comment that lies behind another one and ends in time does not lie in white space. -/
theorem not_endsRightBefore_of_later {later : Span} (blank : EndsRightBefore source offset comment)
    (apart : comment.stop ≤ later.start) (inside : later.stop ≤ offset)
    (covers : slice? later.start later.stop source = some text) (slash : '/' ∈ text) : False := by
  obtain ⟨between, here, allBlank⟩ := blank
  obtain ⟨front, back, rfl, start, stop⟩ := Text.slice?_eq_some_iff.mp here
  obtain ⟨before, behind, whole, laterStart, laterStop⟩ := Text.slice?_eq_some_iff.mp covers
  obtain ⟨gap, rfl, rest⟩ := Text.exists_between whole (by rw [start, laterStart]; exact apart)
  rw [← List.append_assoc] at rest
  have fits : byteLength (gap ++ text) ≤ byteLength between := by
    rw [Text.byteLength_append] at laterStart ⊢
    omega
  obtain ⟨more, rfl, -⟩ := Text.exists_between rest.symm fits
  have solid := allBlank '/' (by simp [slash])
  exact absurd solid (by decide)

variable (inOrder : InOrder source comments)

include inOrder

/-- A range does not end before it starts. -/
theorem InOrder.start_le_stop (found : comments[index]? = some comment) :
    comment.start ≤ comment.stop := by
  obtain ⟨text, covers, -⟩ := inOrder.opens comment (Array.mem_of_getElem? found)
  obtain ⟨-, -, -, -, stop⟩ := Text.slice?_eq_some_iff.mp covers
  omega

/-- Of two ranges the one with the lower number ends first. -/
theorem InOrder.stop_le_start {early late : Nat} {later : Span} (earlier : early < late)
    (found : comments[early]? = some comment) (laterFound : comments[late]? = some later) :
    comment.stop ≤ later.start := by
  obtain ⟨earlyInside, rfl⟩ := Array.getElem?_eq_some_iff.mp found
  obtain ⟨lateInside, rfl⟩ := Array.getElem?_eq_some_iff.mp laterFound
  exact List.pairwise_iff_getElem.mp inOrder.apart early late earlyInside lateInside earlier

/-- With a range, all in front of it have ended. -/
theorem InOrder.hasEnded_of_le (early late : Nat) (ordered : early ≤ late)
    (ended : HasEnded comments offset late) : HasEnded comments offset early := by
  rcases Nat.lt_or_eq_of_le ordered with earlier | rfl
  · obtain ⟨later, found, stop⟩ := hasEnded_iff.mp ended
    obtain ⟨inside, -⟩ := Array.getElem?_eq_some_iff.mp found
    have here := Array.getElem?_eq_getElem (Nat.lt_trans earlier inside)
    have apart := inOrder.stop_le_start earlier here found
    have width := inOrder.start_le_stop found
    exact hasEnded_iff.mpr ⟨_, here, by omega⟩
  · exact ended

/-- A comment right in front of a place is the last one that has ended there. -/
theorem InOrder.endedBefore_eq (found : comments[index]? = some comment)
    (ended : comment.stop ≤ offset) (blank : EndsRightBefore source offset comment) :
    endedBefore comments offset = index + 1 := by
  have here : index < endedBefore comments offset :=
    (lt_endedBefore_iff inOrder.hasEnded_of_le).mpr (hasEnded_iff.mpr ⟨comment, found, ended⟩)
  have last : ¬ index + 1 < endedBefore comments offset := by
    intro more
    obtain ⟨later, laterFound, inside⟩ :=
      hasEnded_iff.mp ((lt_endedBefore_iff inOrder.hasEnded_of_le).mp more)
    obtain ⟨text, covers, opens⟩ := inOrder.opens later (Array.mem_of_getElem? laterFound)
    have slash : '/' ∈ text := by
      rcases opens with opens | opens
      · exact opens.subset List.mem_cons_self
      · exact opens.subset List.mem_cons_self
    exact not_endsRightBefore_of_later blank
      (inOrder.stop_le_start (Nat.lt_succ_self index) found laterFound) inside covers slash
  omega

omit inOrder in
/-- The block that is found at a range with its delimiters. -/
theorem leadingBlock_of_ended (last : endedBefore comments offset = index + 1)
    (found : comments[index]? = some comment) {range : Span}
    (delimited : withDelimiters? source comment = some range)
    (covers : slice? range.start range.stop source = some text) {between : List Char}
    (behind : slice? range.stop offset source = some between) :
    leadingBlock source comments offset =
      if ['/', '*', '*'] <+: text ∧ ¬ ['/', '*', '*', '*'] <+: text ∧ between.all isBlank = true
      then some (String.ofList text) else none := by
  have looked : leadingBlock source comments offset =
      if Text.startsWith ['/', '*', '*'] text && !Text.startsWith ['/', '*', '*', '*'] text then
        if between.all isBlank then some (String.ofList text) else none
      else none := by
    simp only [leadingBlock, last, found, delimited, covers, behind, Option.bind_eq_bind,
      Option.bind_some]
  simp only [looked, Text.startsWith, Bool.and_eq_true, Bool.not_eq_true', Text.isSome_dropStart?_iff,
    ← Bool.not_eq_true, ite_and]

/-- The text found is that of a documentation block right in front of the place. -/
theorem InOrder.exists_documents {block : String}
    (found : leadingBlock source comments offset = some block) :
    ∃ comment ∈ comments, Documents source offset comment block.toList := by
  unfold leadingBlock at found
  split at found
  next => cases found
  next index last =>
    obtain ⟨comment, here, found⟩ := Option.bind_eq_some_iff.mp found
    obtain ⟨range, delimited, found⟩ := Option.bind_eq_some_iff.mp found
    obtain ⟨wide, taken, found⟩ := Option.bind_eq_some_iff.mp found
    split at found
    next documented =>
      obtain ⟨between, behind, found⟩ := Option.bind_eq_some_iff.mp found
      split at found
      next blank =>
        obtain rfl := Option.some.inj found
        obtain ⟨opens, plain⟩ := Bool.and_eq_true _ _ ▸ documented
        rw [Text.startsWith, Text.isSome_dropStart?_iff] at opens
        rw [Bool.not_eq_true', Bool.eq_false_iff, Text.startsWith, ne_eq,
          Text.isSome_dropStart?_iff] at plain
        have mem := Array.mem_of_getElem? here
        obtain ⟨text, covers, line | starts⟩ := inOrder.opens comment mem
        · exact absurd opens (not_block_of_line covers line delimited taken)
        · obtain rfl : comment = range :=
            Option.some.inj ((withDelimiters?_block covers starts).symm.trans delimited)
          have ended : HasEnded comments offset index :=
            (lt_endedBefore_iff inOrder.hasEnded_of_le).mp (last ▸ Nat.lt_succ_self index)
          obtain ⟨again, foundAgain, stop⟩ := hasEnded_iff.mp ended
          obtain rfl := Option.some.inj (here.symm.trans foundAgain)
          rw [String.toList_ofList]
          exact ⟨comment, mem, stop, taken, opens, plain, between, behind,
            List.all_eq_true.mp blank⟩
      next => cases found
    next => cases found

end Comments

/-- With the comments of a source in order of position, and a place between two of its characters, the
block found is the text of a comment that ends at or before the place, starts with `/**` and not
with `/***`, and has only white space behind it up to the place; where there is such a comment, its
text is found. The search settles on it, for no other comment is followed by white space alone. Of a
block comment the slice that is taken is the comment itself. A line comment is taken for a range
without its delimiters; the slice that is then taken need not exist, and never yields a block. -/
theorem leadingBlock_exact {source : List Char} {comments : Array Span} {offset : Nat}
    (inOrder : InOrder source comments) (boundary : (dropBytes? offset source).isSome = true) :
    (∀ block : String, leadingBlock source comments offset = some block ↔
      ∃ comment ∈ comments, Documents source offset comment block.toList) ∧
    (∀ index comment, comments[index]? = some comment → comment.stop ≤ offset →
      (slice? comment.stop offset source).isSome = true ∧
        (EndsRightBefore source offset comment → endedBefore comments offset = index + 1)) ∧
    ∀ comment ∈ comments, ∃ text, slice? comment.start comment.stop source = some text ∧
      (['/', '*'] <+: text ∧ withDelimiters? source comment = some comment ∨
        ['/', '/'] <+: text ∧ ∀ range wide, withDelimiters? source comment = some range →
          slice? range.start range.stop source = some wide → ¬ ['/', '*', '*'] <+: wide) := by
  refine ⟨fun block => ⟨inOrder.exists_documents, ?_⟩, ?_, ?_⟩
  · rintro ⟨comment, mem, documents⟩
    obtain ⟨index, found⟩ := Array.mem_iff_getElem?.mp mem
    obtain ⟨between, behind, blank⟩ := documents.blank
    have delimited : withDelimiters? source comment = some comment :=
      withDelimiters?_block documents.covers ((by decide : ['/', '*'] <+: ['/', '*', '*']).trans
        documents.opens)
    rw [leadingBlock_of_ended (inOrder.endedBefore_eq found documents.ended documents.blank) found
      delimited documents.covers behind,
      if_pos ⟨documents.opens, documents.plain, List.all_eq_true.mpr blank⟩, String.ofList_toList]
  · intro index comment found ended
    obtain ⟨text, covers, -⟩ := inOrder.opens comment (Array.mem_of_getElem? found)
    exact ⟨Option.isSome_iff_exists.mpr (exists_slice_behind covers boundary ended),
      inOrder.endedBefore_eq found ended⟩
  · intro comment mem
    obtain ⟨text, covers, line | block⟩ := inOrder.opens comment mem
    · exact ⟨text, covers, .inr ⟨line, fun range wide => not_block_of_line covers line⟩⟩
    · exact ⟨text, covers, .inl ⟨block, withDelimiters?_block covers block⟩⟩

/-- A line comment, a block without text and a documentation block with a letter of two bytes. -/
def commentedSource : List Char := "//é\n/**/ /** ü */ x".toList

/-- Where its comments are. -/
def commentedRanges : Array Span := #[⟨0, 4⟩, ⟨5, 9⟩, ⟨10, 19⟩]

theorem commentedRanges_inOrder : InOrder commentedSource commentedRanges where
  apart := by decide
  opens := by
    simp only [commentedRanges, List.mem_toArray, List.mem_cons, List.not_mem_nil, or_false,
      forall_eq_or_imp, forall_eq]
    exact ⟨⟨['/', '/', 'é'], by decide, .inl (by decide)⟩,
      ⟨['/', '*', '*', '/'], by decide, .inr (by decide)⟩,
      ⟨"/** ü */".toList, by decide, .inr (by decide)⟩⟩

/-- The last of them is found in front of what follows it. -/
theorem leadingBlock_exact_umlaut :
    InOrder commentedSource commentedRanges ∧ (dropBytes? 20 commentedSource).isSome = true ∧
      leadingBlock commentedSource commentedRanges 20 = some "/** ü */" := by
  have boundary : (dropBytes? 20 commentedSource).isSome = true := by decide
  obtain ⟨found, -, -⟩ := leadingBlock_exact commentedRanges_inOrder boundary
  refine ⟨commentedRanges_inOrder, boundary, (found _).mpr ⟨⟨10, 19⟩, ?_, ?_⟩⟩
  · simp [commentedRanges]
  · exact ⟨by decide, by decide, by decide, by decide, [' '], by decide, by simp [Text.isBlank]⟩

/-- A byte order mark is white space in scripts, but none here. -/
example : leadingBlock ("/** a */".toList ++ ['\uFEFF', 'x']) #[⟨0, 8⟩] 11 = none := by decide

/-- A source that ends with a line comment. -/
def closingSource : List Char := "x //".toList

/-- Behind the line comment the search settles on it, and its range of bytes, from 2 to 4, is widened
to one from 0 to 6. The source has but four bytes, and the slice does not exist. -/
theorem widened_beyond_closing :
    InOrder closingSource #[⟨2, 4⟩] ∧ (dropBytes? 4 closingSource).isSome = true ∧
      endedBefore #[⟨2, 4⟩] 4 = 1 ∧ withDelimiters? closingSource ⟨2, 4⟩ = some ⟨0, 6⟩ ∧
      slice? 0 6 closingSource = none := by
  have line : slice? 2 4 closingSource = some ['/', '/'] := by decide
  have inOrder : InOrder closingSource #[⟨2, 4⟩] :=
    { apart := List.pairwise_singleton _ _
      opens := by
        intro comment mem
        obtain rfl := Array.mem_singleton.mp mem
        exact ⟨_, line, .inl (List.prefix_refl _)⟩ }
  exact ⟨inOrder, by decide, by decide, by decide, by decide⟩

end ClassFactory
