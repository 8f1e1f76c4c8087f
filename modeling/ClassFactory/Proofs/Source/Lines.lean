/-
Module: ClassFactory.Proofs.Source.Lines
Purpose: The line table of a text against the bytes of the text. The line of an offset counts the line
  feeds in front of it and the column how far back the last one lies, also inside of a character; the
  way back from line and column leads to the same offset.
Main exports: utf8Bytes, newlinesBefore, sinceNewline, StartsLine, InsertsAt,
  LineIndex.lineColumn_counts
-/
import ClassFactory.Source.Lines
import Mathlib.Algebra.Group.Nat.Defs
import Mathlib.Data.List.Induction
import Mathlib.Data.List.TakeWhile

namespace ClassFactory

/-! ## Bytes -/

/-- The bytes of a text. -/
def utf8Bytes (text : String) : List UInt8 := text.toUTF8.data.toList

theorem utf8Bytes_eq (text : String) :
    utf8Bytes text = text.toList.flatMap String.utf8EncodeChar := by
  have encoded : text.toUTF8 = text.toList.utf8Encode := String.utf8Encode_toList.symm
  rw [utf8Bytes, encoded, List.utf8Encode]
  simp

/-- The byte that ends a line. -/
def lineFeed : UInt8 := 10

/-- How many line feeds there are among the first bytes. -/
def newlinesBefore (bytes : List UInt8) (offset : Nat) : Nat :=
  (bytes.take offset).count lineFeed

/-- There are no more line feeds before an offset than there are in all. -/
theorem newlinesBefore_le (bytes : List UInt8) (offset : Nat) :
    newlinesBefore bytes offset ≤ bytes.count lineFeed :=
  (List.take_sublist offset bytes).count_le lineFeed

/-- How many bytes lie between an offset and the last line feed in front of it, or the start. -/
def sinceNewline (bytes : List UInt8) (offset : Nat) : Nat :=
  ((bytes.take offset).reverse.takeWhile (· ≠ lineFeed)).length

/-- A line feed is one byte, and no other character has that byte. -/
theorem lineFeed_mem_utf8EncodeChar {c : Char} (mem : lineFeed ∈ String.utf8EncodeChar c) :
    c = '\n' := by
  have small : ∀ n, n < 256 → lineFeed = UInt8.ofNat n → n = 10 := by
    intro n below same
    have value : 10 = (UInt8.ofNat n).toNat := congrArg UInt8.toNat same
    rw [value, UInt8.toNat_ofNat_of_lt' below]
  have absent : ∀ n, 10 < n → n < 256 → lineFeed ≠ UInt8.ofNat n := by
    intro n above below same
    exact absurd (small n below same) (Nat.ne_of_gt above)
  rw [String.utf8EncodeChar] at mem
  split at mem
  next ascii =>
    have value := small c.val.toNat (by omega) (List.mem_singleton.mp mem)
    exact Char.ext (UInt32.toNat_inj.mp value)
  next =>
    -- Every byte of a longer encoding is at least 128.
    exfalso
    split at mem
    · simp only [List.mem_cons, List.not_mem_nil, or_false] at mem
      rcases mem with h | h
      all_goals exact absent _ (by omega) (by omega) h
    · split at mem
      · simp only [List.mem_cons, List.not_mem_nil, or_false] at mem
        rcases mem with h | h | h
        all_goals exact absent _ (by omega) (by omega) h
      · simp only [List.mem_cons, List.not_mem_nil, or_false] at mem
        rcases mem with h | h | h | h
        all_goals exact absent _ (by omega) (by omega) h

/-! ## The table -/

/-- The offsets just after each line feed among bytes that begin at an offset. -/
def byteLineStarts : Nat → List UInt8 → List Nat
  | _, [] => []
  | offset, b :: bytes =>
      if b = lineFeed then (offset + 1) :: byteLineStarts (offset + 1) bytes
      else byteLineStarts (offset + 1) bytes

/-- The lines of two parts begin where those of each do. -/
theorem byteLineStarts_append (offset : Nat) (bytes more : List UInt8) :
    byteLineStarts offset (bytes ++ more) =
      byteLineStarts offset bytes ++ byteLineStarts (offset + bytes.length) more := by
  induction bytes generalizing offset with
  | nil => rfl
  | cons b bytes ih =>
      have place : offset + (b :: bytes).length = offset + 1 + bytes.length := by
        rw [List.length_cons]
        omega
      rw [List.cons_append, byteLineStarts, byteLineStarts, ih, place]
      split
      · rfl
      · rfl

/-- Without a line feed no further line begins. -/
theorem byteLineStarts_of_notMem {bytes : List UInt8} (offset : Nat) (none : lineFeed ∉ bytes) :
    byteLineStarts offset bytes = [] := by
  induction bytes generalizing offset with
  | nil => rfl
  | cons b bytes ih =>
      rw [List.mem_cons, not_or] at none
      obtain ⟨differs, rest⟩ := none
      rw [byteLineStarts, if_neg (Ne.symm differs), ih _ rest]

/-- Each line feed begins a line. -/
theorem length_byteLineStarts (offset : Nat) (bytes : List UInt8) :
    (byteLineStarts offset bytes).length = bytes.count lineFeed := by
  induction bytes generalizing offset with
  | nil => rfl
  | cons b bytes ih =>
      rw [byteLineStarts, List.count_cons]
      split
      next same => simp [same, ih]
      next differs => simp [differs, ih]

/-- A further line begins within the text, or at its end. -/
theorem mem_byteLineStarts {offset start : Nat} {bytes : List UInt8}
    (mem : start ∈ byteLineStarts offset bytes) : offset < start ∧ start ≤ offset + bytes.length := by
  induction bytes generalizing offset with
  | nil => cases mem
  | cons b bytes ih =>
      rw [List.length_cons]
      rw [byteLineStarts] at mem
      split at mem
      · rcases List.mem_cons.mp mem with rfl | later
        · omega
        · have := ih later
          omega
      · have := ih mem
        omega

/-- Lines begin one after another. -/
theorem byteLineStarts_sorted (offset : Nat) (bytes : List UInt8) :
    (byteLineStarts offset bytes).Pairwise (· < ·) := by
  induction bytes generalizing offset with
  | nil => exact .nil
  | cons b bytes ih =>
      rw [byteLineStarts]
      split
      · exact .cons (fun start mem => (mem_byteLineStarts mem).1) (ih _)
      · exact ih _

/-- The table over characters is the table over their bytes. -/
theorem lineStarts_eq (offset : Nat) (cs : List Char) :
    lineStarts offset cs = byteLineStarts offset (cs.flatMap String.utf8EncodeChar) := by
  induction cs generalizing offset with
  | nil => rfl
  | cons c cs ih =>
      rw [lineStarts, List.flatMap_cons, byteLineStarts_append, String.length_utf8EncodeChar, ih]
      split
      next same =>
        subst same
        rfl
      next differs =>
        rw [byteLineStarts_of_notMem offset fun mem => differs (lineFeed_mem_utf8EncodeChar mem),
          List.nil_append]

/-- The starts up to an offset are those among the bytes in front of it. -/
theorem takeWhile_byteLineStarts (bytes : List UInt8) (offset : Nat) :
    (byteLineStarts 0 bytes).takeWhile (· ≤ offset) = byteLineStarts 0 (bytes.take offset) := by
  have reached : ∀ start ∈ byteLineStarts 0 (bytes.take offset), decide (start ≤ offset) = true := by
    intro start mem
    have below := (mem_byteLineStarts mem).2
    have taken := List.length_take_le offset bytes
    exact decide_eq_true (by omega)
  have beyond : (byteLineStarts (0 + (bytes.take offset).length) (bytes.drop offset)).takeWhile
      (· ≤ offset) = [] := by
    cases rest : byteLineStarts (0 + (bytes.take offset).length) (bytes.drop offset) with
    | nil => rfl
    | cons start later =>
        have listed : start ∈ byteLineStarts (0 + (bytes.take offset).length) (bytes.drop offset) := by
          rw [rest]
          exact List.mem_cons_self
        have place := mem_byteLineStarts listed
        rw [List.length_take, List.length_drop] at place
        have isBeyond : ¬ start ≤ offset := by omega
        exact List.takeWhile_cons_of_neg (by simpa using isBeyond)
  conv => lhs; rw [← List.take_append_drop offset bytes, byteLineStarts_append]
  rw [List.takeWhile_append_of_pos reached, beyond, List.append_nil]

/-- The last line start among bytes lies as far back as the last line feed does. -/
theorem lastStart_add (bytes : List UInt8) :
    (0 :: byteLineStarts 0 bytes).getLastD 0 +
      (bytes.reverse.takeWhile (· ≠ lineFeed)).length = bytes.length := by
  induction bytes using List.reverseRecOn with
  | nil => rfl
  | append_singleton bytes b ih =>
      rw [byteLineStarts_append, List.reverse_append, List.reverse_singleton,
        List.singleton_append, List.length_append, List.length_singleton]
      by_cases same : b = lineFeed
      · rw [byteLineStarts, if_pos same, byteLineStarts, ← List.cons_append, List.getLastD_concat,
          List.takeWhile_cons_of_neg (by simp [same]), List.length_nil, Nat.zero_add, Nat.add_zero]
      · rw [byteLineStarts, if_neg same, byteLineStarts, List.append_nil,
          List.takeWhile_cons_of_pos (by simp [same]), List.length_cons]
        omega

/-! ## Lines and columns -/

/-- The offset is where a line begins: it lies on the line, and nothing of the line in front of it. -/
structure StartsLine (bytes : List UInt8) (line start : Nat) : Prop where
  inside : start ≤ bytes.length
  counted : line = 1 + newlinesBefore bytes start
  first : sinceNewline bytes start = 0

/-- Behind each line feed a line begins. -/
theorem startsLine_behind (front back : List UInt8) :
    StartsLine (front ++ lineFeed :: back) (2 + front.count lineFeed) (front.length + 1) := by
  have taken : (front ++ lineFeed :: back).take (front.length + 1) = front ++ [lineFeed] := by
    rw [List.take_length_add_append, List.take_succ_cons, List.take_zero]
  constructor
  · rw [List.length_append, List.length_cons]
    omega
  · rw [newlinesBefore, taken, List.count_append, List.count_singleton_self]
    omega
  · rw [sinceNewline, taken, List.reverse_append, List.reverse_singleton, List.singleton_append,
      List.takeWhile_cons_of_neg (by simp), List.length_nil]

/-- As long as there are more line feeds than that, one of them has just so many in front of it. -/
theorem exists_split_of_lt_count {bytes : List UInt8} {count : Nat}
    (less : count < bytes.count lineFeed) :
    ∃ front back, bytes = front ++ lineFeed :: back ∧ front.count lineFeed = count := by
  induction bytes generalizing count with
  | nil => exact absurd less (Nat.not_lt_zero _)
  | cons b bytes ih =>
      by_cases same : b = lineFeed
      · subst same
        cases count with
        | zero => exact ⟨[], bytes, rfl, rfl⟩
        | succ count =>
            rw [List.count_cons_self] at less
            obtain ⟨front, back, rfl, counted⟩ := ih (Nat.lt_of_succ_lt_succ less)
            exact ⟨lineFeed :: front, back, rfl, by rw [List.count_cons_self, counted]⟩
      · rw [List.count_cons_of_ne same] at less
        obtain ⟨front, back, rfl, counted⟩ := ih less
        exact ⟨b :: front, back, rfl, by rw [List.count_cons_of_ne same, counted]⟩

/-- Every line up to the one behind the last line feed begins somewhere. -/
theorem exists_startsLine (bytes : List UInt8) {line : Nat} (positive : 1 ≤ line)
    (within : line ≤ 1 + bytes.count lineFeed) : ∃ start, StartsLine bytes line start := by
  rcases Nat.eq_or_lt_of_le positive with rfl | later
  · exact ⟨0, Nat.zero_le _, rfl, rfl⟩
  · obtain ⟨count, rfl⟩ := Nat.exists_eq_add_of_le later
    have less : count < bytes.count lineFeed := by omega
    obtain ⟨front, back, rfl, rfl⟩ := exists_split_of_lt_count less
    exact ⟨_, startsLine_behind front back⟩

namespace StartsLine

variable {bytes : List UInt8} {line start count : Nat}

/-- Bytes without a line feed lead on along the line. -/
theorem along (starts : StartsLine bytes line start) (within : start + count ≤ bytes.length)
    (none : lineFeed ∉ (bytes.drop start).take count) :
    1 + newlinesBefore bytes (start + count) = line ∧ sinceNewline bytes (start + count) = count := by
  have passed : ∀ b ∈ ((bytes.drop start).take count).reverse, decide (b ≠ lineFeed) = true := by
    intro b mem
    rw [List.mem_reverse] at mem
    exact decide_eq_true fun same => none (same ▸ mem)
  constructor
  · rw [newlinesBefore, List.take_add, List.count_append, List.count_eq_zero_of_not_mem none,
      Nat.add_zero, starts.counted]
    rfl
  · have first := starts.first
    rw [sinceNewline] at first
    rw [sinceNewline, List.take_add, List.reverse_append, List.takeWhile_append_of_pos passed,
      List.length_append, first, List.length_reverse, List.length_take, List.length_drop]
    omega

/-- The first line feed on the way ends the line. -/
theorem next (starts : StartsLine bytes line start)
    (ends : lineFeed ∈ (bytes.drop start).take count) :
    ∃ after, StartsLine bytes (line + 1) after ∧ after ≤ start + count := by
  obtain ⟨front, back, split, none⟩ := List.eq_append_cons_of_mem ends
  have parts : bytes = (bytes.take start ++ front) ++
      lineFeed :: (back ++ (bytes.drop start).drop count) := by
    calc bytes
        = bytes.take start ++ ((bytes.drop start).take count ++ (bytes.drop start).drop count) := by
          rw [List.take_append_drop, List.take_append_drop]
      _ = (bytes.take start ++ front) ++ lineFeed :: (back ++ (bytes.drop start).drop count) := by
          rw [split]
          simp
  have behind := startsLine_behind (bytes.take start ++ front)
    (back ++ (bytes.drop start).drop count)
  rw [← parts, List.count_append, List.count_eq_zero_of_not_mem none, List.length_append,
    List.length_take, Nat.min_eq_left starts.inside] at behind
  have counted : 2 + ((bytes.take start).count lineFeed + 0) = line + 1 := by
    have := starts.counted
    rw [newlinesBefore] at this
    omega
  rw [counted] at behind
  refine ⟨_, behind, ?_⟩
  have shorter := congrArg List.length split
  rw [List.length_append, List.length_cons, List.length_take] at shorter
  omega

end StartsLine

/-- Where a value would have to be put into an ascending table that does not hold it: behind all that
is less and in front of all that is greater. -/
structure InsertsAt (table : List Nat) (value place : Nat) : Prop where
  inside : place ≤ table.length
  below : ∀ entry ∈ table.take place, entry < value
  above : ∀ entry ∈ table.drop place, value < entry

namespace LineIndex

variable (text : String)

/-- The first line begins at once, and the others behind the line feeds. -/
theorem starts_ofText : (ofText text).starts = 0 :: byteLineStarts 0 (utf8Bytes text) := by
  rw [starts, ofText, lineStarts_eq, ← utf8Bytes_eq]

/-- The line starts up to an offset. -/
theorem startsUpTo_ofText (offset : Nat) :
    (ofText text).startsUpTo offset = 0 :: byteLineStarts 0 ((utf8Bytes text).take offset) := by
  rw [startsUpTo, starts_ofText, List.takeWhile_cons_of_pos (by simp), takeWhile_byteLineStarts]

theorem starts_sorted : (ofText text).starts.Pairwise (· < ·) := by
  rw [starts_ofText]
  exact .cons (fun start mem => (mem_byteLineStarts mem).1) (byteLineStarts_sorted _ _)

section Offset

variable {text} {offset : Nat} (inside : offset ≤ (utf8Bytes text).length)

include inside

/-- The last line start up to an offset lies as far back as the last line feed. -/
theorem lastStart_add_sinceNewline :
    ((ofText text).startsUpTo offset).getLastD 0 + sinceNewline (utf8Bytes text) offset = offset := by
  have last := lastStart_add ((utf8Bytes text).take offset)
  rw [List.length_take, Nat.min_eq_left inside] at last
  rw [startsUpTo_ofText]
  exact last

/-- The line of an offset is told by the line feeds before it, and its column by what follows the
last. -/
theorem lineColumn_eq :
    (ofText text).lineColumn offset =
      (1 + newlinesBefore (utf8Bytes text) offset, 1 + sinceNewline (utf8Bytes text) offset) := by
  have last := lastStart_add_sinceNewline inside
  have counted : ((ofText text).startsUpTo offset).length =
      1 + newlinesBefore (utf8Bytes text) offset := by
    rw [startsUpTo_ofText, List.length_cons, length_byteLineStarts, newlinesBefore, Nat.add_comm]
  rw [lineColumn, counted]
  refine Prod.ext rfl ?_
  dsimp only
  omega

/-- The way back leads to the same offset, as long as offsets have 32 bits. -/
theorem offset?_lineColumn (short : (utf8Bytes text).length < 2 ^ 32) :
    (ofText text).offset? ((ofText text).lineColumn offset).1 ((ofText text).lineColumn offset).2 =
      some offset := by
  have last := lastStart_add_sinceNewline inside
  have stands : (ofText text).starts[newlinesBefore (utf8Bytes text) offset]? =
      some (((ofText text).startsUpTo offset).getLastD 0) := by
    have counted := length_byteLineStarts 0 ((utf8Bytes text).take offset)
    have whole : byteLineStarts 0 (utf8Bytes text) = byteLineStarts 0 ((utf8Bytes text).take offset) ++
        byteLineStarts offset ((utf8Bytes text).drop offset) := by
      conv => lhs; rw [← List.take_append_drop offset (utf8Bytes text), byteLineStarts_append]
      rw [List.length_take, Nat.min_eq_left inside, Nat.zero_add]
    rw [startsUpTo_ofText, starts_ofText, whole, newlinesBefore, ← counted, ← List.cons_append,
      List.getElem?_append_left (by simp), List.getLastD_eq_getLast?, List.getLast?_eq_getElem?]
    simp
  rw [lineColumn_eq inside]
  dsimp only
  rw [Nat.add_comm 1, offset?, stands, Option.map_some]
  refine congrArg some ?_
  have back : ((ofText text).startsUpTo offset).getLastD 0 +
      (1 + sinceNewline (utf8Bytes text) offset - 1) = offset := by omega
  rw [back, Nat.mod_eq_of_lt (by exact Nat.lt_of_le_of_lt inside short)]

end Offset

section Search

/-- Where the starts up to an offset end, the line of the offset is the last of them. -/
theorem lineColumn_of_split {index : LineIndex} {front back : List Nat} {offset start : Nat}
    (split : index.starts = front ++ start :: back) (reached : ∀ entry ∈ front, entry ≤ offset)
    (last : start ≤ offset) (beyond : ∀ entry ∈ back, offset < entry) :
    index.lineColumn offset = (front.length + 1, offset - start + 1) := by
  have stop : back.takeWhile (· ≤ offset) = [] := by
    cases back with
    | nil => rfl
    | cons next later =>
        have isBeyond := beyond next List.mem_cons_self
        exact List.takeWhile_cons_of_neg (by simpa using isBeyond)
  have upTo : index.startsUpTo offset = front ++ [start] := by
    rw [startsUpTo, split, List.takeWhile_append_of_pos (by simpa using reached),
      List.takeWhile_cons_of_pos (by simpa using last), stop]
  rw [lineColumn, upTo, List.getLastD_concat, List.length_append, List.length_singleton]

variable {text} {offset place : Nat}

/-- A search that finds the offset in the table finds its line, of which it is the first column. -/
theorem lineColumn_of_hit (hit : (ofText text).starts[place]? = some offset) :
    (ofText text).lineColumn offset = (place + 1, 1) := by
  obtain ⟨inside, found⟩ := List.getElem?_eq_some_iff.mp hit
  have split : (ofText text).starts =
      (ofText text).starts.take place ++ offset :: (ofText text).starts.drop (place + 1) := by
    rw [← found, ← List.drop_eq_getElem_cons inside, List.take_append_drop]
  have sorted := starts_sorted text
  rw [split, List.pairwise_append, List.pairwise_cons] at sorted
  obtain ⟨-, ⟨beyond, -⟩, below⟩ := sorted
  rw [lineColumn_of_split split
    (fun entry mem => Nat.le_of_lt (below entry mem offset List.mem_cons_self)) (Nat.le_refl _)
    beyond, List.length_take, Nat.min_eq_left (Nat.le_of_lt inside), Nat.sub_self]

/-- A search that does not find the offset tells the place behind that of its line, never the
first. -/
theorem lineColumn_of_miss (miss : InsertsAt (ofText text).starts offset place) :
    0 < place ∧ ∃ start, (ofText text).starts[place - 1]? = some start ∧ start ≤ offset ∧
      (ofText text).lineColumn offset = (place, offset - start + 1) := by
  cases place with
  | zero =>
      have above := miss.above 0 (by rw [List.drop_zero, starts_ofText]; exact List.mem_cons_self)
      exact absurd above (Nat.not_lt_zero _)
  | succ line =>
      have inside : line < (ofText text).starts.length := miss.inside
      have stands : (ofText text).starts[line]? = some (ofText text).starts[line] :=
        List.getElem?_eq_getElem inside
      have taken : (ofText text).starts.take (line + 1) =
          (ofText text).starts.take line ++ [(ofText text).starts[line]] := by
        rw [List.take_add_one, stands]
        rfl
      have split : (ofText text).starts = (ofText text).starts.take line ++
          (ofText text).starts[line] :: (ofText text).starts.drop (line + 1) := by
        rw [← List.drop_eq_getElem_cons inside, List.take_append_drop]
      have below : ∀ entry ∈ (ofText text).starts.take line ++ [(ofText text).starts[line]],
          entry ≤ offset := fun entry mem => Nat.le_of_lt (miss.below entry (taken ▸ mem))
      have last : (ofText text).starts[line] ≤ offset :=
        below _ (List.mem_append_right _ (List.mem_singleton_self _))
      refine ⟨Nat.succ_pos _, _, stands, last, ?_⟩
      rw [lineColumn_of_split split (fun entry mem => below entry (List.mem_append_left _ mem)) last
        miss.above, List.length_take, Nat.min_eq_left (Nat.le_of_lt inside)]

end Search

/-- In a text whose offsets have 32 bits, the line of an offset counts the line feeds in front of it
and the column the bytes since the last of them, each from one, so that no difference is taken of a
smaller and a greater number, whether a search in the table finds the offset or the place behind it;
and from line and column there is a way back to the offset. Each line begins somewhere, and a column
that begins before the next line does, or on the last line before the text ends or where it ends, is
that of its offset. -/
theorem lineColumn_counts {text : String} (short : (utf8Bytes text).length < 2 ^ 32 - 1) :
    let index := ofText text
    let bytes := utf8Bytes text
    (∀ offset ≤ bytes.length,
      index.lineColumn offset = (1 + newlinesBefore bytes offset, 1 + sinceNewline bytes offset) ∧
      index.offset? (index.lineColumn offset).1 (index.lineColumn offset).2 = some offset ∧
      (index.startsUpTo offset).getLastD 0 ≤ offset ∧
      (∀ place, index.starts[place]? = some offset → index.lineColumn offset = (place + 1, 1)) ∧
      ∀ place, InsertsAt index.starts offset place → 0 < place ∧
        ∃ start, index.starts[place - 1]? = some start ∧ start ≤ offset ∧
          index.lineColumn offset = (place, offset - start + 1)) ∧
    (∀ line, 1 ≤ line → line ≤ 1 + newlinesBefore bytes bytes.length →
      ∃ start, StartsLine bytes line start) ∧
    ∀ line start column, StartsLine bytes line start → 1 ≤ column →
      start + (column - 1) ≤ bytes.length →
      (∀ next, StartsLine bytes (line + 1) next → start + (column - 1) < next) →
        ∃ offset, index.offset? line column = some offset ∧
          index.lineColumn offset = (line, column) := by
  intro index bytes
  have bits : (utf8Bytes text).length < 2 ^ 32 := Nat.lt_of_lt_of_le short (Nat.sub_le _ _)
  refine ⟨fun offset inside => ?_, fun line positive within => ?_,
    fun line start column starts positive inside before => ?_⟩
  · exact ⟨lineColumn_eq inside, offset?_lineColumn inside bits,
      Nat.le.intro (lastStart_add_sinceNewline inside), fun place => lineColumn_of_hit,
      fun place => lineColumn_of_miss⟩
  · rw [newlinesBefore, List.take_length] at within
    exact exists_startsLine bytes positive within
  · have none : lineFeed ∉ (bytes.drop start).take (column - 1) := by
      intro ends
      obtain ⟨next, begins, reached⟩ := starts.next ends
      exact absurd (before next begins) (Nat.not_lt_of_le reached)
    obtain ⟨counted, away⟩ := starts.along inside none
    have place : index.lineColumn (start + (column - 1)) = (line, column) := by
      rw [lineColumn_eq inside, counted, away]
      exact Prod.ext rfl (Nat.add_sub_cancel' positive)
    have back := offset?_lineColumn inside bits
    rw [place] at back
    exact ⟨_, back, place⟩

/-- Two lines, of which the first holds a character of two bytes: inside of it is the second column of
that line, and the end of the text is the second column of the other. -/
theorem lineColumn_counts_accent :
    let index := ofText "é\nb"
    (utf8Bytes "é\nb").length < 2 ^ 32 - 1 ∧
      index.lineColumn 1 = (1, 2) ∧ index.offset? 1 2 = some 1 ∧
      ∃ offset, index.offset? 2 2 = some offset ∧ index.lineColumn offset = (2, 2) := by
  intro index
  have bytes : utf8Bytes "é\nb" = [0xC3, 0xA9, 10, 98] := by
    rw [utf8Bytes_eq]
    decide
  have short : (utf8Bytes "é\nb").length < 2 ^ 32 - 1 := by
    rw [bytes]
    decide
  obtain ⟨counts, -, places⟩ := lineColumn_counts short
  rw [bytes] at counts places
  obtain ⟨inner, back, -⟩ := counts 1 (by decide)
  rw [inner] at back
  refine ⟨short, inner, back, places 2 3 2 ⟨by decide, by decide, by decide⟩ (by decide) (by decide)
    fun next starts => ?_⟩
  -- There is no third line.
  have counted := starts.counted
  have few : newlinesBefore [0xC3, 0xA9, 10, 98] next ≤ 1 := newlinesBefore_le _ next
  omega

end LineIndex

end ClassFactory
