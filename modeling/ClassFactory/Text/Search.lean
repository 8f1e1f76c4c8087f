/-
Module: ClassFactory.Text.Search
Purpose: Prefixes, suffixes, splitting and replacing on lists of characters, the form in which
  every reader of this library sees its text.
Main exports: dropStart?, dropEnd?, trimSuffixes, splitLines, splitAtLast?, firstAt?, beforeLast?,
  replaceChar, joinWith, trimSuffixes_eq_iff, exists_suffix_of_firstAt?
-/

namespace ClassFactory.Text

/-- What follows `head` in the text, if the text starts with it. -/
def dropStart? : List Char → List Char → Option (List Char)
  | [], cs => some cs
  | _ :: _, [] => none
  | h :: hs, c :: cs => if h = c then dropStart? hs cs else none

/-- Whether the text starts with `head`. -/
def startsWith (head cs : List Char) : Bool :=
  (dropStart? head cs).isSome

/-- What precedes `tail` in the text, if the text ends with it. -/
def dropEnd? (tail cs : List Char) : Option (List Char) :=
  (dropStart? tail.reverse cs.reverse).map List.reverse

/-- The text after removing `head` once from its start, or the text itself. -/
def dropStart (head cs : List Char) : List Char :=
  (dropStart? head cs).getD cs

/-- The text after removing `tail` once from its end, or the text itself. -/
def dropEnd (tail cs : List Char) : List Char :=
  (dropEnd? tail cs).getD cs

/-- Removes the (reversed) piece from the start as often as the budget allows. -/
private def dropRepeated (piece : List Char) : Nat → List Char → List Char
  | 0, cs => cs
  | budget + 1, cs =>
    match dropStart? piece cs with
    | some rest => dropRepeated piece budget rest
    | none => cs

/-- The text with every trailing copy of `tail` removed. -/
def trimSuffixes (tail cs : List Char) : List Char :=
  if tail.isEmpty then cs else (dropRepeated tail.reverse cs.length cs.reverse).reverse

/-- Splits at every character satisfying `p`; the pieces between the separators, at least one. -/
def splitOnChar (p : Char → Bool) : List Char → List (List Char)
  | [] => [[]]
  | c :: cs =>
    if p c then [] :: splitOnChar p cs
    else
      match splitOnChar p cs with
      | [] => [[c]]
      | piece :: pieces => (c :: piece) :: pieces

/-- A line without the carriage return that its line end may leave behind. -/
private def dropReturn (line : List Char) : List Char :=
  dropEnd ['\r'] line

/-- The lines of a text: pieces ended by a line feed, which takes a carriage return before it
along. A last piece without a line feed is a line unless it is empty, and keeps its characters. -/
def splitLines (cs : List Char) : List (List Char) :=
  let pieces := splitOnChar (· = '\n') cs
  let ended := pieces.dropLast.map dropReturn
  match pieces.getLast? with
  | some [] => ended
  | some last => ended ++ [last]
  | none => ended

/-- Without a separator there is one piece. -/
theorem splitOnChar_of_none {p : Char → Bool} {cs : List Char} (none : ∀ c ∈ cs, p c = false) :
    splitOnChar p cs = [cs] := by
  induction cs with
  | nil => rfl
  | cons c cs ih =>
    have rest := ih fun d mem => none d (List.mem_cons_of_mem _ mem)
    rw [splitOnChar, none c List.mem_cons_self, if_neg Bool.false_ne_true, rest]

/-- The first separator ends the first piece. -/
theorem splitOnChar_append {p : Char → Bool} {cs : List Char} (none : ∀ c ∈ cs, p c = false)
    {mark : Char} (isMark : p mark = true) (rest : List Char) :
    splitOnChar p (cs ++ mark :: rest) = cs :: splitOnChar p rest := by
  induction cs with
  | nil => rw [List.nil_append, splitOnChar, if_pos isMark]
  | cons c cs ih =>
    have later := ih fun d mem => none d (List.mem_cons_of_mem _ mem)
    rw [List.cons_append, splitOnChar, none c List.mem_cons_self, if_neg Bool.false_ne_true, later]

theorem splitOnChar_ne_nil (p : Char → Bool) (cs : List Char) : splitOnChar p cs ≠ [] := by
  cases cs with
  | nil => exact List.cons_ne_nil _ _
  | cons c cs =>
    rw [splitOnChar]
    split
    · exact List.cons_ne_nil _ _
    · split
      · exact List.cons_ne_nil _ _
      · exact List.cons_ne_nil _ _

section Lines

variable {line : List Char} (oneLine : '\n' ∉ line)

include oneLine

theorem not_lineFeed : ∀ c ∈ line, decide (c = '\n') = false :=
  fun _ mem => decide_eq_false fun same => oneLine (same ▸ mem)

/-- A text without a line feed is one line. -/
theorem splitLines_of_oneLine (some : line ≠ []) : splitLines line = [line] := by
  rw [splitLines, splitOnChar_of_none (not_lineFeed oneLine)]
  cases line with
  | nil => exact absurd rfl some
  | cons c cs => rfl

/-- The first line feed ends the first line. -/
theorem splitLines_append (noReturn : dropEnd ['\r'] line = line) (rest : List Char) :
    splitLines (line ++ '\n' :: rest) = line :: splitLines rest := by
  obtain ⟨first, more, pieces⟩ := List.exists_cons_of_ne_nil (splitOnChar_ne_nil (· = '\n') rest)
  rw [splitLines, splitLines, splitOnChar_append (not_lineFeed oneLine) (by decide), pieces,
    List.dropLast_cons_cons, List.map_cons, dropReturn, noReturn, List.getLast?_cons_cons]
  generalize (first :: more).getLast? = ending
  cases ending with
  | none => rfl
  | some last =>
    cases last with
    | nil => rfl
    | cons c cs => rfl

end Lines

/-- The text before and after the last occurrence of `mark`. -/
def splitAtLast? (mark : Char) (cs : List Char) : Option (List Char × List Char) :=
  let after := cs.reverse.takeWhile (· ≠ mark)
  match cs.reverse.dropWhile (· ≠ mark) with
  | [] => none
  | _ :: before => some (before.reverse, after.reverse)

/-- What `find` gives at the first place of the text where it gives anything; the end of the text is
a place, too. -/
def firstAt? {α : Type} (find : List Char → Option α) : List Char → Option α
  | [] => find []
  | c :: cs =>
    match find (c :: cs) with
    | some a => some a
    | none => firstAt? find cs

/-- The text in front of the last occurrence of a piece. -/
def beforeLast? (piece : List Char) : List Char → Option (List Char)
  | [] => none
  | c :: cs =>
    match beforeLast? piece cs with
    | some before => some (c :: before)
    | none => if startsWith piece (c :: cs) then some [] else none

/-- Replaces every occurrence of one character by another. -/
def replaceChar (old new : Char) (s : String) : String :=
  String.ofList (s.toList.map fun c => if c = old then new else c)

/-- Joins texts with a separator between neighbours. -/
def joinWith (separator : String) : List String → String
  | [] => ""
  | [s] => s
  | s :: t :: rest => s ++ separator ++ joinWith separator (t :: rest)

theorem toList_joinWith_cons (separator text next : String) (rest : List String) :
    (joinWith separator (text :: next :: rest)).toList =
      text.toList ++ (separator.toList ++ (joinWith separator (next :: rest)).toList) := by
  simp [joinWith]

/-- Joined texts start as the first of them. -/
theorem exists_toList_joinWith (separator text : String) (rest : List String) :
    ∃ more, (joinWith separator (text :: rest)).toList = text.toList ++ more := by
  cases rest with
  | nil => exact ⟨[], by simp [joinWith]⟩
  | cons next rest => exact ⟨_, toList_joinWith_cons separator text next rest⟩

theorem dropStart?_append (head cs : List Char) : dropStart? head (head ++ cs) = some cs := by
  induction head with
  | nil => rfl
  | cons h hs ih => simp [dropStart?, ih]

theorem eq_append_of_dropStart? {head cs rest : List Char} (h : dropStart? head cs = some rest) :
    cs = head ++ rest := by
  induction head generalizing cs with
  | nil => simpa [dropStart?] using h
  | cons a as ih =>
    cases cs with
    | nil => simp [dropStart?] at h
    | cons c cs =>
      by_cases hc : a = c
      · simp [dropStart?, hc] at h
        simp [hc, ih h]
      · simp [dropStart?, hc] at h

/-- A text starts with another one just if that is a prefix of it. -/
theorem isSome_dropStart?_iff {head cs : List Char} :
    (dropStart? head cs).isSome = true ↔ head <+: cs := by
  constructor
  · intro starts
    obtain ⟨rest, found⟩ := Option.isSome_iff_exists.mp starts
    exact ⟨rest, (eq_append_of_dropStart? found).symm⟩
  · rintro ⟨rest, rfl⟩
    rw [dropStart?_append]
    rfl

/-- The text in front of an ending. -/
theorem dropEnd?_eq_some_iff {tail cs before : List Char} :
    dropEnd? tail cs = some before ↔ cs = before ++ tail := by
  rw [dropEnd?, Option.map_eq_some_iff]
  constructor
  · rintro ⟨rest, found, rfl⟩
    rw [← List.reverse_inj, eq_append_of_dropStart? found, List.reverse_append,
      List.reverse_reverse]
  · rintro rfl
    refine ⟨before.reverse, ?_, List.reverse_reverse before⟩
    rw [List.reverse_append, dropStart?_append]

section Repeated

variable {piece : List Char} (proper : piece ≠ [])

include proper

/-- Copies of a piece are removed until the text no longer starts with it. -/
private theorem dropRepeated_eq_iff {budget : Nat} {cs rest : List Char}
    (enough : cs.length ≤ budget) :
    dropRepeated piece budget cs = rest ↔
      ∃ copies, cs = (List.replicate copies piece).flatten ++ rest ∧ ¬ piece <+: rest := by
  induction budget generalizing cs with
  | zero =>
      obtain rfl := List.length_eq_zero_iff.mp (Nat.le_zero.mp enough)
      constructor
      · rintro rfl
        exact ⟨0, rfl, fun starts => proper (List.prefix_nil.mp starts)⟩
      · rintro ⟨copies, whole, -⟩
        exact (List.append_eq_nil_iff.mp whole.symm).2.symm
  | succ budget ih =>
      rw [dropRepeated]
      cases found : dropStart? piece cs with
      | none =>
          have other : ¬ piece <+: cs := by
            rw [← isSome_dropStart?_iff, found]
            exact Bool.false_ne_true
          constructor
          · rintro rfl
            exact ⟨0, rfl, other⟩
          · rintro ⟨copies, rfl, -⟩
            cases copies with
            | zero => rfl
            | succ copies =>
                rw [List.replicate_succ, List.flatten_cons, List.append_assoc] at other
                exact absurd (List.prefix_append _ _) other
      | some after =>
          obtain rfl := eq_append_of_dropStart? found
          have shorter : after.length ≤ budget := by
            have := List.length_pos_iff.mpr proper
            rw [List.length_append] at enough
            omega
          refine (ih shorter).trans ⟨?_, ?_⟩
          · rintro ⟨copies, rfl, other⟩
            exact ⟨copies + 1, by rw [List.replicate_succ, List.flatten_cons, List.append_assoc],
              other⟩
          · rintro ⟨copies, whole, other⟩
            cases copies with
            | zero => exact absurd ⟨after, whole⟩ other
            | succ copies =>
                rw [List.replicate_succ, List.flatten_cons, List.append_assoc] at whole
                exact ⟨copies, List.append_cancel_left whole, other⟩

end Repeated

/-- What is left in front of the copies of an ending does not end with it. -/
theorem trimSuffixes_eq_iff {tail : List Char} (proper : tail ≠ []) {cs rest : List Char} :
    trimSuffixes tail cs = rest ↔
      ∃ copies, cs = rest ++ (List.replicate copies tail).flatten ∧ ¬ tail <:+ rest := by
  have backwards : trimSuffixes tail cs = rest ↔
      dropRepeated tail.reverse cs.length cs.reverse = rest.reverse := by
    rw [trimSuffixes, if_neg (by simpa using proper), List.reverse_eq_iff]
  rw [backwards, dropRepeated_eq_iff (by simpa using proper) (by simp)]
  refine exists_congr fun copies => and_congr ?_ (not_congr List.reverse_prefix)
  rw [← List.reverse_inj, List.reverse_append, List.reverse_reverse, List.reverse_reverse,
    List.reverse_flatten, List.map_replicate, List.reverse_reverse, List.reverse_replicate]

/-- What is found at the start of a text is found first. -/
theorem firstAt?_of_head {α : Type} {find : List Char → Option α} {cs : List Char} {a : α}
    (found : find cs = some a) : firstAt? find cs = some a := by
  cases cs with
  | nil => exact found
  | cons c cs => rw [firstAt?, found]

/-- What is found in a text is found at some place of it. -/
theorem exists_suffix_of_firstAt? {α : Type} {find : List Char → Option α} {cs : List Char} {a : α}
    (found : firstAt? find cs = some a) : ∃ place, place <:+ cs ∧ find place = some a := by
  induction cs with
  | nil => exact ⟨[], List.suffix_refl _, found⟩
  | cons c cs ih =>
      rw [firstAt?] at found
      split at found
      next here =>
        cases found
        exact ⟨_, List.suffix_refl _, here⟩
      next =>
        obtain ⟨place, within, there⟩ := ih found
        exact ⟨place, within.trans (List.suffix_cons c cs), there⟩

end ClassFactory.Text
