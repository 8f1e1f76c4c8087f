/-
Module: ClassFactory.Proofs.Script.Scanning
Purpose: Reading a source only goes forward: white space, comments and tokens end no earlier than
  they begin, and a punctuation mark takes at least one byte.
Main exports: skipTrivia_offset, scanRegex_offset, scanTemplateChunk_offset, Taken, scanToken_taken
-/
import ClassFactory.Script.Token

namespace ClassFactory.Script

open Text (byteLength)

namespace Cursor

variable (cursor : Cursor)

theorem offset_skip (count : Nat) : cursor.offset ≤ (cursor.skip count).offset :=
  Nat.le_add_right ..

theorem offset_takeWhile (p : Char → Bool) : cursor.offset ≤ (cursor.takeWhile p).2.offset :=
  Nat.le_add_right ..

/-- Skipping some of the characters that are there moves forward. -/
theorem offset_lt_skip {c : Char} {rest : List Char} (there : cursor.rest = c :: rest)
    {count : Nat} (positive : 0 < count) : cursor.offset < (cursor.skip count).offset := by
  obtain ⟨less, rfl⟩ := Nat.exists_eq_succ_of_ne_zero (Nat.ne_of_gt positive)
  have taken : 0 < byteLength (cursor.rest.take (less + 1)) := by
    rw [there, List.take_succ_cons, byteLength]
    exact Nat.add_pos_left c.utf8Size_pos _
  exact Nat.lt_add_of_pos_right taken

end Cursor

/-! ## White space and comments -/

/-- White space and comments are skipped forward. -/
theorem skipTrivia_offset (budget : Nat) (trivia : Trivia) {skipped : Trivia}
    (skips : skipTrivia budget trivia = some skipped) :
    trivia.cursor.offset ≤ skipped.cursor.offset := by
  induction budget generalizing trivia with
  | zero => cases skips; exact Nat.le_refl _
  | succ budget ih =>
      unfold skipTrivia at skips
      split at skips
      · exact Nat.le_trans (Cursor.offset_takeWhile ..) (ih _ skips)
      · split at skips
        · exact Nat.le_trans (Cursor.offset_skip ..) (ih _ skips)
        · cases skips
      · split at skips
        · exact Nat.le_trans (Cursor.offset_skip ..) (ih _ skips)
        · split at skips
          · exact Nat.le_trans (Cursor.offset_takeWhile ..) (ih _ skips)
          · cases skips; exact Nat.le_refl _
      · cases skips; exact Nat.le_refl _

/-- A token that is taken at a place ends no earlier than it begins, and later if it is a
punctuation mark. -/
structure Taken (cursor : Cursor) (token : Token) (after : Cursor) : Prop where
  forward : cursor.offset ≤ after.offset
  marked : ∀ mark, token = .punct mark → cursor.offset < after.offset

namespace Taken

variable {cursor between after : Cursor} {token : Token}

/-- What is skipped in front of a token may count as part of it. -/
theorem trans (before : cursor.offset ≤ between.offset) (taken : Taken between token after) :
    Taken cursor token after :=
  ⟨Nat.le_trans before taken.forward,
    fun mark isMark => Nat.lt_of_le_of_lt before (taken.marked mark isMark)⟩

/-- A token without an extent may be taken where it is no mark. -/
theorem refl (other : ∀ mark, token ≠ .punct mark) : Taken cursor token cursor :=
  ⟨Nat.le_refl _, fun mark isMark => absurd isMark (other mark)⟩

/-- What is no punctuation mark need not take anything. -/
theorem of_le (before : cursor.offset ≤ after.offset) (other : ∀ mark, token ≠ .punct mark) :
    Taken cursor token after :=
  trans before (refl other)

/-- Where no token is found nothing is taken. -/
theorem getD {scanned : Option (Token × Cursor)}
    (taken : ∀ token after, scanned = some (token, after) → Taken cursor token after) :
    Taken cursor (scanned.getD (.invalid, cursor)).1 (scanned.getD (.invalid, cursor)).2 := by
  cases scanned with
  | none => exact refl nofun
  | some found => exact taken _ _ rfl

end Taken

/-! ## Names and numbers -/

theorem scanName_offset (budget : Nat) (done : List Char) (escaped : Bool) (cursor : Cursor)
    {text : List Char} {wasEscaped : Bool} {after : Cursor}
    (scans : scanName budget done escaped cursor = some (text, wasEscaped, after)) :
    cursor.offset ≤ after.offset := by
  induction budget generalizing done escaped cursor with
  | zero => cases scans
  | succ budget ih =>
      unfold scanName at scans
      split at scans
      · split at scans
        · obtain ⟨-, scans⟩ := Option.ite_none_right_eq_some.mp scans
          exact Nat.le_trans (Cursor.offset_skip ..) (ih _ _ _ scans)
        · cases scans
      · cases scans
      · generalize (if done.isEmpty = true then startsName _ else continuesName _) = fits at scans
        cases fits with
        | true => exact Nat.le_trans (Cursor.offset_skip ..) (ih _ _ _ scans)
        | false => cases scans; exact Nat.le_refl _
      · cases scans; exact Nat.le_refl _

theorem digitsOf_offset (base : Nat) (cursor : Cursor) :
    cursor.offset ≤ (digitsOf base cursor).2.offset :=
  Cursor.offset_takeWhile ..

theorem scanExponent?_offset (cursor : Cursor) {exponent : Int} {after : Cursor}
    (scans : scanExponent? cursor = some (exponent, after)) : cursor.offset ≤ after.offset := by
  unfold scanExponent? at scans
  split at scans
  · split at scans
    · obtain ⟨-, scans⟩ := Option.ite_none_left_eq_some.mp scans
      cases scans
      refine Nat.le_trans ?_ (digitsOf_offset ..)
      split <;> exact Cursor.offset_skip ..
    · cases scans; exact Nat.le_refl _
  · cases scans; exact Nat.le_refl _

/-- A decimal numeral is taken forward. -/
theorem scanDecimal_taken (cursor : Cursor) {token : Token} {after : Cursor}
    (scans : scanDecimal cursor = some (token, after)) : Taken cursor token after := by
  unfold scanDecimal at scans
  refine .trans (digitsOf_offset 10 cursor) ?_
  generalize digitsOf 10 cursor = whole at scans ⊢
  dsimp only at scans
  split at scans
  · cases scans; exact .of_le (Cursor.offset_skip ..) nofun
  · split at scans
    next exponent after' scanned =>
      cases scans
      refine .of_le (Nat.le_trans ?_ (scanExponent?_offset _ scanned)) nofun
      split
      · exact Nat.le_trans (Cursor.offset_skip ..) (digitsOf_offset ..)
      · exact Nat.le_refl _
    next => cases scans

theorem scanRadix_taken (base : Nat) (cursor : Cursor) {token : Token} {after : Cursor}
    (scans : scanRadix base cursor = some (token, after)) : Taken cursor token after := by
  unfold scanRadix at scans
  refine .trans (digitsOf_offset base cursor) ?_
  obtain ⟨-, scans⟩ := Option.ite_none_left_eq_some.mp scans
  split at scans
  · cases scans; exact .of_le (Cursor.offset_skip ..) nofun
  · cases scans; exact .refl nofun

/-- A numeral is taken forward, in whatever base it is written. -/
theorem scanNumber_taken (cursor : Cursor) {token : Token} {after : Cursor}
    (scans : scanNumber cursor = some (token, after)) : Taken cursor token after := by
  unfold scanNumber at scans
  dsimp only at scans
  split at scans
  next token' after' scanned =>
    obtain ⟨-, scans⟩ := Option.ite_none_left_eq_some.mp scans
    cases scans
    split at scanned
    case h_7 =>
      split at scanned
      · split at scanned
        · cases scanned; exact .of_le (Cursor.offset_takeWhile ..) nofun
        · exact scanDecimal_taken _ scanned
      · exact scanDecimal_taken _ scanned
    case h_8 => exact scanDecimal_taken _ scanned
    all_goals exact .trans (Cursor.offset_skip ..) (scanRadix_taken _ _ scanned)
  next => cases scans

/-! ## Strings, templates and regular expressions -/

/-- A string is taken forward, with the escapes in it. -/
theorem scanString_taken (quote : Char) (budget : Nat) (done : List Nat) (cursor : Cursor)
    {token : Token} {after : Cursor}
    (scans : scanString quote budget done cursor = some (token, after)) :
    Taken cursor token after := by
  induction budget generalizing done cursor with
  | zero => cases scans
  | succ budget ih =>
      unfold scanString at scans
      split at scans
      · cases scans
      · split at scans
        · exact .trans (Cursor.offset_skip ..) (ih _ _ scans)
        · cases scans
      · split at scans
        · cases scans; exact .of_le (Cursor.offset_skip ..) nofun
        · obtain ⟨-, scans⟩ := Option.ite_none_left_eq_some.mp scans
          exact .trans (Cursor.offset_skip ..) (ih _ _ scans)

theorem scanTemplateChunk_offset (budget : Nat) (cursor : Cursor) {ended : Bool} {after : Cursor}
    (scans : scanTemplateChunk budget cursor = some (ended, after)) :
    cursor.offset ≤ after.offset := by
  induction budget generalizing cursor with
  | zero => cases scans
  | succ budget ih =>
      unfold scanTemplateChunk at scans
      split at scans
      · cases scans
      · exact Nat.le_trans (Cursor.offset_skip ..) (ih _ scans)
      · cases scans; exact Cursor.offset_skip ..
      · cases scans; exact Cursor.offset_skip ..
      · exact Nat.le_trans (Cursor.offset_skip ..) (ih _ scans)

theorem scanRegexBody_offset (budget : Nat) (inClass : Bool) (cursor : Cursor) {after : Cursor}
    (scans : scanRegexBody budget inClass cursor = some after) : cursor.offset ≤ after.offset := by
  induction budget generalizing inClass cursor with
  | zero => cases scans
  | succ budget ih =>
      unfold scanRegexBody at scans
      split at scans
      · cases scans
      · obtain ⟨-, scans⟩ := Option.ite_none_left_eq_some.mp scans
        exact Nat.le_trans (Cursor.offset_skip ..) (ih _ _ scans)
      · obtain ⟨-, scans⟩ := Option.ite_none_left_eq_some.mp scans
        split at scans
        · exact Nat.le_trans (Cursor.offset_skip ..) (ih _ _ scans)
        · split at scans
          · exact Nat.le_trans (Cursor.offset_skip ..) (ih _ _ scans)
          · split at scans
            · cases scans; exact Cursor.offset_skip ..
            · exact Nat.le_trans (Cursor.offset_skip ..) (ih _ _ scans)

theorem scanRegex_offset (cursor : Cursor) {after : Cursor}
    (scans : scanRegex cursor = some after) : cursor.offset ≤ after.offset := by
  unfold scanRegex at scans
  split at scans
  next close scanned =>
    obtain ⟨-, scans⟩ := Option.ite_none_right_eq_some.mp scans
    cases scans
    exact Nat.le_trans (scanRegexBody_offset _ _ _ scanned) (Cursor.offset_takeWhile ..)
  next => cases scans

/-! ## Punctuation and tokens -/

/-- What a mark is taken from begins with it. -/
theorem dropStart?_cons {c : Char} {mark text rest : List Char}
    (starts : Text.dropStart? (c :: mark) text = some rest) : ∃ more, text = c :: more := by
  cases text with
  | nil => cases starts
  | cons d more =>
      obtain ⟨same, -⟩ := Option.ite_none_right_eq_some.mp starts
      exact ⟨more, same ▸ rfl⟩

/-- No punctuation mark is empty. -/
theorem punctuation_nonempty : ∀ mark ∈ punctuation, ∃ c more, mark.toList = c :: more := by
  have all : ∀ mark ∈ punctuation, mark.toList ≠ [] := by decide
  intro mark isMark
  exact List.exists_cons_of_ne_nil (all mark isMark)

/-- A punctuation mark takes at least one byte. -/
theorem scanPunctuation_taken (cursor : Cursor) {token : Token} {after : Cursor}
    (scans : scanPunctuation cursor = some (token, after)) : Taken cursor token after := by
  unfold scanPunctuation at scans
  dsimp only at scans
  obtain ⟨mark, found, scans⟩ := Option.map_eq_some_iff.mp scans
  cases scans
  obtain ⟨c, more, spelled⟩ := punctuation_nonempty mark (List.mem_of_find?_eq_some found)
  have fits := List.find?_some found
  split at fits
  next rest starts =>
    obtain ⟨after, there⟩ := dropStart?_cons (spelled ▸ starts)
    have positive : 0 < mark.length := by
      rw [← String.length_toList, spelled]
      exact Nat.succ_pos _
    have further := cursor.offset_lt_skip there positive
    exact ⟨Nat.le_of_lt further, fun _ _ => further⟩
  next => cases fits

/-- The name that begins at a place. -/
theorem nameToken_taken {budget : Nat} {start cursor : Cursor} {name : List Char → Bool → Token}
    {token : Token} {after : Cursor} (before : cursor.offset ≤ start.offset)
    (names : ∀ text escaped mark, name text escaped ≠ .punct mark)
    (scans : (match scanName budget [] false start with
      | some ([], _, _) => none
      | some (text, escaped, after) => some (name text escaped, after)
      | none => none) = some (token, after)) : Taken cursor token after := by
  split at scans
  · cases scans
  next scanned =>
    cases scans
    exact .of_le (Nat.le_trans before (scanName_offset _ _ _ _ scanned)) (names _ _)
  · cases scans

/-- Every token is taken in this way. -/
theorem scanToken_taken (cursor : Cursor) :
    Taken cursor (scanToken cursor).1 (scanToken cursor).2 := by
  apply Taken.getD
  intro token after scans
  split at scans
  · cases scans; exact .refl nofun
  · exact .trans (Cursor.offset_skip ..) (scanString_taken _ _ _ _ scans)
  · exact .trans (Cursor.offset_skip ..) (scanString_taken _ _ _ _ scans)
  · cases scans; exact .of_le (Cursor.offset_skip ..) nofun
  · exact nameToken_taken (Cursor.offset_skip ..) (by nofun) scans
  · split at scans
    · exact scanNumber_taken _ scans
    · exact scanPunctuation_taken _ scans
  · split at scans
    · exact scanNumber_taken _ scans
    · split at scans
      · exact nameToken_taken (Nat.le_refl _) (by nofun) scans
      · exact scanPunctuation_taken _ scans

end ClassFactory.Script
