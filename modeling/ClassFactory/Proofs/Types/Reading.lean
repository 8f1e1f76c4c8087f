/-
Module: ClassFactory.Proofs.Types.Reading
Purpose: What the single steps of reading a type take from the front of a text: tokens, names,
  quoted texts and the mark of a receiver. A name ends where a character follows that no name has.
Main exports: Takes, Takes.bind, Takes.of_bind, Takes.eaten, Takes.missed, isNameText, name_takes,
  receiverMark_misses_name, receiverMark_misses_other
-/
import ClassFactory.Types.Reader
import Mathlib.Data.List.Basic

namespace ClassFactory

/-! ## White space -/

namespace Text

/-- Stretches of code points beyond ASCII in which white space lies, and no letter or numeral. -/
def blankStretches : List (Nat × Nat) :=
  [(0x80, 0xA9), (0x1680, 0x1680), (0x2000, 0x200A), (0x2028, 0x202F), (0x205F, 0x205F),
   (0x3000, 0x3000)]

/-- Whether two ranges have no code point in common. -/
def areApart (one other : Nat × Nat) : Bool := one.2 < other.1 || other.2 < one.1

/-- A table of ranges that lie apart from a stretch contains no number of the stretch. -/
theorem inRanges_eq_false {ranges : List (Nat × Nat)} {stretch : Nat × Nat} {n : Nat}
    (apart : ranges.all (areApart stretch) = true) (above : stretch.1 ≤ n) (below : n ≤ stretch.2) :
    inRanges ranges n = false := by
  unfold inRanges
  rw [List.any_eq_false]
  intro range mem
  have here := List.all_eq_true.mp apart range mem
  simp only [areApart, Bool.or_eq_true, decide_eq_true_eq] at here
  simp only [Bool.and_eq_true, decide_eq_true_eq]
  omega

/-- White space beyond ASCII lies in one of the stretches. -/
theorem exists_stretch {c : Char} (blank : isBlank c = true) (wide : 0x80 ≤ c.toNat) :
    ∃ stretch ∈ blankStretches, stretch.1 ≤ c.toNat ∧ c.toNat ≤ stretch.2 := by
  simp only [isBlank, Bool.or_eq_true, Bool.and_eq_true, decide_eq_true_eq] at blank
  simp only [blankStretches, List.mem_cons, List.not_mem_nil, or_false, exists_eq_or_imp,
    exists_eq_left]
  omega

theorem not_isAlpha_of_isBlank {c : Char} (blank : isBlank c = true) :
    c.isAlpha = false ∧ c.isDigit = false := by
  have outside : c.val.toNat < 48 ∨ 122 < c.val.toNat := by
    simp only [isBlank, Bool.or_eq_true, Bool.and_eq_true, decide_eq_true_eq, Char.toNat] at blank
    omega
  change (decide ('A'.val ≤ c.val ∧ c.val ≤ 'Z'.val) ||
      (decide ('a'.val ≤ c.val) && decide (c.val ≤ 'z'.val))) = false ∧
    (decide ('0'.val ≤ c.val) && decide (c.val ≤ '9'.val)) = false
  simp only [UInt32.le_iff_toNat_le, Bool.or_eq_false_iff, Bool.and_eq_false_iff,
    decide_eq_false_iff_not]
  have bounds : 'A'.val.toNat = 65 ∧ 'Z'.val.toNat = 90 ∧ 'a'.val.toNat = 97 ∧
      'z'.val.toNat = 122 ∧ '0'.val.toNat = 48 ∧ '9'.val.toNat = 57 := by decide
  omega

/-- White space is no part of a word. -/
theorem isAlphanumeric_of_isBlank {c : Char} (blank : isBlank c = true) :
    isAlphanumeric c = false := by
  have apart : (blankStretches.all fun stretch =>
      (alphabeticRanges ++ numericRanges).all (areApart stretch)) = true := by decide +kernel
  obtain ⟨noLetter, noDigit⟩ := not_isAlpha_of_isBlank blank
  rw [isAlphanumeric, isAlphabetic, isNumeric, noLetter, noDigit]
  by_cases wide : 0x80 ≤ c.toNat
  · obtain ⟨stretch, mem, above, below⟩ := exists_stretch blank wide
    have tables := List.all_eq_true.mp apart stretch mem
    rw [List.all_append, Bool.and_eq_true] at tables
    rw [inRanges_eq_false tables.1 above below, inRanges_eq_false tables.2 above below]
    simp
  · simp [wide]

/-- No token is dropped whose first character is not the next one of the text. -/
theorem dropStart?_of_head?_ne {c : Char} {token cs : List Char} (other : cs.head? ≠ some c) :
    dropStart? (c :: token) cs = none := by
  cases cs with
  | nil => rfl
  | cons d cs => exact if_neg fun same => other (congrArg some same.symm)

end Text

namespace Reading

/-! ## Steps -/

/-- A reading that takes the front of a text gives the result and leaves the rest. -/
def Takes {α : Type} (reading : Reading α) (cs : List Char) (result : α) (rest : List Char) :
    Prop :=
  reading.run cs = (some result, rest)

section Steps

variable {α β : Type} {cs middle rest : List Char} {result : α} {other : β} {token : String}

/-- To give a result takes nothing of the text. -/
theorem Takes.pure (result : α) (cs : List Char) : Takes (Pure.pure result) cs result cs := rfl

/-- A reading goes on where the one before it stopped. -/
theorem Takes.bind {reading : Reading α} {next : α → Reading β}
    (first : Takes reading cs result middle) (second : Takes (next result) middle other rest) :
    Takes (reading >>= next) cs other rest := by
  unfold Takes at *
  rw [OptionT.run_bind]
  unfold Option.elimM
  change (StateT.bind _ _) cs = _
  unfold StateT.bind
  rw [first]
  exact second

/-- What is read by two steps is read by each of them. -/
theorem Takes.of_bind {reading : Reading α} {next : α → Reading β}
    (both : Takes (reading >>= next) cs other rest) :
    ∃ result middle, Takes reading cs result middle ∧ Takes (next result) middle other rest := by
  unfold Takes at *
  rw [OptionT.run_bind] at both
  unfold Option.elimM at both
  change (StateT.bind _ _) cs = _ at both
  unfold StateT.bind at both
  rcases run : reading.run cs with ⟨_ | result, middle⟩
  · rw [run] at both
    cases congrArg Prod.fst both
  · rw [run] at both
    exact ⟨result, middle, rfl, both⟩

/-- What fails takes no text. -/
theorem Takes.not_failure : ¬ Takes failure cs result rest := by
  intro taken
  cases congrArg Prod.fst taken

/-- A reading takes one thing from a text. -/
theorem Takes.unique {reading : Reading α} {again : α} {rest' : List Char}
    (one : Takes reading cs result rest) (two : Takes reading cs again rest') :
    result = again ∧ rest = rest' := by
  have same := Prod.mk.inj (Eq.trans (Eq.symm one) two)
  exact ⟨Option.some.inj same.1, same.2⟩

/-- White space at the front makes no difference to a reading that skips it. -/
theorem Takes.blanks {next : Unit → Reading α} (skipped : Text.trimStart cs = middle)
    (after : Takes (next ()) middle result rest) : Takes (skipBlanks >>= next) cs result rest :=
  Takes.bind (show Takes skipBlanks cs () middle from skipped ▸ rfl) after

theorem peek_takes (c : Char) (cs : List Char) : Takes peek (c :: cs) c (c :: cs) := rfl

theorem drop_takes (c : Char) (cs : List Char) :
    Takes (modify (·.drop 1)) (c :: cs) () cs := rfl

/-- Eating a token drops it where it comes next, and otherwise leaves the text as it is. -/
theorem eat_run (token : String) (cs : List Char) :
    (eat token).run cs =
      match Text.dropStart? token.toList cs with
      | some rest => (some true, rest)
      | none => (some false, cs) := by
  have looked : (eat token).run cs =
      (match Text.dropStart? token.toList cs with
        | some rest => (do
          set rest
          Pure.pure true : Reading Bool)
        | none => Pure.pure false).run cs := rfl
  rw [looked]
  cases Text.dropStart? token.toList cs with
  | none => rfl
  | some rest => rfl

/-- A token that comes next is eaten. -/
theorem eat_takes (token : String) (rest : List Char) :
    Takes (eat token) (token.toList ++ rest) true rest := by
  rw [Takes, eat_run, Text.dropStart?_append]

/-- A token is not taken if the text starts with another character. -/
theorem eat_misses {t : Char} {more : List Char} (spelled : token.toList = t :: more)
    (other : cs.head? ≠ some t) : Takes (eat token) cs false cs := by
  have absent : Text.dropStart? token.toList cs = none := by
    rw [spelled]
    exact Text.dropStart?_of_head?_ne other
  rw [Takes, eat_run, absent]

/-- Where a token comes next, the branch for it is read. -/
theorem Takes.eaten {yes no : Reading α} (next : Takes yes middle result rest) :
    Takes (do if ← eat token then yes else no) (token.toList ++ middle) result rest := by
  refine (eat_takes token middle).bind ?_
  rw [if_pos rfl]
  exact next

/-- Where it does not, the other one is. -/
theorem Takes.missed {yes no : Reading α} {t : Char} {more : List Char}
    (spelled : token.toList = t :: more) (other : cs.head? ≠ some t)
    (next : Takes no cs result rest) :
    Takes (do if ← eat token then yes else no) cs result rest := by
  refine (eat_misses spelled other).bind ?_
  rw [if_neg Bool.false_ne_true]
  exact next

/-- What is read behind white space is read from the first character that is none. -/
theorem Takes.of_blanks {next : Unit → Reading α}
    (taken : Takes (skipBlanks >>= next) cs result rest) :
    Takes (next ()) (Text.trimStart cs) result rest := by
  obtain ⟨_, middle, skipped, further⟩ := taken.of_bind
  obtain ⟨-, rfl⟩ := skipped.unique (show Takes skipBlanks cs () (Text.trimStart cs) from rfl)
  exact further

/-- A reading that asks for a token goes on without it where another character comes next. -/
theorem Takes.of_missed {yes no : Reading α} {t : Char} {more : List Char}
    (taken : Takes (do if ← eat token then yes else no) cs result rest)
    (spelled : token.toList = t :: more) (other : cs.head? ≠ some t) : Takes no cs result rest := by
  obtain ⟨found, middle, looked, further⟩ := taken.of_bind
  obtain ⟨rfl, rfl⟩ := (eat_misses spelled other).unique looked
  rwa [if_neg Bool.false_ne_true] at further

/-- A token that is expected is taken together with the white space in front of it. -/
theorem expect_takes (skipped : Text.trimStart cs = token.toList ++ rest) :
    Takes (expect token) cs () rest :=
  Takes.blanks skipped (.eaten (.pure () rest))

end Steps

/-! ## Names -/

/-- Whether all characters may follow in a name. -/
def areNameCharacters (cs : List Char) : Bool := cs.all (isNameCharacter false)

/-- Whether a text is a name: letters, numerals, underscores, dollar signs, and periods except in
front. -/
def isNameText (text : String) : Bool :=
  match text.toList with
  | [] => false
  | c :: cs => isNameCharacter true c && areNameCharacters cs

/-- No name goes on with what follows, be it by a character of its own or because of type arguments
with a period in front. -/
structure EndsName (word rest : List Char) : Prop where
  other : ∀ c ∈ rest.head?, isNameCharacter false c = false
  period : '.' ∉ word ∨ rest.head? ≠ some '<'

section Names

variable {word : String} {cs rest : List Char}

/-- No character of a name is white space. -/
theorem isBlank_of_isNameCharacter {c : Char} {first : Bool}
    (ofName : isNameCharacter first c = true) : Text.isBlank c = false := by
  rw [Bool.eq_false_iff]
  intro blank
  have noLetter := Text.isAlphanumeric_of_isBlank blank
  simp only [isNameCharacter, noLetter, Bool.false_or, Bool.or_eq_true, Bool.and_eq_true,
    decide_eq_true_eq] at ofName
  rcases ofName with (rfl | rfl) | ⟨rfl, -⟩
  all_goals exact absurd blank (by decide)

/-- A name and what follows it are the whole text. -/
theorem append_of_splitName {first : Bool} {name : List Char}
    (split : splitName first cs = (name, rest)) : cs = name ++ rest := by
  induction cs generalizing first name with
  | nil =>
      obtain ⟨rfl, rfl⟩ := Prod.mk.inj split
      rfl
  | cons c cs ih =>
      rw [splitName] at split
      split at split
      next =>
        rcases further : splitName false cs with ⟨more, left⟩
        rw [further] at split
        obtain ⟨rfl, rfl⟩ := Prod.mk.inj split
        rw [List.cons_append, ← ih further]
      next =>
        obtain ⟨rfl, rfl⟩ := Prod.mk.inj split
        rfl

/-- No name is split off where none starts. -/
theorem splitName_nil_of_other {first : Bool}
    (other : ∀ c ∈ cs.head?, isNameCharacter first c = false) : splitName first cs = ([], cs) := by
  cases cs with
  | nil => rfl
  | cons c cs => simp [splitName, other c (by simp)]

/-- The longest name at the front is found. -/
theorem splitName_append {cs : List Char} (ofName : areNameCharacters cs = true)
    (ends : EndsName cs rest) : splitName false (cs ++ rest) = (cs, rest) := by
  induction cs with
  | nil => exact splitName_nil_of_other ends.other
  | cons c cs ih =>
      obtain ⟨first, others⟩ : isNameCharacter false c = true ∧ areNameCharacters cs = true := by
        simpa [areNameCharacters] using ofName
      have further := ih others ⟨ends.other, ends.period.imp_left fun absent later =>
        absent (List.mem_cons_of_mem _ later)⟩
      have noArguments : ¬ (c = '.' ∧ (cs ++ rest).head? = some '<') := by
        rintro ⟨rfl, bracket⟩
        cases cs with
        | nil =>
            rcases ends.period with absent | other
            · exact absent List.mem_cons_self
            · exact other bracket
        | cons next cs =>
            obtain rfl : next = '<' := by simpa using bracket
            have follows := List.all_eq_true.mp others '<' List.mem_cons_self
            exact absurd follows (by decide)
      have goesOn : (isNameCharacter false c &&
          !(decide (c = '.') && decide ((cs ++ rest).head? = some '<'))) = true := by
        rw [first, Bool.true_and, ← Bool.decide_and, Bool.not_eq_true', decide_eq_false_iff_not]
        exact noArguments
      rw [List.cons_append, splitName, if_pos goesOn, further]

/-- Reading a name skips white space and takes the longest name, and fails if there is none. -/
theorem name_run (cs : List Char) :
    name.run cs =
      if (splitName true (Text.trimStart cs)).1.isEmpty then (none, Text.trimStart cs)
      else
        (some (String.ofList (splitName true (Text.trimStart cs)).1),
          (splitName true (Text.trimStart cs)).2) := by
  have looked : name.run cs =
      (if (splitName true (Text.trimStart cs)).1.isEmpty then failure
        else do
          set (splitName true (Text.trimStart cs)).2
          Pure.pure (String.ofList (splitName true (Text.trimStart cs)).1) : Reading String).run
        (Text.trimStart cs) := rfl
  rw [looked]
  split <;> rfl

/-- No white space stands in front of a name. -/
theorem trimStart_name (isName : isNameText word = true) (rest : List Char) :
    Text.trimStart (word.toList ++ rest) = word.toList ++ rest := by
  unfold isNameText at isName
  split at isName
  · cases isName
  · rename_i c cs spelled
    rw [spelled, List.cons_append]
    have first := (Bool.and_eq_true _ _ ▸ isName).1
    exact Text.trimStart_cons_of_not_blank _ (isBlank_of_isNameCharacter first)

/-- The name that is split off is a whole word, if the word ends there. -/
theorem splitName_word (isName : isNameText word = true) (ends : EndsName word.toList rest) :
    splitName true (word.toList ++ rest) = (word.toList, rest) := by
  unfold isNameText at isName
  split at isName
  · cases isName
  · rename_i c cs spelled
    rw [spelled] at ends ⊢
    obtain ⟨first, others⟩ := Bool.and_eq_true _ _ ▸ isName
    have endsHere : EndsName cs rest := ⟨ends.other, ends.period.imp_left
      fun absent later => absent (List.mem_cons_of_mem _ later)⟩
    have further := splitName_append others endsHere
    have notPeriod : c ≠ '.' := by
      rintro rfl
      exact absurd first (by decide)
    rw [List.cons_append, splitName, further]
    simp [first, notPeriod]

/-- A name is taken as a whole, with white space in front of it. -/
theorem name_takes (isName : isNameText word = true) (ends : EndsName word.toList rest)
    (skipped : Text.trimStart cs = word.toList ++ rest) : Takes name cs word rest := by
  have some : word.toList ≠ [] := by
    intro none
    simp [isNameText, none] at isName
  rw [Takes, name_run, skipped, splitName_word isName ends, if_neg (by simpa using some),
    String.ofList_toList]

/-! ## Quoted texts and receivers -/

/-- A quoted text goes up to the next quote, and without one nothing is read. -/
theorem quoted_run (quote c : Char) (cs : List Char) :
    (quoted quote).run (c :: cs) =
      match cs.dropWhile (· ≠ quote) with
      | _ :: rest => (some (String.ofList (cs.takeWhile (· ≠ quote))), rest)
      | [] => (none, cs) := by
  have looked : (quoted quote).run (c :: cs) =
      (match cs.dropWhile (· ≠ quote) with
        | _ :: rest => do
          set rest
          Pure.pure (String.ofList (cs.takeWhile (· ≠ quote)))
        | [] => failure : Reading String).run cs := rfl
  rw [looked]
  cases cs.dropWhile (· ≠ quote) with
  | nil => rfl
  | cons _ rest => rfl

/-- A quoted text ends at the next quote. -/
theorem quoted_takes {quote : Char} {text : String} (free : quote ∉ text.toList)
    (rest : List Char) :
    Takes (quoted quote) (quote :: (text.toList ++ quote :: rest)) text rest := by
  have others : ∀ c ∈ text.toList, decide (c ≠ quote) = true := by
    intro c mem
    refine decide_eq_true ?_
    rintro rfl
    exact free mem
  rw [Takes, quoted_run, List.dropWhile_append_of_pos others, List.takeWhile_append_of_pos others]
  simp

/-- A receiver's mark is a name directly before a colon, and it is one of the two words. -/
theorem receiverMark_run (cs : List Char) :
    receiverMark.run cs =
      match name.run cs with
      | (some word, rest) =>
        match Text.dropStart? [':'] rest with
        | some after =>
          if word = "this" || word = "new" then (some true, after) else (some false, cs)
        | none => (some false, cs)
      | (none, _) => (some false, cs) := by
  have looked : receiverMark.run cs =
      (match name.run cs with
        | (some word, rest) =>
          match Text.dropStart? [':'] rest with
          | some after =>
            if word = "this" || word = "new" then do
              set after
              Pure.pure true
            else Pure.pure false
          | none => Pure.pure false
        | (none, _) => Pure.pure false : Reading Bool).run cs := rfl
  rw [looked]
  rcases name.run cs with ⟨_ | word, rest⟩
  · rfl
  · dsimp only
    cases Text.dropStart? [':'] rest with
    | none => rfl
    | some after =>
        dsimp only
        split <;> rfl

/-- A name without a colon after it is no mark of a receiver. -/
theorem receiverMark_misses_name (isName : isNameText word = true)
    (ends : EndsName word.toList rest) (noColon : rest.head? ≠ some ':') :
    Takes receiverMark (word.toList ++ rest) false (word.toList ++ rest) := by
  have named : name.run (word.toList ++ rest) = (some word, rest) :=
    name_takes isName ends (trimStart_name isName rest)
  have absent : Text.dropStart? [':'] rest = none := Text.dropStart?_of_head?_ne noColon
  rw [Takes, receiverMark_run, named]
  simp only [absent]

/-- Neither is what starts no name. -/
theorem receiverMark_misses_other {c : Char} (noName : isNameCharacter true c = false)
    (noBlank : Text.isBlank c = false) (cs : List Char) :
    Takes receiverMark (c :: cs) false (c :: cs) := by
  have failed : (name.run (c :: cs)).1 = none := by
    rw [name_run, Text.trimStart_cons_of_not_blank _ noBlank, splitName_nil_of_other (by simpa)]
    rfl
  rw [Takes, receiverMark_run]
  rcases run : name.run (c :: cs) with ⟨found, rest⟩
  rw [run] at failed
  subst failed
  rfl

end Names

end Reading

end ClassFactory
