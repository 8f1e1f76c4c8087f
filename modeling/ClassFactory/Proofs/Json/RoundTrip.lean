/-
Module: ClassFactory.Proofs.Json.RoundTrip
Purpose: A document in indented form is read back as it was, provided that its numbers are natural
  and its containers nest no deeper than the reader goes. Strings come back character by
  character, numbers digit by digit, and the lines of a container one after the other.
Main exports: Plain, readString?_quoted, natural?_nat, readNumber?_nat, Written, Plain.written,
  read?_pretty
-/
import ClassFactory.Json.Printer
import ClassFactory.Json.Reader
import Mathlib.Data.List.Forall2
import Mathlib.Data.List.TakeWhile

namespace ClassFactory.Json

/-- The document nests at most so many containers, and its numbers are natural. -/
inductive Plain : Nat → Json → Prop where
  | null {depth : Nat} : Plain depth .null
  | bool {depth : Nat} (value : Bool) : Plain depth (.bool value)
  | nat {depth : Nat} (n : Nat) : Plain depth (nat n)
  | string {depth : Nat} (value : String) : Plain depth (.string value)
  | array {depth : Nat} {items : List Json} (each : ∀ item ∈ items, Plain depth item) :
      Plain (depth + 1) (.array items)
  | object {depth : Nat} {entries : List (String × Json)}
      (each : ∀ entry ∈ entries, Plain depth entry.2) : Plain (depth + 1) (.object entries)

/-! ## Strings -/

/-- The digits of a control character are read as its number. -/
theorem hexUnit?_control {n : Nat} (control : n < 0x20) (rest : List Char) :
    hexUnit? ('0' :: '0' :: hexDigit (n / 16) :: hexDigit (n % 16) :: rest) = some (n, rest) := by
  have digits : ∀ n < 0x20, Decimal.digitValue? (hexDigit (n / 16)) = some (n / 16) ∧
      Decimal.digitValue? (hexDigit (n % 16)) = some (n % 16) := by
    decide
  obtain ⟨high, low⟩ := digits n control
  have zero : Decimal.digitValue? '0' = some 0 := rfl
  have whole : ((0 * 16 + 0) * 16 + n / 16) * 16 + n % 16 = n := by omega
  simp only [hexUnit?, zero, high, low, whole]

/-- The escape of a control character is read as that character. -/
theorem unicodeEscape?_control {c : Char} (control : c.toNat < 0x20) (rest : List Char) :
    unicodeEscape? ('0' :: '0' :: hexDigit (c.toNat / 16) :: hexDigit (c.toNat % 16) :: rest) =
      some (c, rest) := by
  rw [unicodeEscape?, hexUnit?_control control]
  have below : ¬ 0xD800 ≤ c.toNat ∧ ¬ 0xDC00 ≤ c.toNat := by omega
  simp [below.1, below.2]

section Characters

variable {c : Char} {cs rest : List Char} (budget : Nat) (done : List Char)

/-- An escape of one letter is read as the character that it stands for. -/
theorem readString?_short {mark : Char} (short : shortEscape? mark = some c) :
    readString? (budget + 1) done ('\\' :: mark :: rest) = readString? budget (c :: done) rest := by
  have other : mark ≠ 'u' := by
    rintro rfl
    cases short
  simp only [readString?, short]
  rfl

/-- An escape by number is read as the character of that number. -/
theorem readString?_unicode (found : unicodeEscape? cs = some (c, rest)) :
    readString? (budget + 1) done ('\\' :: 'u' :: cs) = readString? budget (c :: done) rest := by
  simp only [readString?, found]
  rfl

/-- A character that needs no escape is read as itself. -/
theorem readString?_itself (quote : c ≠ '"') (backslash : c ≠ '\\') (control : ¬ c.toNat < 0x20) :
    readString? (budget + 1) done (c :: rest) = readString? budget (c :: done) rest := by
  rw [readString?.eq_def]
  exact (if_neg quote).trans ((if_neg backslash).trans (if_neg control))

/-- A character is read from its escape. -/
theorem readString?_escape (c : Char) :
    readString? (budget + 1) done (escape c ++ rest) = readString? budget (c :: done) rest := by
  by_cases short : c ∈ ['"', '\\', '\n', '\r', '\t', '\x08', '\x0c']
  · simp only [List.mem_cons, List.not_mem_nil, or_false] at short
    rcases short with rfl | rfl | rfl | rfl | rfl | rfl | rfl
    all_goals exact readString?_short budget done rfl
  · simp only [List.mem_cons, List.not_mem_nil, or_false, not_or] at short
    obtain ⟨quote, backslash, feed, back, tab, backspace, page⟩ := short
    rw [escape, if_neg quote, if_neg backslash, if_neg feed, if_neg back, if_neg tab,
      if_neg backspace, if_neg page]
    by_cases control : c.toNat < 0x20
    · rw [if_pos control]
      exact readString?_unicode budget done (unicodeEscape?_control control rest)
    · rw [if_neg control]
      exact readString?_itself budget done quote backslash control

end Characters

theorem length_escape_pos (c : Char) : 0 < (escape c).length := by
  unfold escape
  split_ifs <;> simp

/-- The contents of a string are read up to the quote behind them. -/
theorem readString?_quoted {cs : List Char} {budget : Nat} (enough : cs.length < budget)
    (done rest : List Char) :
    readString? budget done (cs.flatMap escape ++ '"' :: rest) =
      some (String.ofList (done.reverse ++ cs), rest) := by
  obtain ⟨budget, rfl⟩ := Nat.exists_eq_add_one_of_ne_zero (Nat.ne_zero_of_lt enough)
  induction cs generalizing budget done with
  | nil => simp [readString?]
  | cons c cs ih =>
      obtain ⟨budget, rfl⟩ := Nat.exists_eq_add_one_of_ne_zero
        (Nat.ne_zero_of_lt (Nat.lt_of_succ_lt_succ enough))
      rw [List.flatMap_cons, List.append_assoc, readString?_escape,
        ih (c :: done) budget (Nat.lt_of_succ_lt_succ enough), List.reverse_cons, List.append_assoc,
        List.singleton_append]

/-- A string is read from behind its opening quote. -/
theorem readString?_quote (value : String) (rest : List Char) :
    readString? ((value.toList.flatMap escape ++ '"' :: rest).length + 1) []
      (value.toList.flatMap escape ++ '"' :: rest) = some (value, rest) := by
  have short : value.toList.length ≤ (value.toList.flatMap escape).length := by
    rw [List.length_flatMap]
    induction value.toList with
    | nil => exact Nat.le_refl _
    | cons c cs ih =>
        have := length_escape_pos c
        rw [List.map_cons, List.sum_cons, List.length_cons]
        omega
  rw [readString?_quoted (by rw [List.length_append]; omega), List.reverse_nil, List.nil_append,
    String.ofList_toList]

/-! ## Numbers -/

/-- The text does not go on with anything that could belong to a number. -/
def Ends (rest : List Char) : Prop :=
  ∀ c ∈ rest.head?, c.isDigit = false ∧ c ≠ '.' ∧ c ≠ 'e' ∧ c ≠ 'E'

/-- Nothing that could go on with a number follows. -/
theorem Ends.cons {c : Char} (rest : List Char)
    (ends : c.isDigit = false ∧ c ≠ '.' ∧ c ≠ 'e' ∧ c ≠ 'E') : Ends (c :: rest) := by
  intro d first
  obtain rfl : c = d := Option.some.inj first
  exact ends

/-- A natural number is written with digits only. -/
theorem isDigit_of_mem_nat {n : Nat} {c : Char} (mem : c ∈ Nat.toDigits 10 n) : c.isDigit = true :=
  Nat.isDigit_of_mem_toDigits (by decide) (Nat.le_refl 10) mem

/-- The digits of a natural number, up to the end of the text that they are in. -/
theorem readDigits?_nat (n : Nat) {rest : List Char} (ends : Ends rest) :
    readDigits? (Nat.toDigits 10 n ++ rest) = some (Nat.toDigits 10 n, rest) := by
  have front : rest.takeWhile Char.isDigit = [] ∧ rest.dropWhile Char.isDigit = rest := by
    cases rest with
    | nil => exact ⟨rfl, rfl⟩
    | cons c rest =>
        have stops : ¬ c.isDigit = true := Bool.eq_false_iff.mp (ends c rfl).1
        exact ⟨List.takeWhile_cons_of_neg stops, List.dropWhile_cons_of_neg stops⟩
  rw [readDigits?, List.takeWhile_append_of_pos fun _ => isDigit_of_mem_nat,
    List.dropWhile_append_of_pos fun _ => isDigit_of_mem_nat, front.1, front.2, List.append_nil]
  simp [Nat.toDigits_ne_nil]

/-- No number but zero begins with a zero. -/
theorem head?_toDigits {n : Nat} (positive : 0 < n) : (Nat.toDigits 10 n).head? ≠ some '0' := by
  induction n using Nat.strongRecOn with
  | _ n ih =>
      rcases Nat.lt_or_ge n 10 with small | large
      · rw [Nat.toDigits_of_lt_base small, List.head?_cons]
        intro zero
        have := Nat.digitChar_eq_zero.mp (Option.some.inj zero)
        omega
      · rw [Nat.toDigits_of_base_le (by decide) large,
          List.head?_append_of_ne_nil _ Nat.toDigits_ne_nil]
        exact ih (n / 10) (by omega) (by omega)

/-- The digits of a natural number stand for it. -/
@[simp] theorem natural?_nat (n : Nat) : (nat n).natural? = some n := by
  have value : Decimal.naturalOf (Nat.toDigits 10 n) = n := by
    refine Eq.trans (List.foldl_ext _ _ 0 fun sofar c mem => ?_) (@Nat.ofDigitChars_ten_toDigits n)
    have digit : '0' ≤ c ∧ c ≤ '9' := by
      simpa [Char.isDigit, Char.le_def] using isDigit_of_mem_nat mem
    simp [digit, Nat.mul_comm]
  have text : (toString n).toList = Nat.toDigits 10 n := Nat.toList_repr
  rw [nat, natural?, text, if_pos (List.all_eq_true.mpr fun _ => isDigit_of_mem_nat), value]

/-- A natural number is read from its digits. -/
theorem readNumber?_nat (n : Nat) {rest : List Char} (ends : Ends rest) :
    readNumber? ((toString n).toList ++ rest) = some (nat n, rest) := by
  have text : (toString n).toList = Nat.toDigits 10 n := Nat.toList_repr
  have whole := readDigits?_nat n ends
  have proper :
      ((Nat.toDigits 10 n).head? = some '0' && 1 < (Nat.toDigits 10 n).length) = false := by
    rcases Nat.eq_zero_or_pos n with rfl | positive
    · rfl
    · simp [head?_toDigits positive]
  have fraction : readFraction? rest = some ([], rest) := by
    unfold readFraction?
    split
    next => exact absurd rfl (ends '.' rfl).2.1
    next => rfl
  have exponent : readExponent? rest = some ([], rest) := by
    unfold readExponent?
    split
    next mark cs =>
      obtain ⟨-, -, small, large⟩ := ends mark rfl
      exact if_neg (by simp [small, large])
    next => rfl
  rw [text, readNumber?]
  · simp only [whole, fraction, exponent, proper, Option.bind_eq_bind, Option.bind_some,
      Bool.false_eq_true, if_false, List.nil_append, List.append_nil]
    rw [nat, Nat.toString_eq_ofList_toDigits]
  · intro cs minus
    rw [minus] at whole
    cases whole

/-! ## Lines -/

/-- A line break is skipped whatever the level. -/
theorem skipBlanks_lineBreak (level : Nat) (rest : List Char) :
    skipBlanks ((lineBreak level).toList ++ rest) = skipBlanks rest := by
  have blank : ∀ c ∈ (lineBreak level).toList,
      (c = ' ' || c = '\t' || c = '\n' || c = '\r') = true := by
    simp [lineBreak]
  exact List.dropWhile_append_of_pos blank

/-- A number ends at a line break. -/
theorem ends_lineBreak (level : Nat) (rest : List Char) :
    Ends ((lineBreak level).toList ++ rest) := by
  have first : (lineBreak level).toList ++ rest =
      '\n' :: (List.replicate (2 * level) ' ' ++ rest) := by
    simp [lineBreak]
  rw [first]
  exact .cons _ (by decide)

section Lines

variable {α : Type} {loop : Nat → Bool → List α → List Char → Option (Json × List Char)}
  {finish : List α → Json} {mark : Char} {lines : List String} {items : List α}

/-- A loop takes an item from a line, and goes on behind a comma or finishes at the mark. -/
structure TakesLine (loop : Nat → Bool → List α → List Char → Option (Json × List Char))
    (finish : List α → Json) (mark : Char) (line : List Char) (item : α) : Prop where
  goesOn : ∀ (level budget : Nat) (more : Bool) (done : List α) (rest : List Char),
    loop (budget + 1) more done ((lineBreak level).toList ++ (line ++ ',' :: rest)) =
      loop budget true (item :: done) rest
  finishes : ∀ (level outer budget : Nat) (more : Bool) (done : List α) (rest : List Char),
    loop (budget + 1) more done
        ((lineBreak level).toList ++ (line ++ ((lineBreak outer).toList ++ mark :: rest))) =
      some (finish (item :: done).reverse, rest)

/-- A loop takes the items from all lines. -/
theorem TakesLine.all
    (each : List.Forall₂ (fun line item => TakesLine loop finish mark line.toList item) lines items)
    (proper : lines ≠ []) {budget : Nat} (enough : lines.length ≤ budget) (level outer : Nat)
    (more : Bool) (done : List α) (rest : List Char) :
    loop budget more done ((lineBreak level).toList ++
        ((Text.joinWith ("," ++ lineBreak level) lines).toList ++
          ((lineBreak outer).toList ++ mark :: rest))) =
      some (finish (done.reverse ++ items), rest) := by
  induction each generalizing budget more done with
  | nil => exact absurd rfl proper
  | @cons line item lines items takes later ih =>
      obtain ⟨budget, rfl⟩ : ∃ before, budget = before + 1 :=
        Nat.exists_eq_add_one_of_ne_zero (by rw [List.length_cons] at enough; omega)
      have enough : lines.length ≤ budget := Nat.le_of_succ_le_succ enough
      -- Only the last line is followed by the mark; behind any other the loop meets a comma.
      cases lines with
      | nil =>
          cases later
          rw [Text.joinWith, takes.finishes, List.reverse_cons]
      | cons next lines =>
          have comma : ("," ++ lineBreak level).toList = ',' :: (lineBreak level).toList := by
            rw [String.toList_append]
            rfl
          rw [Text.toList_joinWith_cons, comma, List.append_assoc, List.cons_append,
            List.cons_append, takes.goesOn, List.append_assoc,
            ih (List.cons_ne_nil _ _) enough, List.reverse_cons, List.append_assoc,
            List.singleton_append]

/-- There are no more lines than characters, with one to spare. -/
theorem length_le_joinWith (gap : String) (lines : List String) :
    lines.length ≤ (Text.joinWith ("," ++ gap) lines).toList.length + 1 := by
  induction lines with
  | nil => exact Nat.zero_le _
  | cons line lines ih =>
      cases lines with
      | nil => simp
      | cons next lines =>
          rw [Text.toList_joinWith_cons]
          simp only [List.length_cons, List.length_append, String.toList_append] at ih ⊢
          have : ",".toList.length = 1 := rfl
          omega

/-- A loop takes all items between brackets. -/
theorem TakesLine.bracketed
    (each : List.Forall₂ (fun line item => TakesLine loop finish mark line.toList item) lines items)
    (empty : ∀ budget rest, loop (budget + 1) false [] (mark :: rest) = some (finish [], rest))
    {opening closing : String} {first : Char} (starts : opening.toList = [first])
    (stops : closing.toList = [mark]) (level : Nat) (rest : List Char) :
    ∃ cs, (Json.bracketed opening closing level lines).toList ++ rest = first :: cs ∧
      loop (cs.length + 1) false [] cs = some (finish items, rest) := by
  unfold Json.bracketed
  cases each with
  | nil => exact ⟨mark :: rest, by simp [starts, stops], empty _ _⟩
  | @cons line item lines items takes later =>
      refine ⟨_, ?_, TakesLine.all (.cons takes later) (List.cons_ne_nil _ _) ?_ (level + 1) level
        false [] rest⟩
      · simp [starts, stops]
      · have := length_le_joinWith (lineBreak (level + 1)) (line :: lines)
        simp only [List.length_append]
        omega

end Lines

/-! ## Values -/

/-- The text of a document that a reader of values reads. It begins with the first character of a
value, and what comes behind it matters only where that could belong to a number. -/
structure Written (value : List Char → Option (Json × List Char)) (text : List Char)
    (document : Json) : Prop where
  opens : ∃ c cs, text = c :: cs ∧ (c = ' ' || c = '\t' || c = '\n' || c = '\r') = false ∧ c ≠ ']'
  reads : ∀ rest, Ends rest → value (text ++ rest) = some (document, rest)

section Values

variable {value : List Char → Option (Json × List Char)} {text : List Char} {document : Json}

/-- No blanks stand in front of a value that is written. -/
theorem Written.skipBlanks (written : Written value text document) (rest : List Char) :
    skipBlanks (text ++ rest) = text ++ rest := by
  obtain ⟨c, cs, rfl, solid, -⟩ := written.opens
  exact List.dropWhile_cons_of_neg (Bool.eq_false_iff.mp solid)

/-- An item is read from its line, and the mark behind it tells whether there are more. -/
theorem readItems?_step (written : Written value text document) {mark : Char}
    {rest after : List Char} (ends : Ends rest) (behind : Json.skipBlanks rest = mark :: after)
    (level budget : Nat) (more : Bool) (done : List Json) :
    readItems? value (budget + 1) more done ((lineBreak level).toList ++ (text ++ rest)) =
      if mark = ',' then readItems? value budget true (document :: done) after
      else if mark = ']' then some (.array (document :: done).reverse, after)
      else none := by
  obtain ⟨c, cs, rfl, -, other⟩ := written.opens
  rw [readItems?, skipBlanks_lineBreak, written.skipBlanks]
  split
  next closes => exact absurd (List.cons.inj closes).1 other
  next =>
    simp only [written.reads rest ends, behind]
    split
    next comma => simp [List.cons.inj comma]
    next bracket => simp [List.cons.inj bracket]
    next noComma noBracket =>
      have marks : mark ≠ ',' ∧ mark ≠ ']' :=
        ⟨fun comma => noComma after (comma ▸ rfl), fun bracket => noBracket after (bracket ▸ rfl)⟩
      simp [marks]

/-- The items of an array are read from their lines. -/
theorem Written.takesItem (written : Written value text document) :
    TakesLine (readItems? value) .array ']' text document where
  goesOn level budget more done rest := by
    rw [readItems?_step written (.cons _ (by decide)) rfl, if_pos rfl]
  finishes level outer budget more done rest := by
    rw [readItems?_step written (ends_lineBreak _ _) (skipBlanks_lineBreak _ _), if_neg (by decide),
      if_pos rfl]

/-- An entry is read from its line, and the mark behind it tells whether there are more. -/
theorem readEntries?_step (written : Written value text document) (key : String) {mark : Char}
    {rest after : List Char} (ends : Ends rest) (behind : Json.skipBlanks rest = mark :: after)
    (level budget : Nat) (more : Bool) (done : List (String × Json)) :
    readEntries? value (budget + 1) more done
        ((lineBreak level).toList ++ ((quote key).toList ++ (": ".toList ++ text) ++ rest)) =
      if mark = ',' then readEntries? value budget true ((key, document) :: done) after
      else if mark = '}' then some (.object ((key, document) :: done).reverse, after)
      else none := by
  have quoted : (quote key).toList ++ (": ".toList ++ text) ++ rest =
      '"' :: (key.toList.flatMap escape ++ '"' :: (':' :: ' ' :: (text ++ rest))) := by
    simp [quote]
  have opening : ∀ cs, Json.skipBlanks ('"' :: cs) = '"' :: cs := fun _ => rfl
  have colon : ∀ cs, Json.skipBlanks (':' :: cs) = ':' :: cs := fun _ => rfl
  have blank : Json.skipBlanks (' ' :: (text ++ rest)) = text ++ rest := written.skipBlanks rest
  rw [readEntries?, skipBlanks_lineBreak, quoted, opening]
  simp only [readString?_quote, colon, blank, written.reads rest ends, behind]
  split
  next comma => simp [List.cons.inj comma]
  next brace => simp [List.cons.inj brace]
  next noComma noBrace =>
    have marks : mark ≠ ',' ∧ mark ≠ '}' :=
      ⟨fun comma => noComma after (comma ▸ rfl), fun brace => noBrace after (brace ▸ rfl)⟩
    simp [marks]

/-- The entries of an object are read from their lines. -/
theorem Written.takesEntry (written : Written value text document) (key : String) :
    TakesLine (readEntries? value) .object '}' ((quote key).toList ++ (": ".toList ++ text))
      (key, document) where
  goesOn level budget more done rest := by
    rw [readEntries?_step written key (.cons _ (by decide)) rfl, if_pos rfl]
  finishes level outer budget more done rest := by
    rw [readEntries?_step written key (ends_lineBreak _ _) (skipBlanks_lineBreak _ _),
      if_neg (by decide), if_pos rfl]

end Values

/-! ## Documents -/

theorem prettyItems_eq (level : Nat) (items : List Json) :
    prettyItems level items = items.map fun item => item.prettyAt (level + 1) := by
  induction items with
  | nil => rfl
  | cons item items ih => rw [prettyItems, ih, List.map_cons]

theorem prettyEntries_eq (level : Nat) (entries : List (String × Json)) :
    prettyEntries level entries =
      entries.map fun entry => quote entry.1 ++ ": " ++ entry.2.prettyAt (level + 1) := by
  induction entries with
  | nil => rfl
  | cons entry entries ih => rw [prettyEntries, ih, List.map_cons]

/-- The marks that a scalar does not begin with, and white space. -/
def isMark (c : Char) : Bool :=
  c = ' ' || c = '\t' || c = '\n' || c = '\r' || c = ']' || c = '[' || c = '{'

/-- What begins with no mark is read as a scalar at any depth. -/
theorem Written.scalar {c : Char} {cs : List Char} {document : Json} (unmarked : isMark c = false)
    (reads : ∀ rest, Ends rest → readScalar? (c :: (cs ++ rest)) = some (document, rest))
    (depth : Nat) : Written (readValue? depth) (c :: cs) document := by
  simp only [isMark, Bool.or_eq_false_iff, decide_eq_false_iff_not] at unmarked
  obtain ⟨⟨⟨blank, closing⟩, array⟩, object⟩ := unmarked
  refine ⟨⟨c, cs, rfl, by simpa using blank, closing⟩, fun rest ends => ?_⟩
  rw [List.cons_append, ← reads rest ends]
  cases depth with
  | zero => rfl
  | succ depth => simp [readValue?, array, object]

theorem written_null (depth : Nat) : Written (readValue? depth) "null".toList Json.null := by
  have text : "null".toList = ['n', 'u', 'l', 'l'] := rfl
  rw [text]
  exact .scalar (by decide) (fun _ _ => rfl) depth

theorem written_bool (depth : Nat) (value : Bool) :
    Written (readValue? depth) (if value then "true" else "false").toList (.bool value) := by
  cases value with
  | true =>
      have text : "true".toList = ['t', 'r', 'u', 'e'] := rfl
      rw [if_pos rfl, text]
      exact .scalar (by decide) (fun _ _ => rfl) depth
  | false =>
      have text : "false".toList = ['f', 'a', 'l', 's', 'e'] := rfl
      rw [if_neg Bool.false_ne_true, text]
      exact .scalar (by decide) (fun _ _ => rfl) depth

/-- A natural number is read back as it is written. -/
theorem written_nat (depth n : Nat) :
    Written (readValue? depth) (toString n).toList (nat n) := by
  have number : ∀ rest, Ends rest →
      readNumber? ((toString n).toList ++ rest) = some (nat n, rest) :=
    fun rest ends => readNumber?_nat n ends
  have text : (toString n).toList = Nat.toDigits 10 n := Nat.toList_repr
  obtain ⟨c, cs, digits⟩ := List.exists_cons_of_ne_nil (Nat.toDigits_ne_nil (n := n) (b := 10))
  have unlike : ∀ {d : Char}, d.isDigit = false → c ≠ d := by
    rintro d other rfl
    have digit : c.isDigit = true := isDigit_of_mem_nat (digits ▸ List.mem_cons_self)
    exact Bool.false_ne_true (other.symm.trans digit)
  rw [text, digits] at number ⊢
  have unmarked : isMark c = false := by
    simp [isMark, unlike]
  refine .scalar unmarked (fun rest ends => ?_) depth
  rw [readScalar?.eq_def]
  split
  next same => exact absurd (List.cons.inj same).1 (unlike rfl)
  next same => exact absurd (List.cons.inj same).1 (unlike rfl)
  next same => exact absurd (List.cons.inj same).1 (unlike rfl)
  next same => exact absurd (List.cons.inj same).1 (unlike rfl)
  next => exact number rest ends

/-- A string is read back as it is written, with its escapes. -/
theorem written_string (depth : Nat) (value : String) :
    Written (readValue? depth) (quote value).toList (.string value) := by
  have text : (quote value).toList = '"' :: (value.toList.flatMap escape ++ ['"']) := by
    simp [quote]
  rw [text]
  refine .scalar (by decide) (fun rest _ => ?_) depth
  rw [List.append_assoc, List.singleton_append, readScalar?, readString?_quote]
  rfl

/-- A container whose lines are taken is read from its brackets on, one level deeper. -/
theorem written_container {α : Type} {depth : Nat} {opening closing : String} {first last : Char}
    {loop : Nat → Bool → List α → List Char → Option (Json × List Char)} {finish : List α → Json}
    (starts : opening.toList = [first]) (stops : closing.toList = [last])
    (opens : ∀ cs, readValue? (depth + 1) (first :: cs) = loop (cs.length + 1) false [] cs)
    (empty : ∀ budget rest, loop (budget + 1) false [] (last :: rest) = some (finish [], rest))
    (solid : (first = ' ' || first = '\t' || first = '\n' || first = '\r') = false)
    (other : first ≠ ']') {lines : List String} {items : List α}
    (each : List.Forall₂ (fun line item => TakesLine loop finish last line.toList item) lines items)
    (level : Nat) :
    Written (readValue? (depth + 1)) (bracketed opening closing level lines).toList
      (finish items) where
  opens := by
    obtain ⟨cs, text, -⟩ := TakesLine.bracketed each empty starts stops level []
    rw [List.append_nil] at text
    exact ⟨first, cs, text, solid, other⟩
  reads rest _ := by
    obtain ⟨cs, text, taken⟩ := TakesLine.bracketed each empty starts stops level rest
    rw [text, opens, taken]

/-- A document is read from its indented form at any level. -/
theorem Plain.written {depth : Nat} {document : Json} (plain : Plain depth document)
    (level : Nat) : Written (readValue? depth) (document.prettyAt level).toList document := by
  -- A container takes one level off the depth of the reader and adds one to the indentation.
  induction plain generalizing level with
  | @null depth =>
      rw [prettyAt]
      exact written_null depth
  | @bool depth value =>
      have text : (Json.bool value).prettyAt level = if value then "true" else "false" := by
        cases value <;> rw [prettyAt] <;> rfl
      rw [text]
      exact written_bool depth value
  | @nat depth n =>
      rw [Json.nat, prettyAt]
      exact written_nat depth n
  | @string depth value =>
      rw [prettyAt]
      exact written_string depth value
  | @array depth items each ih =>
      have lines : List.Forall₂ (fun line item =>
          TakesLine (readItems? (readValue? depth)) .array ']' line.toList item)
          (prettyItems level items) items := by
        rw [prettyItems_eq, List.forall₂_map_left_iff, List.forall₂_same]
        exact fun item mem => (ih item mem (level + 1)).takesItem
      rw [prettyAt]
      exact written_container rfl rfl (fun _ => rfl) (fun _ _ => rfl) (by decide) (by decide) lines
        level
  | @object depth entries each ih =>
      have lines : List.Forall₂ (fun line entry =>
          TakesLine (readEntries? (readValue? depth)) .object '}' line.toList entry)
          (prettyEntries level entries) entries := by
        rw [prettyEntries_eq, List.forall₂_map_left_iff, List.forall₂_same]
        intro entry mem
        have takes := (ih entry mem (level + 1)).takesEntry entry.1
        rwa [← String.toList_append, ← String.toList_append, ← String.append_assoc] at takes
      rw [prettyAt]
      exact written_container rfl rfl (fun _ => rfl) (fun _ _ => rfl) (by decide) (by decide) lines
        level

/-- A document is read back from its indented form. -/
theorem read?_pretty {document : Json} (plain : Plain 127 document) :
    read? (document.pretty ++ "\n") = some document := by
  have written : Written (readValue? 127) document.pretty.toList document := plain.written 0
  have lineFeed : Ends "\n".toList := .cons [] (by decide)
  rw [read?, String.toList_append, written.skipBlanks, written.reads _ lineFeed]
  rfl

end ClassFactory.Json
