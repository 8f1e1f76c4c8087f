/-
Module: ClassFactory.Proofs.Types.Respacing
Purpose: Texts that differ in white space around punctuation, and what a reader who goes through a
  text from left to right knows of the brackets that are open and of the word in front. The colon of
  a receiver that stands apart from its word is found in this way, without any grammar.
Main exports: Respaced, Respaced.trimStart, Aligned, Solid, Scan, Scan.run, hasLooseReceiver,
  Respaced.splitName
-/
import ClassFactory.Proofs.Types.Reads

namespace ClassFactory

/-! ## White space around punctuation -/

/-- The punctuation marks of type expressions. -/
def punctuation : List Char := ['(', ')', '\x7b', '\x7d', '|', ',', ':']

/-- The quotes of string literals. -/
def quotes : List Char := ['"', '\x27']

/-- The second text is the first one with white space put around punctuation marks. String literals
are left alone; without a closing quote a literal goes on to the end. -/
inductive Respaced : List Char → List Char → Prop where
  | nil : Respaced [] []
  | mark {c : Char} {before after cs cs' : List Char} (isMark : c ∈ punctuation)
      (blankBefore : ∀ b ∈ before, Text.isBlank b = true)
      (blankAfter : ∀ b ∈ after, Text.isBlank b = true) (rest : Respaced cs cs') :
      Respaced (c :: cs) (before ++ c :: (after ++ cs'))
  | literal {quote : Char} {text cs cs' : List Char} (isQuote : quote ∈ quotes)
      (free : quote ∉ text) (rest : Respaced cs cs') :
      Respaced (quote :: (text ++ quote :: cs)) (quote :: (text ++ quote :: cs'))
  | unended {quote : Char} {text : List Char} (isQuote : quote ∈ quotes) (free : quote ∉ text) :
      Respaced (quote :: text) (quote :: text)
  | other {c : Char} {cs cs' : List Char} (noMark : c ∉ punctuation) (noQuote : c ∉ quotes)
      (rest : Respaced cs cs') : Respaced (c :: cs) (c :: cs')

/-- The character belongs to no name, to no literal and to no white space. -/
structure Delimits (c : Char) : Prop where
  noQuote : c ∉ quotes
  noBlank : Text.isBlank c = false
  noName : Reading.isNameCharacter false c = false

instance (c : Char) : Decidable (Delimits c) :=
  decidable_of_iff (c ∉ quotes ∧ Text.isBlank c = false ∧ Reading.isNameCharacter false c = false)
    ⟨fun ⟨noQuote, noBlank, noName⟩ => ⟨noQuote, noBlank, noName⟩,
      fun ⟨noQuote, noBlank, noName⟩ => ⟨noQuote, noBlank, noName⟩⟩

/-- No name starts with a delimiter either. -/
theorem Delimits.startsNoName {c : Char} (delimits : Delimits c) (first : Bool) :
    Reading.isNameCharacter first c = false := by
  have inside := delimits.noName
  cases first with
  | false => exact inside
  | true =>
      simp only [Reading.isNameCharacter, Bool.or_eq_false_iff] at inside ⊢
      exact ⟨inside.1, by simp⟩

/-- No character is a mark, a quote or white space. -/
def Unmarked (cs : List Char) : Prop :=
  ∀ c ∈ cs, c ∉ punctuation ∧ c ∉ quotes ∧ Text.isBlank c = false

instance (cs : List Char) : Decidable (Unmarked cs) := List.decidableBAll _ cs

/-- No white space stands in front. -/
def Solid (cs : List Char) : Prop := ∀ c ∈ cs.head?, Text.isBlank c = false

/-- The texts differ in white space in front and around punctuation marks. -/
def Aligned (cs cs' : List Char) : Prop := Respaced (Text.trimStart cs) (Text.trimStart cs')

section Respacing

variable {c : Char} {cs cs' before rest : List Char}

/-- White space in front of a text is skipped with that of the text. -/
theorem Text.trimStart_append (blank : ∀ b ∈ before, Text.isBlank b = true) (rest : List Char) :
    Text.trimStart (before ++ rest) = Text.trimStart rest :=
  List.dropWhile_append_of_pos blank

theorem Solid.trimStart (solid : Solid cs) : Text.trimStart cs = cs := by
  cases cs with
  | nil => rfl
  | cons c cs => exact Text.trimStart_cons_of_not_blank cs (solid c rfl)

/-- No white space is left in front where it has been skipped. -/
theorem solid_trimStart (cs : List Char) : Solid (Text.trimStart cs) := by
  intro c mem
  have first : (cs.dropWhile Text.isBlank).head? = some c := mem
  have noBlank := List.head?_dropWhile_not Text.isBlank cs
  rw [first] at noBlank
  simpa using noBlank

/-- Punctuation is no white space. -/
theorem isBlank_of_mark (isMark : c ∈ punctuation) : Text.isBlank c = false :=
  Reading.eq_false_of_any (by decide) isMark

theorem isBlank_of_quote (isQuote : c ∈ quotes) : Text.isBlank c = false :=
  Reading.eq_false_of_any (by decide) isQuote

theorem notMem_quotes_of_mark (isMark : c ∈ punctuation) : c ∉ quotes := by
  have apart : ∀ d ∈ punctuation, d ∉ quotes := by simp [punctuation, quotes]
  exact apart c isMark

theorem notMem_quotes_of_isBlank (blank : Text.isBlank c = true) : c ∉ quotes := by
  intro isQuote
  rw [isBlank_of_quote isQuote] at blank
  cases blank

theorem isNameCharacter_of_mark (isMark : c ∈ punctuation) (first : Bool) :
    Reading.isNameCharacter first c = false := by
  cases first with
  | true => exact Reading.eq_false_of_any (by decide) isMark
  | false => exact Reading.eq_false_of_any (by decide) isMark

theorem isNameCharacter_of_quote (isQuote : c ∈ quotes) (first : Bool) :
    Reading.isNameCharacter first c = false := by
  cases first with
  | true => exact Reading.eq_false_of_any (by decide) isQuote
  | false => exact Reading.eq_false_of_any (by decide) isQuote

namespace Respaced

/-- What is no mark, no quote and no white space stands in both texts. -/
theorem others {plain : List Char} (all : Unmarked plain)
    (respaced : Respaced cs cs') : Respaced (plain ++ cs) (plain ++ cs') := by
  induction plain with
  | nil => exact respaced
  | cons c plain ih =>
      obtain ⟨noMark, noQuote, -⟩ := all c List.mem_cons_self
      exact .other noMark noQuote (ih fun d mem => all d (List.mem_cons_of_mem _ mem))

theorem eq_nil (respaced : Respaced [] cs') : cs' = [] := by
  cases respaced
  rfl

/-- Only white space has been added. -/
theorem length_le (respaced : Respaced cs cs') : cs.length ≤ cs'.length := by
  induction respaced with
  | nil => exact Nat.le_refl _
  | mark _ _ _ _ ih => simp; omega
  | literal _ _ _ ih => simp; omega
  | unended => exact Nat.le_refl _
  | other _ _ _ ih => simp; omega

/-- Respaced texts are still so when the white space in front of both is skipped. -/
theorem trimStart (respaced : Respaced cs cs') : Aligned cs cs' := by
  unfold Aligned
  induction respaced with
  | nil => exact .nil
  | mark isMark blankBefore blankAfter rest _ =>
      rw [Text.trimStart_append blankBefore,
        Text.trimStart_cons_of_not_blank _ (isBlank_of_mark isMark),
        Text.trimStart_cons_of_not_blank _ (isBlank_of_mark isMark)]
      have bare := Respaced.mark isMark (List.forall_mem_nil (Text.isBlank · = true)) blankAfter rest
      exact bare
  | literal isQuote free rest _ =>
      rw [Text.trimStart_cons_of_not_blank _ (isBlank_of_quote isQuote),
        Text.trimStart_cons_of_not_blank _ (isBlank_of_quote isQuote)]
      exact .literal isQuote free rest
  | unended isQuote free =>
      rw [Text.trimStart_cons_of_not_blank _ (isBlank_of_quote isQuote)]
      exact .unended isQuote free
  | @other c cs cs' noMark noQuote rest ih =>
      cases blank : Text.isBlank c with
      | true => simpa [Text.trimStart, blank] using ih
      | false =>
          rw [Text.trimStart_cons_of_not_blank _ blank, Text.trimStart_cons_of_not_blank _ blank]
          exact .other noMark noQuote rest

/-- Where no white space was put in front, both texts start with the same character. -/
theorem head?_eq (respaced : Respaced cs cs') (solid : Solid cs') : cs.head? = cs'.head? := by
  cases respaced with
  | @mark c before after cs cs' isMark blankBefore =>
      cases before with
      | nil => rfl
      | cons b before =>
          have blank := solid b rfl
          rw [blankBefore b List.mem_cons_self] at blank
          cases blank
  | nil => rfl
  | literal => rfl
  | unended => rfl
  | other => rfl

/-- Behind a character that is neither a mark nor a quote the texts go on as before. -/
theorem of_other (respaced : Respaced (c :: cs) cs') (noMark : c ∉ punctuation)
    (noQuote : c ∉ quotes) : ∃ rest, cs' = c :: rest ∧ Respaced cs rest := by
  cases respaced with
  | mark isMark => exact absurd isMark noMark
  | literal isQuote => exact absurd isQuote noQuote
  | unended isQuote => exact absurd isQuote noQuote
  | other _ _ rest => exact ⟨_, rfl, rest⟩

/-- Any other character that comes next in one of the texts comes next in the other. -/
theorem head?_eq_some_iff (respaced : Respaced cs cs') (noMark : c ∉ punctuation)
    (noQuote : c ∉ quotes) (noBlank : Text.isBlank c = false) :
    cs.head? = some c ↔ cs'.head? = some c := by
  constructor
  · intro front
    obtain ⟨more, rfl⟩ := List.head?_eq_some_iff.mp front
    obtain ⟨rest, rfl, -⟩ := respaced.of_other noMark noQuote
    rfl
  · intro front
    refine (respaced.head?_eq fun d mem => ?_).trans front
    obtain rfl := Option.some.inj (front.symm.trans mem)
    exact noBlank

/-- In front of a mark white space may have been added, and behind it. -/
theorem of_mark (respaced : Respaced (c :: cs) cs') (isMark : c ∈ punctuation) :
    ∃ before rest, (∀ b ∈ before, Text.isBlank b = true) ∧ cs' = before ++ c :: rest ∧
      Aligned cs rest := by
  cases respaced with
  | @mark _ before after cs inner _ blankBefore blankAfter rest =>
      refine ⟨before, after ++ inner, blankBefore, rfl, ?_⟩
      unfold Aligned
      rw [Text.trimStart_append blankAfter]
      exact rest.trimStart
  | literal isQuote => exact absurd isQuote (notMem_quotes_of_mark isMark)
  | unended isQuote => exact absurd isQuote (notMem_quotes_of_mark isMark)
  | other noMark => exact absurd isMark noMark

/-- What follows a character that is no quote. -/
theorem of_noQuote (respaced : Respaced (c :: cs) (c :: cs')) (noQuote : c ∉ quotes) :
    Aligned cs cs' := by
  by_cases isMark : c ∈ punctuation
  · obtain ⟨before, rest, blank, split, aligned⟩ := respaced.of_mark isMark
    cases before with
    | nil =>
        obtain rfl := (List.cons.inj split).2
        exact aligned
    | cons b before =>
        obtain rfl := (List.cons.inj split).1
        have blank := blank c List.mem_cons_self
        rw [isBlank_of_mark isMark] at blank
        cases blank
  · obtain ⟨rest, split, further⟩ := respaced.of_other isMark noQuote
    obtain rfl := (List.cons.inj split).2
    exact further.trimStart

/-- A token without marks and quotes is at the front of both texts or of neither. -/
theorem dropStart? (token : List Char) (others : Unmarked token) (respaced : Respaced cs cs') :
    (Text.dropStart? token cs = none ∧ Text.dropStart? token cs' = none) ∨
      ∃ rest rest', cs = token ++ rest ∧ cs' = token ++ rest' ∧ Respaced rest rest' := by
  induction token generalizing cs cs' with
  | nil => exact .inr ⟨cs, cs', rfl, rfl, respaced⟩
  | cons c token ih =>
      obtain ⟨noMark, noQuote, noBlank⟩ := others c List.mem_cons_self
      have same := respaced.head?_eq_some_iff noMark noQuote noBlank
      by_cases next : cs.head? = some c
      · obtain ⟨more, rfl⟩ := List.head?_eq_some_iff.mp next
        obtain ⟨more', rfl, further⟩ := respaced.of_other noMark noQuote
        simp only [Text.dropStart?, if_true, List.cons_append, List.cons.injEq, true_and]
        exact ih (fun d mem => others d (List.mem_cons_of_mem _ mem)) further
      · exact .inl ⟨Text.dropStart?_of_head?_ne next, Text.dropStart?_of_head?_ne (mt same.mpr next)⟩

/-- A name at the front is the same one in both texts. -/
theorem splitName (respaced : Respaced cs cs') (first : Bool) :
    ∃ word rest rest', Reading.splitName first cs = (word, rest) ∧
      Reading.splitName first cs' = (word, rest') ∧ Respaced rest rest' := by
  induction respaced generalizing first with
  | nil => exact ⟨[], [], [], rfl, rfl, .nil⟩
  | @mark c before after cs cs' isMark blankBefore blankAfter rest _ =>
      refine ⟨[], _, _, Reading.splitName_nil_of_other ?_, Reading.splitName_nil_of_other ?_,
        .mark isMark blankBefore blankAfter rest⟩
      · simpa using isNameCharacter_of_mark isMark first
      · cases before with
        | nil => simpa using isNameCharacter_of_mark isMark first
        | cons b before =>
            rintro d ⟨⟩
            by_contra ofName
            have noBlank := Reading.isBlank_of_isNameCharacter (Bool.of_not_eq_false ofName)
            rw [blankBefore b List.mem_cons_self] at noBlank
            cases noBlank
  | literal isQuote free rest _ =>
      refine ⟨[], _, _, Reading.splitName_nil_of_other ?_, Reading.splitName_nil_of_other ?_,
        .literal isQuote free rest⟩
      · simpa using isNameCharacter_of_quote isQuote first
      · simpa using isNameCharacter_of_quote isQuote first
  | unended isQuote free =>
      refine ⟨[], _, _, Reading.splitName_nil_of_other ?_, Reading.splitName_nil_of_other ?_,
        .unended isQuote free⟩
      · simpa using isNameCharacter_of_quote isQuote first
      · simpa using isNameCharacter_of_quote isQuote first
  | @other c cs cs' noMark noQuote rest ih =>
      have bracket : cs.head? = some '<' ↔ cs'.head? = some '<' :=
        rest.head?_eq_some_iff (by decide) (by decide) (by decide)
      obtain ⟨word, left, left', one, other, further⟩ := ih false
      simp only [Reading.splitName, one, other, bracket]
      split
      · exact ⟨_, _, _, rfl, rfl, further⟩
      · exact ⟨[], _, _, rfl, rfl, .other noMark noQuote rest⟩

end Respaced

end Respacing

/-! ## Going through a text -/

/-- Whether a word is one in front of the type of a receiver. -/
def isReceiverWord (word : List Char) : Bool :=
  String.ofList word = "this" || String.ofList word = "new"

/-- What is known of the part of a text that lies behind. -/
structure Scan where
  /-- The brackets that are open, the innermost first. -/
  opened : List Char
  /-- The quote that ends the literal here, if there is one. -/
  quote : Option Char
  /-- The word that stands in front. -/
  word : List Char
  /-- White space has followed the word. -/
  apart : Bool
  /-- The colon of a receiver stood apart from its word. -/
  loose : Bool
deriving DecidableEq, Repr

namespace Scan

/-- Nothing stands in front but brackets that are open. -/
def fresh (opened : List Char) : Scan := ⟨opened, none, [], false, false⟩

/-- The open brackets behind one more character. -/
def nest (opened : List Char) (c : Char) : List Char :=
  if c = '(' || c = '\x7b' || c = '<' then c :: opened
  else if c = ')' || c = '\x7d' || c = '>' then opened.tail
  else opened

/-- A colon here would be that of a receiver, and its word stands apart. -/
def awaitsColon (scan : Scan) : Bool :=
  scan.apart && isReceiverWord scan.word && scan.opened.head? = some '('

/-- Going on over one character. -/
def step (scan : Scan) (c : Char) : Scan :=
  match scan.quote with
  | some quote => if c = quote then { scan with quote := none } else scan
  | none =>
    if c ∈ quotes then { scan with quote := some c, word := [], apart := false }
    else if Text.isBlank c then { scan with apart := !scan.word.isEmpty }
    else if Reading.isNameCharacter (scan.word.isEmpty || scan.apart) c then
      { scan with word := if scan.apart then [c] else scan.word ++ [c], apart := false }
    else
      { opened := nest scan.opened c, quote := none, word := [], apart := false,
        loose := scan.loose || (c = ':' && scan.awaitsColon) }

/-- Going on over a text. -/
def run (scan : Scan) (cs : List Char) : Scan := cs.foldl step scan

end Scan

/-- Somewhere in the text white space separates `this` or `new` from a colon, and of the brackets
open there the innermost is a parenthesis. -/
def hasLooseReceiver (text : String) : Bool := ((Scan.fresh []).run text.toList).loose

namespace Scan

variable {scan : Scan} {c : Char} {cs opened word : List Char}

theorem run_cons (scan : Scan) (c : Char) (cs : List Char) :
    scan.run (c :: cs) = (scan.step c).run cs := rfl

/-- Going on over two texts is going on over the one and then over the other. -/
theorem run_append (scan : Scan) (cs rest : List Char) :
    scan.run (cs ++ rest) = (scan.run cs).run rest :=
  List.foldl_append

/-- Outside of literals, only that no receiver was loose and what brackets are open is known. -/
structure Between (opened : List Char) (scan : Scan) : Prop where
  opened : scan.opened = opened
  quote : scan.quote = none
  loose : scan.loose = false

theorem Between.fresh (opened : List Char) : Between opened (fresh opened) := ⟨rfl, rfl, rfl⟩

/-- A receiver that was found loose stays found. -/
theorem step_loose (loose : scan.loose = true) (c : Char) : (scan.step c).loose = true := by
  unfold step
  split
  · split
    · exact loose
    · exact loose
  · repeat' split
    all_goals simp [loose]

/-- It stays so over any text. -/
theorem run_loose (loose : scan.loose = true) (cs : List Char) : (scan.run cs).loose = true := by
  induction cs generalizing scan with
  | nil => exact loose
  | cons c cs ih => exact ih (step_loose loose c)

/-- White space leaves no trace where no word stands in front. -/
theorem step_fresh_blank (blank : Text.isBlank c = true) :
    (fresh opened).step c = fresh opened := by
  simp [step, fresh, notMem_quotes_of_isBlank blank, blank]

/-- White space changes neither what brackets are open nor whether a receiver is loose. -/
theorem Between.step_blank (between : Between opened scan) (blank : Text.isBlank c = true) :
    Between opened (scan.step c) := by
  have stepped : scan.step c = { scan with apart := !scan.word.isEmpty } := by
    simp [step, between.quote, notMem_quotes_of_isBlank blank, blank]
  rw [stepped]
  exact ⟨between.opened, between.quote, between.loose⟩

/-- Without a word in front a character that starts no name only opens and closes brackets. -/
theorem step_fresh (noQuote : c ∉ quotes) (noBlank : Text.isBlank c = false)
    (noName : Reading.isNameCharacter true c = false) :
    (fresh opened).step c = fresh (nest opened c) := by
  simp [step, fresh, noQuote, noBlank, noName, awaitsColon]

theorem step_fresh_delimiter (delimits : Delimits c) :
    (fresh opened).step c = fresh (nest opened c) :=
  step_fresh delimits.noQuote delimits.noBlank (delimits.startsNoName true)

/-- A delimiter does so behind a word too, unless it is a colon in parentheses. -/
theorem Between.step_delimiter (between : Between opened scan) (delimits : Delimits c)
    (noColon : c = ':' → opened.head? ≠ some '(') :
    scan.step c = Scan.fresh (nest opened c) := by
  have tight : (decide (c = ':') && scan.awaitsColon) = false := by
    by_cases colon : c = ':'
    · simp [awaitsColon, between.opened, noColon colon]
    · simp [colon]
  simp [step, between.quote, between.opened, between.loose, delimits.noQuote, delimits.noBlank,
    delimits.startsNoName, tight, Scan.fresh]

/-- The colon of a receiver right behind its word is not loose. -/
theorem step_tight_colon :
    (Scan.mk opened none word false false).step ':' = fresh opened := by
  have delimits : Delimits ':' := by decide
  simp [step, delimits.noQuote, delimits.noBlank, delimits.startsNoName, awaitsColon, nest, fresh]

/-- A period belongs to the word in front, or to none. -/
theorem Between.step_period (between : Between opened scan) : Between opened (scan.step '.') := by
  have period : '.' ∉ quotes ∧ Text.isBlank '.' = false := by decide
  unfold step
  rw [between.quote]
  dsimp only
  rw [if_neg period.1, if_neg (Bool.eq_false_iff.mp period.2)]
  split
  · exact ⟨between.opened, rfl, between.loose⟩
  · refine ⟨?_, rfl, by simp [between.loose]⟩
    simp [nest, between.opened]

/-- Going over the name in front of a text leaves the name in front. -/
theorem run_splitName (first : List Char) {rest : List Char}
    (split : Reading.splitName first.isEmpty cs = (word, rest)) :
    (Scan.mk opened none first false false).run cs =
      (Scan.mk opened none (first ++ word) false false).run rest := by
  induction cs generalizing first word with
  | nil =>
      obtain ⟨rfl, rfl⟩ := Prod.mk.inj split
      simp
  | cons c cs ih =>
      rw [Reading.splitName] at split
      split at split
      next goesOn =>
        have ofName := (Bool.and_eq_true _ _ ▸ goesOn).1
        rcases further : Reading.splitName false cs with ⟨more, left⟩
        rw [further] at split
        obtain ⟨rfl, rfl⟩ := Prod.mk.inj split
        have noQuote : c ∉ quotes := fun isQuote => by
          rw [isNameCharacter_of_quote isQuote] at ofName
          cases ofName
        have stepped : (Scan.mk opened none first false false).step c =
            ⟨opened, none, first ++ [c], false, false⟩ := by
          simp [step, noQuote, Reading.isBlank_of_isNameCharacter ofName, ofName]
        have goesFurther : Reading.splitName (first ++ [c]).isEmpty cs = (more, left) := by
          rwa [List.isEmpty_eq_false_iff.mpr (by simp)]
        rw [run_cons, stepped, ih (first ++ [c]) goesFurther, List.append_assoc, List.singleton_append]
      next =>
        obtain ⟨rfl, rfl⟩ := Prod.mk.inj split
        simp

/-- A literal leaves nothing in front. -/
theorem run_literal {quote : Char} (isQuote : quote ∈ quotes) (free : quote ∉ cs)
    (rest : List Char) :
    (fresh opened).run (quote :: (cs ++ quote :: rest)) = (fresh opened).run rest := by
  have inside : (Scan.mk opened (some quote) [] false false).run cs =
      ⟨opened, some quote, [], false, false⟩ := by
    induction cs with
    | nil => rfl
    | cons c cs ih =>
        obtain ⟨here, later⟩ := not_or.mp (mt List.mem_cons.mpr free)
        rw [run_cons, step]
        simpa [Ne.symm here] using ih later
  have opening : (fresh opened).step quote = ⟨opened, some quote, [], false, false⟩ := by
    simp [step, fresh, isQuote]
  rw [run_cons, opening, run_append, inside, run_cons]
  simp [step, fresh]

/-- White space behind a word is noticed. -/
theorem run_blanks {blanks : List Char} {before : Bool} (named : word ≠ []) (some : blanks ≠ [])
    (blank : ∀ b ∈ blanks, Text.isBlank b = true) :
    (Scan.mk opened none word before false).run blanks = ⟨opened, none, word, true, false⟩ := by
  induction blanks generalizing before with
  | nil => exact absurd rfl some
  | cons b blanks ih =>
      have here := blank b List.mem_cons_self
      have stepped : (Scan.mk opened none word before false).step b =
          ⟨opened, none, word, true, false⟩ := by
        simp [step, notMem_quotes_of_isBlank here, here, named]
      rw [run_cons, stepped]
      cases blanks with
      | nil => rfl
      | cons next more => exact ih (by simp) fun d mem => blank d (List.mem_cons_of_mem _ mem)

/-- White space between the word of a receiver and its colon is found. -/
theorem run_loose_receiver {blanks : List Char} (isWord : isReceiverWord word = true)
    (some : blanks ≠ []) (blank : ∀ b ∈ blanks, Text.isBlank b = true) (rest : List Char) :
    ((Scan.mk ('(' :: opened) none word false false).run (blanks ++ ':' :: rest)).loose = true := by
  have named : word ≠ [] := by
    rintro rfl
    exact absurd isWord (by decide)
  have colon : ':' ∉ quotes ∧ Text.isBlank ':' = false ∧
      Reading.isNameCharacter true ':' = false := by decide
  rw [run_append, run_blanks named some blank, run_cons]
  apply run_loose
  simp [step, awaitsColon, isWord, colon]

end Scan

end ClassFactory
