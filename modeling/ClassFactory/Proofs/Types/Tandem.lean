/-
Module: ClassFactory.Proofs.Types.Tandem
Purpose: Reading a type expression from two texts that differ in white space around punctuation. The
  steps of reading do the same with both texts, and steps that do are put together, as in a
  relational program logic; the second reading may only fail, and only where the second text has the
  colon of a receiver apart from its word.
Main exports: Follows, Follows.bind, skipBlanks_follows, eat_follows, expect_follows, name_follows,
  quoted_follows, argumentsMark_follows, Follows.receiver
-/
import ClassFactory.Proofs.Types.Respacing

namespace ClassFactory

namespace Reading

/-! ## Reading two texts -/

/-- What holds of a place in a text and of that place in the respaced text, with what is known there
of the part of the latter that lies behind. -/
abbrev Place := List Char → List Char → Scan → Prop

/-- White space may come next. -/
def Before (known : Scan → Prop) : Place :=
  fun cs cs' scan => Aligned cs cs' ∧ known scan

/-- No white space comes next. -/
structure Front (known : Scan → Prop) (cs cs' : List Char) (scan : Scan) : Prop where
  respaced : Respaced cs cs'
  solid : Solid cs
  solid' : Solid cs'
  known : known scan

/-- The character comes next. -/
structure FrontAt (known : Scan → Prop) (c : Char) (cs cs' : List Char) (scan : Scan) : Prop
    extends Front known cs cs' scan where
  next : cs.head? = some c

/-- A reading of the respaced text gives the same result, and stops at the same place; or else it
fails and the respaced text has a loose receiver. -/
def Agrees {α : Type} (other : Reading α) (ends : α → Place) (cs' : List Char) (scan : Scan)
    (result : α) (rest : List Char) : Prop :=
  (∃ rest' scan', Takes other cs' result rest' ∧ ends result rest rest' scan' ∧
    scan.run cs' = scan'.run rest') ∨
  (∀ result' rest', ¬ Takes other cs' result' rest') ∧ (scan.run cs').loose = true

/-- Whatever one reading makes of a text, the other agrees on the respaced text. -/
def Follows {α : Type} (starts : Place) (one other : Reading α) (ends : α → Place) : Prop :=
  ∀ cs cs' scan, starts cs cs' scan → ∀ result rest, Takes one cs result rest →
    Agrees other ends cs' scan result rest

section Rules

variable {α β : Type} {starts middle : Place} {one other : Reading α} {between : α → Place}
  {ends : β → Place} {known left : Scan → Prop} {c : Char} {result : α}

/-- Giving the same result, both stop where they are. -/
theorem Follows.pure (holds : ∀ cs cs' scan, starts cs cs' scan → between result cs cs' scan) :
    Follows starts (Pure.pure result) (Pure.pure result) between := by
  intro cs cs' scan start result' rest taken
  obtain ⟨rfl, rfl⟩ := (Takes.pure result cs).unique taken
  exact .inl ⟨cs', scan, .pure result cs', holds cs cs' scan start, rfl⟩

/-- Nothing is asked where the first reading fails. -/
theorem Follows.failure : Follows starts failure other between := by
  intro cs cs' scan start result rest taken
  exact absurd taken Takes.not_failure

/-- Readings agree if they do from where the second one comes to by its first step. -/
theorem Agrees.bind {next' : α → Reading β} {cs' left' rest : List Char} {scan scan' : Scan}
    {found : α} {result : β} (first : Takes other cs' found left')
    (scanned : scan.run cs' = scan'.run left')
    (second : Agrees (next' found) ends left' scan' result rest) :
    Agrees (other >>= next') ends cs' scan result rest := by
  rcases second with ⟨rest', after, taken, place, scanned'⟩ | ⟨fails, loose⟩
  · exact .inl ⟨rest', after, first.bind taken, place, scanned.trans scanned'⟩
  · refine .inr ⟨fun result' rest' both => ?_, scanned ▸ loose⟩
    obtain ⟨again, place, firstAgain, secondAgain⟩ := both.of_bind
    obtain ⟨rfl, rfl⟩ := first.unique firstAgain
    exact fails result' rest' secondAgain

/-- Readings in two steps agree if both steps do, the second one from wherever the first has come
to. -/
theorem Follows.bind {next next' : α → Reading β} (first : Follows starts one other between)
    (second : ∀ result, Follows (between result) (next result) (next' result) ends) :
    Follows starts (one >>= next) (other >>= next') ends := by
  intro cs cs' scan start result rest taken
  obtain ⟨found, left, firstTaken, secondTaken⟩ := taken.of_bind
  rcases first cs cs' scan start found left firstTaken with
    ⟨left', scan', firstTaken', place, scanned⟩ | ⟨fails, loose⟩
  · exact .bind firstTaken' scanned
      (second found left left' scan' place result rest secondTaken)
  · refine .inr ⟨fun result' rest' both => ?_, loose⟩
    obtain ⟨again, place, firstAgain, -⟩ := both.of_bind
    exact fails again place firstAgain

/-- It is enough to agree from more places. -/
theorem Follows.mono (follows : Follows middle one other between)
    (holds : ∀ cs cs' scan, starts cs cs' scan → middle cs cs' scan) :
    Follows starts one other between :=
  fun cs cs' scan start => follows cs cs' scan (holds cs cs' scan start)

/-- Less may be said of the place where both have come to. -/
theorem Follows.weaken {after : α → Place} (follows : Follows starts one other between)
    (holds : ∀ result cs cs' scan, between result cs cs' scan → after result cs cs' scan) :
    Follows starts one other after := by
  intro cs cs' scan start result rest taken
  refine (follows cs cs' scan start result rest taken).imp_left ?_
  rintro ⟨rest', scan', taken', place, scanned⟩
  exact ⟨rest', scan', taken', holds result rest rest' scan' place, scanned⟩

/-- A choice agrees if both ways do. -/
theorem Follows.ite {condition : Prop} [Decidable condition] {yes yes' no no' : Reading α}
    (holds : condition → Follows starts yes yes' between)
    (fails : ¬ condition → Follows starts no no' between) :
    Follows starts (if condition then yes else no) (if condition then yes' else no') between := by
  split
  next given => exact holds given
  next absent => exact fails absent

/-! ## Places -/

/-- A place where no white space comes next is one where it may. -/
theorem Front.before {cs cs' : List Char} {scan : Scan} (front : Front known cs cs' scan) :
    Before known cs cs' scan := by
  refine ⟨?_, front.known⟩
  unfold Aligned
  rw [front.solid.trimStart, front.solid'.trimStart]
  exact front.respaced

/-- Where no white space comes next, the next character is the same in both texts. -/
theorem Front.head?_eq {cs cs' : List Char} {scan : Scan} (front : Front known cs cs' scan) :
    cs.head? = cs'.head? :=
  front.respaced.head?_eq front.solid'

/-- What is known is not changed by white space. -/
def Steady (known : Scan → Prop) : Prop :=
  ∀ scan c, known scan → Text.isBlank c = true → known (scan.step c)

/-- The scan is at a place where nothing stands in front but the open brackets. -/
abbrev Fresh (opened : List Char) : Scan → Prop := (· = Scan.fresh opened)

variable {opened : List Char}

/-- White space leaves a scan fresh. -/
theorem steady_fresh (opened : List Char) : Steady (Fresh opened) := by
  rintro scan c rfl blank
  exact Scan.step_fresh_blank blank

/-- White space leaves what brackets are open. -/
theorem steady_between (opened : List Char) : Steady (Scan.Between opened) :=
  fun _ _ between blank => between.step_blank blank

/-- White space of any length leaves what is known. -/
theorem Steady.run (steady : Steady known) {scan : Scan} (knows : known scan) {cs : List Char}
    (blank : ∀ b ∈ cs, Text.isBlank b = true) : known (scan.run cs) := by
  induction cs generalizing scan with
  | nil => exact knows
  | cons c cs ih =>
      exact ih (steady scan c knows (blank c List.mem_cons_self))
        fun b mem => blank b (List.mem_cons_of_mem _ mem)

/-- Skipping the white space in front. -/
theorem Steady.run_trimStart (steady : Steady known) {scan : Scan} (knows : known scan)
    (cs : List Char) : ∃ scan', known scan' ∧ scan.run cs = scan'.run (Text.trimStart cs) := by
  refine ⟨scan.run (cs.takeWhile Text.isBlank), steady.run knows fun b mem => ?_, ?_⟩
  · exact (List.all_eq_true.mp List.all_takeWhile) b mem
  · rw [Text.trimStart, ← Scan.run_append, List.takeWhile_append_dropWhile]

theorem skipBlanks_takes (cs : List Char) : Takes skipBlanks cs () (Text.trimStart cs) := rfl

/-- When both skip white space, none comes next in either text. -/
theorem skipBlanks_follows (steady : Steady known) :
    Follows (Before known) skipBlanks skipBlanks fun _ => Front known := by
  rintro cs cs' scan ⟨aligned, knows⟩ result rest taken
  obtain ⟨rfl, rfl⟩ := taken.unique (skipBlanks_takes cs)
  obtain ⟨scan', knows', scanned⟩ := steady.run_trimStart knows cs'
  exact .inl ⟨_, scan', skipBlanks_takes cs', ⟨aligned, solid_trimStart cs, solid_trimStart cs',
    knows'⟩, scanned⟩

/-- A look at the text only tells both texts by what comes next. -/
theorem Follows.get {next next' : List Char → Reading β}
    (stop : Follows (Front known) (next []) (next' []) ends)
    (goOn : ∀ c cs cs', Follows (Front known) (next (c :: cs)) (next' (c :: cs')) ends) :
    Follows (Front known) (MonadState.get >>= next) (MonadState.get >>= next') ends := by
  intro cs cs' scan front result rest taken
  have looked : ∀ (after : List Char → Reading β) text, (MonadState.get >>= after).run text =
      (after text).run text := fun _ _ => rfl
  have same := front.head?_eq
  unfold Takes at *
  simp only [looked] at *
  cases cs with
  | nil =>
      cases cs' with
      | nil => exact stop [] [] scan front result rest taken
      | cons c' cs' => cases same
  | cons c cs =>
      cases cs' with
      | nil => cases same
      | cons c' cs' =>
          obtain rfl := Option.some.inj same
          exact goOn c cs cs' _ _ scan front result rest taken

/-- Both see the same character. -/
theorem peek_follows : Follows (Front known) peek peek (FrontAt known) := by
  intro cs cs' scan front result rest taken
  have same := front.head?_eq
  cases cs with
  | nil => cases congrArg Prod.fst taken
  | cons c cs =>
      obtain ⟨rfl, rfl⟩ := taken.unique (peek_takes c cs)
      cases cs' with
      | nil => cases same
      | cons c' cs' =>
          obtain rfl := Option.some.inj same
          exact .inl ⟨_, scan, peek_takes result cs', ⟨front, rfl⟩, rfl⟩

/-- Going over a mark in both texts. -/
theorem drop_follows (delimits : Delimits c) :
    Follows (FrontAt (Fresh opened) c) (modify (·.drop 1)) (modify (·.drop 1))
      fun _ => Before (Fresh (Scan.nest opened c)) := by
  rintro cs cs' scan ⟨front, next⟩ result rest taken
  have next' := front.head?_eq ▸ next
  obtain ⟨more, rfl⟩ := List.head?_eq_some_iff.mp next
  obtain ⟨more', rfl⟩ := List.head?_eq_some_iff.mp next'
  obtain ⟨rfl, rfl⟩ := taken.unique (drop_takes c more)
  obtain rfl := front.known
  exact .inl ⟨more', (Scan.fresh opened).step c, drop_takes c more',
    ⟨front.respaced.of_noQuote delimits.noQuote, Scan.step_fresh_delimiter delimits⟩, rfl⟩

/-! ## Tokens -/

/-- A token is at the front of both texts or of neither. -/
def Shared (token : List Char) : Prop :=
  ∀ cs cs', Respaced cs cs' → Solid cs' →
    (Text.dropStart? token cs = none ∧ Text.dropStart? token cs' = none) ∨
      ∃ rest rest', cs = token ++ rest ∧ cs' = token ++ rest' ∧ Aligned rest rest'

/-- A mark on its own is a token that both texts share. -/
theorem shared_single (c : Char) {token : List Char} (spelled : token = [c]) (noQuote : c ∉ quotes) :
    Shared token := by
  subst spelled
  intro cs cs' respaced solid
  have same := respaced.head?_eq solid
  by_cases next : cs.head? = some c
  · have next' := same ▸ next
    obtain ⟨more, rfl⟩ := List.head?_eq_some_iff.mp next
    obtain ⟨more', rfl⟩ := List.head?_eq_some_iff.mp next'
    exact .inr ⟨more, more', rfl, rfl, respaced.of_noQuote noQuote⟩
  · exact .inl ⟨Text.dropStart?_of_head?_ne next, Text.dropStart?_of_head?_ne (same ▸ next)⟩

/-- A token without marks, quotes and white space is one that both texts share. -/
theorem shared_of_others {token : List Char} (others : Unmarked token) : Shared token := by
  intro cs cs' respaced _
  refine (respaced.dropStart? token others).imp_right ?_
  rintro ⟨rest, rest', split, split', further⟩
  exact ⟨rest, rest', split, split', further.trimStart⟩

variable {token : String}

/-- A token is taken from both texts or from neither. -/
theorem eat_follows (left : Scan → Prop) (shared : Shared token.toList)
    (steps : ∀ scan, known scan → left (scan.run token.toList)) :
    Follows (Front known) (eat token) (eat token) fun taken =>
      cond taken (Before left) (Front known) := by
  intro cs cs' scan front result rest taken
  rcases shared cs cs' front.respaced front.solid' with
    ⟨absent, absent'⟩ | ⟨more, more', rfl, rfl, aligned⟩
  · have missed : ∀ text, Text.dropStart? token.toList text = none →
        Takes (eat token) text false text := by
      intro text absent
      rw [Takes, eat_run, absent]
    obtain ⟨rfl, rfl⟩ := taken.unique (missed cs absent)
    exact .inl ⟨cs', scan, missed cs' absent', front, rfl⟩
  · obtain ⟨rfl, rfl⟩ := taken.unique (eat_takes token more)
    exact .inl ⟨more', scan.run token.toList, eat_takes token more',
      ⟨aligned, steps scan front.known⟩, Scan.run_append ..⟩

/-- A token that may be missing leads from places to such places. -/
theorem eat_optional_follows (shared : Shared token.toList)
    (steps : ∀ scan, known scan → known (scan.run token.toList)) :
    Follows (Front known) (eat token) (eat token) fun _ => Before known := by
  refine (eat_follows known shared steps).weaken ?_
  rintro (_ | _) cs cs' scan place
  · exact Front.before place
  · exact place

/-- Both eat a token or both miss it, and go on alike. -/
theorem Follows.eat {yes yes' no no' : Reading β} (left : Scan → Prop)
    (shared : Shared token.toList)
    (steps : ∀ scan, known scan → left (scan.run token.toList))
    (taken : Follows (Before left) yes yes' ends) (missed : Follows (Front known) no no' ends) :
    Follows (Front known) (do if ← Reading.eat token then yes else no)
      (do if ← Reading.eat token then yes' else no') ends := by
  refine (eat_follows left shared steps).bind ?_
  rintro (_ | _)
  · exact missed
  · exact taken

/-- A delimiter behind a type or a name. -/
theorem Follows.eat_delimiter {yes yes' no no' : Reading β} (c : Char)
    (spelled : token.toList = [c]) (delimits : Delimits c)
    (noColon : c = ':' → opened.head? ≠ some '(')
    (taken : Follows (Before (Fresh (Scan.nest opened c))) yes yes' ends)
    (missed : Follows (Front (Scan.Between opened)) no no' ends) :
    Follows (Front (Scan.Between opened)) (do if ← Reading.eat token then yes else no)
      (do if ← Reading.eat token then yes' else no') ends := by
  refine .eat _ (shared_single c spelled delimits.noQuote) (fun scan between => ?_) taken missed
  rw [spelled]
  exact between.step_delimiter delimits noColon

/-- A mark where a type or a name may start. -/
theorem Follows.eat_mark {yes yes' no no' : Reading β} (c : Char)
    (spelled : token.toList = [c]) (delimits : Delimits c)
    (taken : Follows (Before (Fresh (Scan.nest opened c))) yes yes' ends)
    (missed : Follows (Front (Fresh opened)) no no' ends) :
    Follows (Front (Fresh opened)) (do if ← Reading.eat token then yes else no)
      (do if ← Reading.eat token then yes' else no') ends := by
  refine .eat _ (shared_single c spelled delimits.noQuote) ?_ taken missed
  rintro scan rfl
  rw [spelled]
  exact Scan.step_fresh_delimiter delimits

/-- Both expect the same delimiter, unless it is a colon in parentheses. -/
theorem expect_follows (c : Char) (spelled : token.toList = [c]) (delimits : Delimits c)
    (noColon : c = ':' → opened.head? ≠ some '(') :
    Follows (Before (Scan.Between opened)) (expect token) (expect token)
      fun _ => Before (Fresh (Scan.nest opened c)) :=
  (skipBlanks_follows (steady_between _)).bind fun _ =>
    .eat_delimiter c spelled delimits noColon (.pure fun _ _ _ => id) .failure

/-! ## Names, literals and receivers -/

/-- The word in front is read as a name. -/
theorem name_takes_splitName {cs word rest : List Char} (solid : Solid cs)
    (split : splitName true cs = (word, rest)) (some : word ≠ []) :
    Takes name cs (String.ofList word) rest := by
  rw [Takes, name_run, solid.trimStart, split, if_neg (by simpa using some)]

/-- A name that is read is the word in front. -/
theorem splitName_of_takes {cs rest : List Char} {text : String} (solid : Solid cs)
    (taken : Takes name cs text rest) :
    ∃ word, splitName true cs = (word, rest) ∧ word ≠ [] ∧ text = String.ofList word := by
  rcases split : splitName true cs with ⟨word, left⟩
  by_cases none : word = []
  · rw [Takes, name_run, solid.trimStart, split, none] at taken
    cases congrArg Prod.fst taken
  · obtain ⟨rfl, rfl⟩ := taken.unique (name_takes_splitName solid split none)
    exact ⟨word, rfl, none, rfl⟩

/-- Both read the same name. -/
theorem name_follows :
    Follows (Front (Fresh opened)) name name fun _ => Before (Scan.Between opened) := by
  rintro cs cs' scan front result rest taken
  obtain ⟨word, split, some, rfl⟩ := splitName_of_takes front.solid taken
  obtain ⟨again, left, left', one, other, further⟩ := front.respaced.splitName true
  obtain ⟨rfl, rfl⟩ := Prod.mk.inj (split.symm.trans one)
  obtain rfl := front.known
  exact .inl ⟨left', _, name_takes_splitName front.solid' other some,
    ⟨further.trimStart, rfl, rfl, rfl⟩, Scan.run_splitName [] other⟩

/-- Both read the same literal, which no white space has been put into. -/
theorem quoted_follows (isQuote : c ∈ quotes) :
    Follows (FrontAt (Fresh opened) c) (quoted c) (quoted c)
      fun _ => Before (Fresh opened) := by
  rintro cs cs' scan ⟨⟨respaced, -, -, rfl⟩, next⟩ result rest taken
  have reads : ∀ {text : List Char}, c ∉ text → ∀ rest,
      Takes (quoted c) (c :: (text ++ c :: rest)) (String.ofList text) rest := by
    intro text free rest
    have free : c ∉ (String.ofList text).toList := by rwa [String.toList_ofList]
    simpa using quoted_takes free rest
  cases respaced with
  | nil => cases next
  | mark isMark =>
      obtain rfl := Option.some.inj next
      exact absurd isQuote (notMem_quotes_of_mark isMark)
  | literal _ free further =>
      obtain rfl := Option.some.inj next
      obtain ⟨rfl, rfl⟩ := taken.unique (reads free _)
      exact .inl ⟨_, _, reads free _, ⟨further.trimStart, rfl⟩, Scan.run_literal isQuote free _⟩
  | @unended quote text _ free =>
      obtain rfl := Option.some.inj next
      have unclosed : text.dropWhile (· ≠ quote) = [] := by
        have others : ∀ d ∈ text, decide (d ≠ quote) = true := fun d mem =>
          decide_eq_true fun same => free (same ▸ mem)
        have whole : (text ++ []).dropWhile (· ≠ quote) = [] :=
          List.dropWhile_append_of_pos others
        rwa [List.append_nil] at whole
      rw [Takes, quoted_run, unclosed] at taken
      cases congrArg Prod.fst taken
  | other _ noQuote =>
      obtain rfl := Option.some.inj next
      exact absurd isQuote noQuote

/-- Both find type arguments, or neither does. -/
theorem argumentsMark_follows :
    Follows (Before (Scan.Between opened)) argumentsMark argumentsMark fun found =>
      cond found (Before (Fresh ('<' :: opened))) (Before (Scan.Between opened)) := by
  have bracket : ∀ scan, Scan.Between opened scan → scan.step '<' = Scan.fresh ('<' :: opened) :=
    fun scan between => between.step_delimiter (by decide) (by simp)
  refine (skipBlanks_follows (steady_between _)).bind fun _ => ?_
  refine Follows.eat (Fresh ('<' :: opened)) (shared_of_others (by decide))
    (fun scan between => bracket _ between.step_period) (.pure fun _ _ _ => id) ?_
  refine (eat_follows (Fresh ('<' :: opened)) (shared_single '<' rfl (by decide))
    bracket).weaken ?_
  rintro (_ | _) cs cs' scan place
  · exact Front.before place
  · exact place

/-- A name without a colon right behind it, or another name than `this` and `new`, marks no
receiver. -/
theorem receiverMark_misses {cs word rest : List Char} (solid : Solid cs)
    (split : splitName true cs = (word, rest))
    (noMark : ¬ (isReceiverWord word = true ∧ rest.head? = some ':')) :
    Takes receiverMark cs false cs := by
  rw [Takes, receiverMark_run]
  by_cases none : word = []
  · rw [name_run, solid.trimStart, split, none]
    rfl
  · have named : name.run cs = (some (String.ofList word), rest) :=
      name_takes_splitName solid split none
    rw [named]
    dsimp only
    split
    next after colon =>
      rw [if_neg]
      intro isWord
      refine noMark ⟨isWord, ?_⟩
      cases rest with
      | nil => cases colon
      | cons c rest =>
          by_contra other
          rw [Text.dropStart?, if_neg fun same => other (congrArg some same.symm)] at colon
          cases colon
    next => rfl

/-- The word of a receiver directly before a colon is read as its mark. -/
theorem receiverMark_takes {cs word rest : List Char} (solid : Solid cs)
    (split : splitName true cs = (word, ':' :: rest)) (isWord : isReceiverWord word = true) :
    Takes receiverMark cs true rest := by
  have nonempty : word ≠ [] := by
    rintro rfl
    exact absurd isWord (by decide)
  have named : name.run cs = (some (String.ofList word), ':' :: rest) :=
    name_takes_splitName solid split nonempty
  rw [Takes, receiverMark_run, named]
  exact if_pos isWord

/-- The mark of a receiver is read from both texts, or from neither, or from the first one only. Then
the second one has white space between the word and the colon, and what is read in place of a mark is
read from there. -/
theorem Follows.receiver {yes yes' no no' : Reading β}
    (taken : Follows (Before (Fresh ('(' :: opened))) yes yes' ends)
    (missed : Follows (Front (Fresh ('(' :: opened))) no no' ends)
    (stuck : ∀ word blanks rest, isReceiverWord word = true → blanks ≠ [] →
      (∀ b ∈ blanks, Text.isBlank b = true) →
        ∀ result rest', ¬ Takes no' (word ++ (blanks ++ ':' :: rest)) result rest') :
    Follows (Front (Fresh ('(' :: opened))) (do if ← receiverMark then yes else no)
      (do if ← receiverMark then yes' else no') ends := by
  intro cs cs' scan front result rest whole
  obtain ⟨marked, place, looked, further⟩ := whole.of_bind
  obtain ⟨word, left, left', split, split', respaced⟩ := front.respaced.splitName true
  have scanned : scan.run cs' = (Scan.mk ('(' :: opened) none word false false).run left' := by
    rw [front.known]
    exact Scan.run_splitName [] split'
  by_cases mark : isReceiverWord word = true ∧ left.head? = some ':'
  · obtain ⟨isWord, colon⟩ := mark
    obtain ⟨after, rfl⟩ := List.head?_eq_some_iff.mp colon
    obtain ⟨rfl, rfl⟩ := (receiverMark_takes front.solid split isWord).unique looked
    obtain ⟨before, after', blank, rfl, aligned⟩ := respaced.of_mark (by decide)
    cases before with
    | nil =>
        rw [List.nil_append, Scan.run_cons, Scan.step_tight_colon] at scanned
        exact .bind (receiverMark_takes front.solid' split' isWord) scanned
          (taken after _ _ ⟨aligned, rfl⟩ result rest further)
    | cons b before =>
        refine .inr ⟨fun result' rest' both => ?_, ?_⟩
        · obtain ⟨marked, place, looked', further'⟩ := both.of_bind
          have noColon : b ≠ ':' := by
            rintro rfl
            exact absurd (blank ':' List.mem_cons_self) (by decide)
          obtain ⟨rfl, rfl⟩ := (receiverMark_misses front.solid' split' (by simp [noColon])).unique
            looked'
          rw [append_of_splitName split'] at further'
          exact stuck word (b :: before) after' isWord (by simp) blank result' rest' further'
        · rw [scanned]
          exact Scan.run_loose_receiver isWord (by simp) blank after'
  · have mark' : ¬ (isReceiverWord word = true ∧ left'.head? = some ':') := by
      rintro ⟨isWord, colon⟩
      refine mark ⟨isWord, (respaced.head?_eq fun c mem => ?_).trans colon⟩
      obtain rfl := Option.some.inj (colon.symm.trans mem)
      decide
    obtain ⟨rfl, rfl⟩ := (receiverMark_misses front.solid split mark).unique looked
    exact .bind (receiverMark_misses front.solid' split' mark') rfl
      (missed cs cs' scan front result rest further)

end Rules

end Reading

end ClassFactory
