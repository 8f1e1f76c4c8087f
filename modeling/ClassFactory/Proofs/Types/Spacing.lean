/-
Module: ClassFactory.Proofs.Types.Spacing
Purpose: White space around punctuation makes no difference to a type expression, but for one place:
  the colon of a receiver has to follow its word at once. Each part of the grammar is read alike from
  texts that differ in such white space, by induction on the nesting of calls.
Main exports: Alike, Alike.succ, alike_of_le, unionType_leaves, readType_respaced_iff
-/
import ClassFactory.Proofs.Types.Tandem

namespace ClassFactory

namespace Reading

/-! ## A loose receiver -/

section Loose

variable {budget : Nat} {word blanks rest after : List Char} {type : Ty}

/-- The word of a receiver is a name without a period, and not the keyword of function types. -/
theorem isName_of_isReceiverWord (isWord : isReceiverWord word = true) :
    ∃ text : String, word = text.toList ∧ isNameText text = true ∧ text ≠ "function" ∧
      '.' ∉ text.toList := by
  refine ⟨String.ofList word, String.toList_ofList.symm, ?_⟩
  have isWord : String.ofList word = "this" ∨ String.ofList word = "new" := by
    simpa [isReceiverWord] using isWord
  rcases isWord with same | same
  · rw [same]
    decide
  · rw [same]
    decide

variable (isWord : isReceiverWord word = true) (blank : ∀ b ∈ blanks, Text.isBlank b = true)

include blank in
/-- A colon is not the start of type arguments, whatever white space stands in front of it. -/
theorem argumentsMark_misses_colon (rest : List Char) :
    Takes argumentsMark (blanks ++ ':' :: rest) false (':' :: rest) := by
  have skipped : Text.trimStart (blanks ++ ':' :: rest) = ':' :: rest := by
    rw [Text.trimStart_append blank, Text.trimStart_cons_of_not_blank _ (by decide)]
  refine .blanks skipped (.missed (t := '.') rfl (by simp) ?_)
  exact eat_misses (t := '<') rfl (by simp)

include blank in
/-- A word without a period ends in front of a colon, whatever white space stands between them. -/
theorem endsName_colon {text : List Char} (noPeriod : '.' ∉ text) (rest : List Char) :
    EndsName text (blanks ++ ':' :: rest) where
  other := by
    cases blanks with
    | nil =>
        rintro c ⟨⟩
        decide
    | cons b blanks =>
        rintro c ⟨⟩
        by_contra ofName
        have noBlank := isBlank_of_isNameCharacter (Bool.of_not_eq_false ofName)
        rw [blank b List.mem_cons_self] at noBlank
        cases noBlank
  period := .inl noPeriod

include isWord blank

/-- Where a receiver is loose its word is read as a type, if anything is. -/
theorem prefixedType_leaves
    (taken : Takes (prefixedType budget) (word ++ (blanks ++ ':' :: rest)) type after) :
    after = ':' :: rest := by
  obtain ⟨text, rfl, isName, ordinary, noPeriod⟩ := isName_of_isReceiverWord isWord
  have solid := trimStart_name isName (blanks ++ ':' :: rest)
  rcases budget with _ | _ | budget
  · rw [prefixedType] at taken
    exact absurd taken Takes.not_failure
  -- One call comes to the name and has none left to read it.
  · obtain ⟨c, more, spelled, first⟩ := opensType_of_isNameText isName
    have other : ∀ mark, isNameCharacter true mark = false →
        (text.toList ++ (blanks ++ ':' :: rest)).head? ≠ some mark := by
      rintro mark noName
      rw [spelled]
      rintro ⟨⟩
      rw [noName] at first
      cases first
    rw [prefixedType] at taken
    have taken := taken.of_blanks
    rw [solid] at taken
    have taken := (taken.of_missed (t := '!') rfl (other '!' (by decide))).of_missed (t := '?') rfl
      (other '?' (by decide))
    rw [primaryType] at taken
    exact absurd taken Takes.not_failure
  · have asName : Takes (prefixedType (budget + 2)) (text.toList ++ (blanks ++ ':' :: rest))
        (namedType text []) (':' :: rest) :=
      prefixedType_name isName solid (primaryType_ordinary isName (endsName_colon blank noPeriod rest)
        ordinary ((argumentsMark_misses_colon blank rest).bind (.pure _ _)))
    exact (taken.unique asName).2

/-- An expression that starts with the word of a loose receiver is read up to the colon only. -/
theorem unionType_leaves
    (taken : Takes (unionType budget) (word ++ (blanks ++ ':' :: rest)) type after) :
    after = ':' :: rest := by
  rcases budget with _ | budget
  · rw [unionType] at taken
    exact absurd taken Takes.not_failure
  · rw [unionType] at taken
    obtain ⟨first, place, read, taken⟩ := taken.of_bind
    obtain rfl := prefixedType_leaves isWord blank read
    rcases budget with _ | budget
    · rw [alternatives] at taken
      exact absurd taken Takes.not_failure
    · rw [alternatives] at taken
      have taken := (taken.of_blanks).of_missed (t := '|') rfl (by
        rw [Text.trimStart_cons_of_not_blank _ (by decide)]
        simp)
      rw [Text.trimStart_cons_of_not_blank _ (by decide)] at taken
      exact (taken.unique (.pure _ _)).2

/-- No parameter starts there: a type is not followed by a colon. -/
theorem param_stuck {params : List Param} {result : Ty} : ¬ Takes (do
      let dots ← eat "..."
      let type ← unionType budget
      skipBlanks
      let optional ← eat "="
      let params := params ++ [Param.mk ("p" ++ toString params.length) type optional dots]
      skipBlanks
      if ← eat "," then functionParams budget params
      else
        expect ")"
        functionResult budget params) (word ++ (blanks ++ ':' :: rest)) result after := by
  intro taken
  have solid : Text.trimStart (':' :: rest) = ':' :: rest :=
    Text.trimStart_cons_of_not_blank _ (by decide)
  obtain ⟨dots, place, looked, taken⟩ := taken.of_bind
  have noDots : (word ++ (blanks ++ ':' :: rest)).head? ≠ some '.' := by
    obtain ⟨text, rfl, isName, -, -⟩ := isName_of_isReceiverWord isWord
    obtain ⟨c, more, spelled, first⟩ := opensType_of_isNameText isName
    rw [spelled]
    rintro ⟨⟩
    exact absurd first (by decide)
  obtain ⟨rfl, rfl⟩ := (eat_misses (t := '.') rfl noDots).unique looked
  obtain ⟨type, place, read, taken⟩ := taken.of_bind
  obtain rfl := unionType_leaves isWord blank read
  have taken := taken.of_blanks
  rw [solid] at taken
  obtain ⟨optional, place, looked, taken⟩ := taken.of_bind
  have missesMark : Takes (eat "=") (':' :: rest) false (':' :: rest) :=
    eat_misses (t := '=') rfl (by simp)
  obtain ⟨rfl, rfl⟩ := missesMark.unique looked
  have taken := taken.of_blanks
  rw [solid] at taken
  obtain ⟨_, place, expected, -⟩ := (taken.of_missed (t := ',') rfl (by simp)).of_bind
  have expected := expected.of_blanks
  rw [solid] at expected
  exact absurd (expected.of_missed (t := ')') rfl (by simp)) Takes.not_failure

end Loose

/-! ## The parts of the grammar -/

/-- Every part of the grammar is read alike with a smaller budget and with a larger one. -/
structure Alike (small large : Nat) : Prop where
  unionType : ∀ opened, Follows (Before (Fresh opened)) (unionType small) (unionType large)
    fun _ => Before (Scan.Between opened)
  alternatives : ∀ opened members, Follows (Before (Scan.Between opened))
    (alternatives small members) (alternatives large members)
    fun _ => Before (Scan.Between opened)
  prefixedType : ∀ opened, Follows (Before (Fresh opened)) (prefixedType small)
    (prefixedType large) fun _ => Before (Scan.Between opened)
  primaryType : ∀ opened, Follows (Before (Fresh opened)) (primaryType small) (primaryType large)
    fun _ => Before (Scan.Between opened)
  recordFields : ∀ opened fields, Follows (Before (Fresh ('\x7b' :: opened)))
    (recordFields small fields) (recordFields large fields) fun _ => Before (Scan.Between opened)
  functionParams : ∀ opened params, Follows (Before (Fresh ('(' :: opened)))
    (functionParams small params) (functionParams large params)
    fun _ => Before (Scan.Between opened)
  functionResult : ∀ opened params, Follows (Before (Fresh opened))
    (functionResult small params) (functionResult large params)
    fun _ => Before (Scan.Between opened)
  typeArguments : ∀ opened args, Follows (Before (Fresh ('<' :: opened)))
    (typeArguments small args) (typeArguments large args) fun _ => Before (Scan.Between opened)

section Grammar

variable {small large : Nat} {opened : List Char}

/-- Knowing that no word stands in front says what brackets are open. -/
theorem Before.between {cs cs' : List Char} {scan : Scan}
    (place : Before (Fresh opened) cs cs' scan) : Before (Scan.Between opened) cs cs' scan := by
  obtain ⟨aligned, rfl⟩ := place
  exact ⟨aligned, .fresh opened⟩

/-- The mark of what may be left out. -/
theorem optional_follows : Follows (Front (Scan.Between opened)) (eat "=") (eat "=")
    fun _ => Before (Scan.Between opened) := by
  refine eat_optional_follows (shared_single '=' rfl (by decide)) fun scan between => ?_
  have stepped : scan.step '=' = Scan.fresh opened := between.step_delimiter (by decide) (by simp)
  change Scan.Between opened (scan.step '=')
  rw [stepped]
  exact .fresh opened

/-- Periods behind an open bracket leave no trace. -/
theorem run_dots : (Scan.fresh opened).run ['.', '.', '.'] = Scan.fresh opened := by
  have period : (Scan.fresh opened).step '.' = Scan.fresh opened :=
    Scan.step_fresh (by decide) (by decide) (by decide)
  rw [Scan.run_cons, period, Scan.run_cons, period, Scan.run_cons, period]
  rfl

/-- The mark of a parameter that stands for several arguments. -/
theorem dots_follows : Follows (Front (Fresh opened)) (eat "...") (eat "...")
    fun _ => Before (Fresh opened) := by
  refine eat_optional_follows (shared_of_others (by decide)) ?_
  rintro scan rfl
  exact run_dots

/-- One more item after a comma, or the end of a list. -/
theorem separator_follows {more more' done done' : Reading Ty} {ends : Ty → Place}
    (token : String) (close : Char) (spelled : token.toList = [close]) (delimits : Delimits close)
    (noColon : close ≠ ':') (goOn : Follows (Before (Fresh opened)) more more' ends)
    (stop : Follows (Before (Fresh (Scan.nest opened close))) done done' ends) :
    Follows (Before (Scan.Between opened))
      (do
        skipBlanks
        if ← eat "," then more
        else
          expect token
          done)
      (do
        skipBlanks
        if ← eat "," then more'
        else
          expect token
          done') ends := by
  refine (skipBlanks_follows (steady_between _)).bind fun _ => ?_
  refine .eat_delimiter ',' rfl (by decide) (by simp) goOn ?_
  exact ((expect_follows close spelled delimits fun colon => absurd colon noColon).mono
    fun _ _ _ => Front.before).bind fun _ => stop

/-- Without a budget nothing is read. -/
theorem alike_zero (large : Nat) : Alike 0 large where
  unionType := fun _ => by rw [Reading.unionType]; exact .failure
  alternatives := fun _ _ => by rw [Reading.alternatives]; exact .failure
  prefixedType := fun _ => by rw [Reading.prefixedType]; exact .failure
  primaryType := fun _ => by rw [Reading.primaryType]; exact .failure
  recordFields := fun _ _ => by rw [Reading.recordFields]; exact .failure
  functionParams := fun _ _ => by rw [Reading.functionParams]; exact .failure
  functionResult := fun _ _ => by rw [Reading.functionResult]; exact .failure
  typeArguments := fun _ _ => by rw [Reading.typeArguments]; exact .failure

variable (alike : Alike small large)

include alike

theorem unionType_follows : Follows (Before (Fresh opened)) (unionType (small + 1))
    (unionType (large + 1)) fun _ => Before (Scan.Between opened) := by
  rw [unionType, unionType]
  exact (alike.prefixedType opened).bind fun first => alike.alternatives opened [first]

theorem alternatives_follows (members : List Ty) : Follows (Before (Scan.Between opened))
    (alternatives (small + 1) members) (alternatives (large + 1) members)
    fun _ => Before (Scan.Between opened) := by
  rw [alternatives, alternatives]
  refine (skipBlanks_follows (steady_between _)).bind fun _ => ?_
  refine .eat_delimiter '|' rfl (by decide) (by simp) ?_ (.pure fun _ _ _ => Front.before)
  exact (alike.prefixedType opened).bind fun next => alike.alternatives opened (members ++ [next])

theorem prefixedType_follows : Follows (Before (Fresh opened)) (prefixedType (small + 1))
    (prefixedType (large + 1)) fun _ => Before (Scan.Between opened) := by
  rw [prefixedType, prefixedType]
  refine (skipBlanks_follows (steady_fresh _)).bind fun _ => ?_
  refine .eat_mark '!' rfl (by decide) (alike.primaryType opened) ?_
  refine .eat_mark '?' rfl (by decide) ?_
    ((alike.primaryType opened).mono fun _ _ _ => Front.before)
  refine (skipBlanks_follows (steady_fresh _)).bind fun _ => ?_
  refine .get (.pure fun _ _ _ front => front.before.between) fun c cs cs' => ?_
  refine .ite (fun _ => .pure fun _ _ _ front => front.before.between) fun _ => ?_
  exact ((alike.primaryType opened).mono fun _ _ _ => Front.before).bind fun _ =>
    .pure fun _ _ _ => id

theorem primaryType_follows : Follows (Before (Fresh opened)) (primaryType (small + 1))
    (primaryType (large + 1)) fun _ => Before (Scan.Between opened) := by
  rw [primaryType, primaryType]
  refine (skipBlanks_follows (steady_fresh _)).bind fun _ => peek_follows.bind fun c => ?_
  refine .ite ?parenthesized fun _ => .ite ?record fun _ => .ite ?any fun _ =>
    .ite ?literal fun _ => ?named
  case parenthesized =>
    rintro rfl
    refine (drop_follows (by decide)).bind fun _ => ?_
    refine (alike.unionType ('(' :: opened)).bind fun type => ?_
    exact (expect_follows ')' rfl (by decide) (by simp)).bind fun _ =>
      .pure fun _ _ _ => Before.between
  case record =>
    rintro rfl
    exact (drop_follows (by decide)).bind fun _ => alike.recordFields opened []
  case any =>
    rintro rfl
    exact (drop_follows (by decide)).bind fun _ => .pure fun _ _ _ => Before.between
  case literal =>
    intro isQuote
    have isQuote : c ∈ quotes := by simpa [quotes] using isQuote
    exact (quoted_follows isQuote).bind fun _ => .pure fun _ _ _ => Before.between
  case named =>
    refine (name_follows.mono fun _ _ _ => FrontAt.toFront).bind fun word => ?_
    refine .ite (fun _ => ?_) fun _ => argumentsMark_follows.bind ?_
    · exact (expect_follows '(' rfl (by decide) (by simp)).bind fun _ =>
        alike.functionParams opened []
    · rintro (_ | _)
      · exact .pure fun _ _ _ => id
      · exact (alike.typeArguments opened []).bind fun args => .pure fun _ _ _ => id

theorem recordFields_follows (fields : List Field) : Follows (Before (Fresh ('\x7b' :: opened)))
    (recordFields (small + 1) fields) (recordFields (large + 1) fields)
    fun _ => Before (Scan.Between opened) := by
  rw [recordFields, recordFields]
  refine (skipBlanks_follows (steady_fresh _)).bind fun _ => ?_
  refine .eat_mark '\x7d' rfl (by decide) (.pure fun _ _ _ => Before.between) ?_
  refine name_follows.bind fun key => (skipBlanks_follows (steady_between _)).bind fun _ => ?_
  have done := fun field : Field => (Follows.pure fun _ _ _ => Before.between :
    Follows (Before (Fresh opened)) (pure (Ty.record (Fields.insert field fields)))
      (pure (Ty.record (Fields.insert field fields))) fun _ => Before (Scan.Between opened))
  have further := fun field : Field => separator_follows "\x7d" '\x7d' rfl (by decide) (by decide)
    (alike.recordFields opened (Fields.insert field fields)) (done field)
  refine .eat_delimiter ':' rfl (by decide) (by simp) ?_
    ((further (Field.mk key .unknown true)).mono fun _ _ _ => Front.before)
  refine (alike.unionType _).bind fun type => (skipBlanks_follows (steady_between _)).bind fun _ => ?_
  exact optional_follows.bind fun marked => further _

theorem functionParams_follows (params : List Param) : Follows (Before (Fresh ('(' :: opened)))
    (functionParams (small + 1) params) (functionParams (large + 1) params)
    fun _ => Before (Scan.Between opened) := by
  rw [functionParams, functionParams]
  refine (skipBlanks_follows (steady_fresh _)).bind fun _ => ?_
  refine .eat_mark ')' rfl (by decide) (alike.functionResult opened params) ?_
  have further := fun params : List Param => separator_follows ")" ')' rfl (by decide) (by decide)
    (alike.functionParams opened params) (alike.functionResult opened params)
  -- Only here the second text may part from the first: its receiver is loose, and no parameter
  -- starts with a word and a colon.
  refine .receiver ((alike.unionType _).bind fun _ => further params) ?_
    fun word blanks rest isWord _ blank _ _ => param_stuck isWord blank
  refine dots_follows.bind fun dots => (alike.unionType _).bind fun type => ?_
  exact (skipBlanks_follows (steady_between _)).bind fun _ => optional_follows.bind fun optional =>
    further _

theorem functionResult_follows (params : List Param) : Follows (Before (Fresh opened))
    (functionResult (small + 1) params) (functionResult (large + 1) params)
    fun _ => Before (Scan.Between opened) := by
  rw [functionResult, functionResult]
  refine (skipBlanks_follows (steady_fresh _)).bind fun _ => ?_
  refine .eat_mark ':' rfl (by decide) ?_ (.pure fun _ _ _ front => front.before.between)
  exact (alike.prefixedType opened).bind fun returns => .pure fun _ _ _ => id

theorem typeArguments_follows (args : List Ty) : Follows (Before (Fresh ('<' :: opened)))
    (typeArguments (small + 1) args) (typeArguments (large + 1) args)
    fun _ => Before (Scan.Between opened) := by
  rw [typeArguments, typeArguments]
  refine (alike.unionType ('<' :: opened)).bind fun type => ?_
  refine (skipBlanks_follows (steady_between _)).bind fun _ => ?_
  refine .eat_delimiter '>' rfl (by decide) (by simp) (.pure fun _ _ _ => Before.between) ?_
  refine ((expect_follows ',' rfl (by decide) (by simp)).mono fun _ _ _ => Front.before).bind
    fun _ => alike.typeArguments opened (args ++ [type])

/-- One level more: each part of the grammar calls the others with one call less, so that they are
alike. -/
theorem Alike.succ : Alike (small + 1) (large + 1) where
  unionType := fun _ => unionType_follows alike
  alternatives := fun _ => alternatives_follows alike
  prefixedType := fun _ => prefixedType_follows alike
  primaryType := fun _ => primaryType_follows alike
  recordFields := fun _ => recordFields_follows alike
  functionParams := fun _ => functionParams_follows alike
  functionResult := fun _ => functionResult_follows alike
  typeArguments := fun _ => typeArguments_follows alike

omit alike in
/-- A budget that is not smaller reads a text as respaced. -/
theorem alike_of_le (le : small ≤ large) : Alike small large := by
  induction small generalizing large with
  | zero => exact alike_zero large
  | succ small ih =>
      obtain ⟨large, rfl⟩ := Nat.exists_eq_add_of_le' (Nat.one_le_of_lt le)
      exact (ih (by omega)).succ

end Grammar

/-! ## Whole texts -/

/-- The part of a text that is read as a type: what follows the mark of several arguments, if there
is one. -/
def expression (cs : List Char) : List Char :=
  (Text.dropStart? ['.', '.', '.'] (Text.trimStart cs)).getD (Text.trimStart cs)

/-- Nothing is left of a text but a mark of what may be left out. -/
def Concludes (rest : List Char) : Prop :=
  Text.trimStart rest = [] ∨
    ∃ after, Text.trimStart rest = '=' :: after ∧ Text.trimStart after = []

section Whole

variable {text : String} {cs cs' rest rest' : List Char} {type : Ty} {scan : Scan}

/-- A text denotes what its expression is read as, if nothing is left of it. -/
theorem readType_of_run {found : Option Ty}
    (run : (unionType (budgetFor (expression text.toList))).run (expression text.toList) =
      (found, rest)) :
    (Concludes rest → readType text = found.getD .unknown) ∧
      (¬ Concludes rest → readType text = .unknown) := by
  obtain ⟨left, nothing, looked⟩ : ∃ left : List Char, (left = [] ↔ Concludes rest) ∧
      readType text = if left.isEmpty then found.getD .unknown else .unknown := by
    unfold expression at run
    rw [readType, readDeclaredType]
    cases dots : Text.dropStart? ['.', '.', '.'] (Text.trimStart text.toList) with
    | none =>
        rw [dots, Option.getD_none] at run
        simp only [run]
        refine ⟨_, ?_, rfl⟩
        split <;> simp_all [Concludes]
    | some after =>
        rw [dots, Option.getD_some] at run
        simp only [run]
        refine ⟨_, ?_, rfl⟩
        split <;> simp_all [Concludes]
  rw [looked]
  constructor
  · intro concludes
    rw [nothing.mpr concludes, List.isEmpty_nil, if_pos rfl]
  · intro goesOn
    rw [if_neg]
    rw [List.isEmpty_iff]
    exact mt nothing.mp goesOn

/-- A text is read as the type that is taken if the expression ends behind it. -/
theorem readType_of_takes
    (taken : Takes (unionType (budgetFor (expression text.toList))) (expression text.toList) type
      rest) (concludes : Concludes rest) : readType text = type :=
  (readType_of_run taken).1 concludes

/-- A text of which no type is taken is read as the unconstrained type. -/
theorem readType_of_fails (fails : ∀ type rest,
    ¬ Takes (unionType (budgetFor (expression text.toList))) (expression text.toList) type rest) :
    readType text = .unknown := by
  rcases run : (unionType (budgetFor (expression text.toList))).run (expression text.toList) with
    ⟨_ | type, rest⟩
  · by_cases concludes : Concludes rest
    · exact (readType_of_run run).1 concludes
    · exact (readType_of_run run).2 concludes
  · exact absurd run (fails type rest)

/-- If a text is read as a known type, then that type is taken of it and the expression ends
there. -/
theorem exists_takes_of_known (known : readType text ≠ .unknown) :
    ∃ rest, Takes (unionType (budgetFor (expression text.toList))) (expression text.toList)
      (readType text) rest ∧ Concludes rest := by
  rcases run : (unionType (budgetFor (expression text.toList))).run (expression text.toList) with
    ⟨_ | type, rest⟩
  · refine absurd (readType_of_fails fun type rest' taken => ?_) known
    cases congrArg Prod.fst ((Eq.symm run).trans taken)
  · have concludes : Concludes rest := by
      by_contra goesOn
      exact known ((readType_of_run run).2 goesOn)
    rw [readType_of_takes run concludes]
    exact ⟨rest, run, concludes⟩

/-- The expression of the respaced text is that of the text, respaced, and the scan comes to it as it
was. -/
theorem expression_respaced (respaced : Respaced cs cs') :
    Respaced (expression cs) (expression cs') ∧
      (Scan.fresh []).run cs' = (Scan.fresh []).run (expression cs') := by
  obtain ⟨scan, rfl, scanned⟩ := (steady_fresh []).run_trimStart rfl cs'
  have aligned : Respaced (Text.trimStart cs) (Text.trimStart cs') := respaced.trimStart
  rw [scanned]
  rcases aligned.dropStart? ['.', '.', '.'] (by decide) with
    ⟨absent, absent'⟩ | ⟨rest, rest', split, split', further⟩
  · unfold expression
    rw [absent, absent']
    exact ⟨aligned, rfl⟩
  · unfold expression
    rw [split, split', Text.dropStart?_append, Text.dropStart?_append, Scan.run_append,
      run_dots]
    exact ⟨further, rfl⟩

/-- What concludes a text does so when it is respaced, and has no loose receiver. -/
theorem Concludes.respaced (concludes : Concludes rest)
    (place : Before (Scan.Between []) rest rest' scan) :
    Concludes rest' ∧ (scan.run rest').loose = false := by
  obtain ⟨aligned, between⟩ := place
  obtain ⟨after, between', scanned⟩ := (steady_between []).run_trimStart between rest'
  unfold Aligned at aligned
  rcases concludes with none | ⟨more, mark, none⟩
  · rw [none] at aligned
    have none' : Text.trimStart rest' = [] := aligned.eq_nil
    rw [scanned, none']
    exact ⟨.inl none', between'.loose⟩
  · rw [mark] at aligned
    obtain ⟨more', mark', further⟩ := aligned.of_other (by decide) (by decide)
    have none' : Text.trimStart more' = [] := by
      have behind : Respaced (Text.trimStart more) (Text.trimStart more') := further.trimStart
      rw [none] at behind
      exact behind.eq_nil
    have stepped : after.step '=' = Scan.fresh [] := between'.step_delimiter (by decide) (by simp)
    obtain ⟨last, rfl, scannedMore⟩ := (steady_fresh []).run_trimStart rfl more'
    refine ⟨.inr ⟨more', mark', none'⟩, ?_⟩
    rw [scanned, mark', Scan.run_cons, stepped, scannedMore, none']
    rfl

end Whole

section Receiver

variable {type : Ty} (reads : Reads type)

include reads

/-- A function whose only parameter is a receiver is read as one without parameters. -/
theorem functionParams_takes_receiver {budget : Nat}
    (enough : 5 * type.text.toList.length + 2 ≤ budget + 1) :
    Takes (functionParams (budget + 2) []) ("this".toList ++ ':' :: (type.text.toList ++ [')']))
      (.function [] .unknown) [] := by
  have isThis : isNameText "this" = true := by decide
  have marked : Takes receiverMark ("this".toList ++ ':' :: (type.text.toList ++ [')'])) true
      (type.text.toList ++ [')']) := by
    refine receiverMark_takes (by rintro c ⟨⟩; decide) (splitName_word isThis ?_) (by decide)
    exact ⟨by rintro c ⟨⟩; decide, .inl (by decide)⟩
  have solid := trimStart_name isThis (':' :: (type.text.toList ++ [')']))
  have close : Text.trimStart [')'] = [')'] := by decide
  rw [functionParams]
  refine .blanks solid (.missed (t := ')') rfl (by simp) (marked.bind ?_))
  rw [if_pos rfl]
  refine (unionType_takes reads enough (.cons (by decide) []) (by simp) (reads.trimStart _)).bind ?_
  refine .blanks close (.missed (t := ',') rfl (by simp) ((expect_takes close).bind ?_))
  rw [functionResult]
  exact .blanks Text.trimStart_nil (.missed (t := ':') rfl (by simp) (.pure _ _))

/-- A receiver of any type is read and dropped if its colon follows the word at once. -/
theorem readType_receiver {text : String} (spelled : text.toList = "function".toList ++
      '(' :: ("this".toList ++ ':' :: (type.text.toList ++ [')']))) :
    readType text = .function [] .unknown := by
  have bare : expression text.toList = text.toList := by
    rw [spelled]
    rfl
  obtain ⟨budget, size, enough⟩ : ∃ budget, budgetFor text.toList = budget + 5 ∧
      5 * type.text.toList.length + 2 ≤ budget + 1 := by
    refine ⟨5 * text.toList.length + 5, rfl, ?_⟩
    rw [spelled, List.length_append, List.length_cons, List.length_append, List.length_cons,
      List.length_append]
    omega
  have ends : EndsName "function".toList
      ('(' :: ("this".toList ++ ':' :: (type.text.toList ++ [')']))) :=
    ⟨by rintro c ⟨⟩; decide, .inl (by decide)⟩
  have whole : Takes (prefixedType (budget + 4)) text.toList (.function [] .unknown) [] := by
    rw [spelled]
    refine prefixedType_name (by decide) (trimStart_name (by decide) _)
      (primaryType_name (by decide) ends ?_)
    rw [if_pos rfl]
    exact (expect_takes (Text.trimStart_cons_of_not_blank _ (by decide))).bind
      (functionParams_takes_receiver reads enough)
  refine readType_of_takes ?_ (.inl Text.trimStart_nil)
  rw [bare, size, unionType]
  refine whole.bind ?_
  rw [alternatives]
  exact .blanks Text.trimStart_nil (.missed (t := '|') rfl (by simp) (.pure _ _))

end Receiver

end Reading

open Reading in
/-- A text that denotes a type denotes the same one with white space around its punctuation just if no
colon of a receiver stands apart from its word there. With such a colon it denotes the unconstrained
type. -/
theorem readType_respaced_iff {one other : String} (known : readType one ≠ .unknown)
    (respaced : Respaced one.toList other.toList) :
    (readType other = readType one ↔ hasLooseReceiver other = false) ∧
      (hasLooseReceiver other = true → readType other = .unknown) := by
  obtain ⟨rest, taken, concludes⟩ := exists_takes_of_known known
  obtain ⟨expressions, scanned⟩ := expression_respaced respaced
  have budgets : budgetFor (expression one.toList) ≤ budgetFor (expression other.toList) := by
    have longer := expressions.length_le
    unfold budgetFor
    omega
  have follows := (alike_of_le budgets).unionType [] _ _ _ ⟨expressions.trimStart, rfl⟩ _ _ taken
  unfold hasLooseReceiver
  rw [scanned]
  rcases follows with ⟨rest', scan, taken', place, reached⟩ | ⟨fails, loose⟩
  · obtain ⟨concludes', tight⟩ := concludes.respaced place
    have same := readType_of_takes taken' concludes'
    rw [reached, tight, same]
    simp
  · have unread := readType_of_fails fails
    rw [loose, unread]
    simp [known.symm]

/-- White space that makes no difference, and white space that makes the type unreadable. -/
theorem readType_respaced_iff_receiver :
    readType "function(this:Foo)" ≠ .unknown ∧
      readType "function ( this: Foo )" = readType "function(this:Foo)" ∧
      readType "function(this :Foo)" ≠ readType "function(this:Foo)" := by
  have reads : Reading.Reads (.named "Foo") := .named (by decide)
  have read : readType "function(this:Foo)" = .function [] .unknown :=
    Reading.readType_receiver reads (by decide)
  have known : readType "function(this:Foo)" ≠ .unknown := by
    rw [read]
    simp
  have spelled : "function(this:Foo)".toList =
      "function".toList ++ '(' :: ("this".toList ++ ':' :: ("Foo".toList ++ [')'])) := by decide
  have nothing : ∀ b ∈ ([] : List Char), Text.isBlank b = true := by simp
  have blank : ∀ b ∈ [' '], Text.isBlank b = true := by simp [Text.isBlank]
  have tight : Respaced "function(this:Foo)".toList "function ( this: Foo )".toList := by
    have respelled : "function ( this: Foo )".toList =
        "function".toList ++ ([' '] ++ '(' :: ([' '] ++ ("this".toList ++ ([] ++ ':' :: ([' '] ++
          ("Foo".toList ++ ([' '] ++ ')' :: ([] ++ [])))))))) := by decide
    rw [spelled, respelled]
    refine .others (by decide) (.mark (by decide) blank blank ?_)
    refine .others (by decide) (.mark (by decide) nothing blank ?_)
    exact .others (by decide) (.mark (by decide) blank nothing .nil)
  have loose : Respaced "function(this:Foo)".toList "function(this :Foo)".toList := by
    have respelled : "function(this :Foo)".toList =
        "function".toList ++ ([] ++ '(' :: ([] ++ ("this".toList ++ ([' '] ++ ':' :: ([] ++
          ("Foo".toList ++ ([] ++ ')' :: ([] ++ [])))))))) := by decide
    rw [spelled, respelled]
    refine .others (by decide) (.mark (by decide) nothing nothing ?_)
    refine .others (by decide) (.mark (by decide) blank nothing ?_)
    exact .others (by decide) (.mark (by decide) nothing nothing .nil)
  refine ⟨known, (readType_respaced_iff known tight).1.mpr (by decide), fun same => ?_⟩
  exact absurd ((readType_respaced_iff known loose).1.mp same) (by decide)

end ClassFactory
