/-
Module: ClassFactory.Proofs.Types.Reads
Purpose: Reading gives back a type from its text wherever something follows that ends a type: names
  with and without arguments, alternatives and unions, and the types that have no parts.
Main exports: isTypeName, Stops, Reads, unionType_takes, Reads.union, Reads.array, Reads.map
-/
import ClassFactory.Proofs.Types.Reading
import ClassFactory.Types.Text

namespace ClassFactory

/-- Names that do not stand for the type known by them. -/
def reservedNames : List String :=
  ["number", "string", "boolean", "symbol", "null", "undefined", "void", "Function", "Array",
   "Object", "ReactElement", "ReactChild", "ReactNode", "function"]

/-- Whether a type may be known by the name. -/
def isTypeName (name : String) : Bool :=
  Reading.isNameText name && !reservedNames.contains name

namespace Reading

/-! ## Where types start and end -/

/-- Whether a type may start with the character. -/
def opensType (c : Char) : Bool :=
  isNameCharacter true c || ['?', '!', '(', '\x7b', '"'].contains c

/-- What follows a type: nothing, or a character that ends it. -/
def Stops (rest : List Char) : Prop := ∀ c ∈ rest.head?, endsType c = true

section Ends

variable {c : Char} {cs rest : List Char}

theorem eq_false_of_any {p : Char → Bool} (none : cs.any p = false) (mem : c ∈ cs) : p c = false :=
  Bool.eq_false_iff.mpr (List.any_eq_false.mp none c mem)

theorem mem_of_endsType (ends : endsType c = true) : c ∈ [',', ')', '>', '\x7d', '|', '='] := by
  simpa [endsType, or_assoc] using ends

theorem Stops.nil : Stops [] := by simp [Stops]

theorem Stops.cons (ends : endsType c = true) (cs : List Char) : Stops (c :: cs) := by
  simpa [Stops] using ends

theorem Stops.head?_ne (stops : Stops rest) (goesOn : endsType c = false) :
    rest.head? ≠ some c := by
  intro same
  rw [stops c (by simp [same])] at goesOn
  cases goesOn

/-- No white space comes next where a type ends. -/
theorem Stops.trimStart (stops : Stops rest) : Text.trimStart rest = rest := by
  cases rest with
  | nil => rfl
  | cons c rest =>
      have noBlank : [',', ')', '>', '\x7d', '|', '='].any Text.isBlank = false := by decide
      have here := mem_of_endsType (stops c (by simp))
      exact Text.trimStart_cons_of_not_blank _ (eq_false_of_any noBlank here)

/-- A word ends where a type ends. -/
theorem Stops.endsName (stops : Stops rest) (word : List Char) : EndsName word rest where
  other := by
    have noName : [',', ')', '>', '\x7d', '|', '='].any (isNameCharacter false) = false := by decide
    intro c mem
    exact eq_false_of_any noName (mem_of_endsType (stops c mem))
  period := .inr (stops.head?_ne (by decide))

theorem opensType_cases (opens : opensType c = true) :
    isNameCharacter true c = true ∨ c ∈ ['?', '!', '(', '\x7b', '"'] := by
  simpa [opensType] using opens

theorem isBlank_of_opensType (opens : opensType c = true) : Text.isBlank c = false := by
  rcases opensType_cases opens with ofName | mark
  · exact isBlank_of_isNameCharacter ofName
  · have noBlank : ['?', '!', '(', '\x7b', '"'].any Text.isBlank = false := by decide
    exact eq_false_of_any noBlank mark

/-- A name starts with a character that names start with. -/
theorem opensType_of_isNameText {word : String} (isName : isNameText word = true) :
    ∃ c cs, word.toList = c :: cs ∧ isNameCharacter true c = true := by
  unfold isNameText at isName
  split at isName
  · cases isName
  · rename_i c cs spelled
    exact ⟨c, cs, spelled, (Bool.and_eq_true _ _ ▸ isName).1⟩

end Ends

/-- What reading makes of the text of a type wherever something follows that ends a type. -/
structure Reads (type : Ty) : Prop where
  opens : ∃ c cs, type.text.toList = c :: cs ∧ opensType c = true
  join : Ty.join [type] = type
  takes : ∀ {budget : Nat} {cs rest : List Char}, 5 * type.text.toList.length ≤ budget →
    Stops rest → Text.trimStart cs = type.text.toList ++ rest →
    Takes (prefixedType budget) cs type rest
  unmarked : ∀ {rest : List Char}, Stops rest →
    Takes receiverMark (type.text.toList ++ rest) false (type.text.toList ++ rest)

/-! ## Names with and without arguments -/

section Words

variable {budget : Nat} {word : String} {cs rest after : List Char} {type : Ty}

/-- Where a type ends no arguments of it follow. -/
theorem argumentsMark_misses (stops : Stops rest) : Takes argumentsMark rest false rest := by
  apply Takes.blanks stops.trimStart
  refine Takes.missed (t := '.') rfl (stops.head?_ne (by decide)) ?_
  exact eat_misses (t := '<') rfl (stops.head?_ne (by decide))

theorem argumentsMark_takes (rest : List Char) : Takes argumentsMark ('<' :: rest) true rest := by
  apply Takes.blanks (Text.trimStart_cons_of_not_blank _ (by decide))
  apply Takes.missed (t := '.') rfl (by simp)
  exact eat_takes "<" rest

/-- What starts with a name is read without a mark in front. -/
theorem prefixedType_name (isName : isNameText word = true)
    (skipped : Text.trimStart cs = word.toList ++ rest)
    (next : Takes (primaryType budget) (word.toList ++ rest) type after) :
    Takes (prefixedType (budget + 1)) cs type after := by
  obtain ⟨c, more, spelled, first⟩ := opensType_of_isNameText isName
  have head : (word.toList ++ rest).head? = some c := by simp [spelled]
  rw [prefixedType]
  apply Takes.blanks skipped
  refine Takes.missed (t := '!') rfl ?_ (Takes.missed (t := '?') rfl ?_ next)
  · rw [head]
    rintro ⟨⟩
    exact absurd first (by decide)
  · rw [head]
    rintro ⟨⟩
    exact absurd first (by decide)

/-- A name in front of something that is no name is read as one. -/
theorem primaryType_name (isName : isNameText word = true) (ends : EndsName word.toList rest)
    (next : Takes
      (if word = "function" then do
        expect "("
        functionParams budget []
      else do
        if ← argumentsMark then
          let args ← typeArguments budget []
          pure (namedType word args)
        else pure (namedType word [])) rest type after) :
    Takes (primaryType (budget + 1)) (word.toList ++ rest) type after := by
  obtain ⟨c, more, spelled, first⟩ := opensType_of_isNameText isName
  have noMark : ∀ mark ∈ ['(', '\x7b', '*', '"', '\x27'], c ≠ mark := by
    rintro mark mem rfl
    have others : ['(', '\x7b', '*', '"', '\x27'].any (isNameCharacter true) = false := by decide
    rw [eq_false_of_any others mem] at first
    cases first
  rw [primaryType]
  apply Takes.blanks (trimStart_name isName rest)
  have peeked : Takes peek (word.toList ++ rest) c (word.toList ++ rest) := by
    rw [spelled]
    exact peek_takes c _
  refine peeked.bind ?_
  rw [if_neg (noMark _ (by decide)), if_neg (noMark _ (by decide)),
    if_neg (noMark _ (by decide)), if_neg]
  · exact (name_takes isName ends (trimStart_name isName rest)).bind next
  · simp [noMark]

/-- A name that starts no function type denotes what it stands for with its arguments, if any. -/
theorem primaryType_ordinary (isName : isNameText word = true) (ends : EndsName word.toList rest)
    (ordinary : word ≠ "function")
    (next : Takes (do
      if ← argumentsMark then
        let args ← typeArguments budget []
        pure (namedType word args)
      else pure (namedType word [])) rest type after) :
    Takes (primaryType (budget + 1)) (word.toList ++ rest) type after := by
  refine primaryType_name isName ends ?_
  rw [if_neg ordinary]
  exact next

/-- A name without arguments denotes what the name alone stands for. -/
theorem prefixedType_word (isName : isNameText word = true) (ordinary : word ≠ "function")
    (enough : 2 ≤ budget) (stops : Stops rest)
    (skipped : Text.trimStart cs = word.toList ++ rest) :
    Takes (prefixedType budget) cs (namedType word []) rest := by
  obtain ⟨budget, rfl⟩ := Nat.exists_eq_add_of_le' enough
  refine prefixedType_name isName skipped ?_
  refine primaryType_ordinary isName (stops.endsName _) ordinary ?_
  apply Takes.bind (argumentsMark_misses stops)
  exact .pure _ _

theorem endsName_bracket (noPeriod : '.' ∉ word.toList) (rest : List Char) :
    EndsName word.toList ('<' :: rest) where
  other := by
    intro c mem
    obtain rfl : '<' = c := by simpa using mem
    decide
  period := .inl noPeriod

/-- A name with arguments denotes what the name stands for with them. -/
theorem prefixedType_arguments {args : List Ty} (isName : isNameText word = true)
    (ordinary : word ≠ "function") (noPeriod : '.' ∉ word.toList)
    (skipped : Text.trimStart cs = word.toList ++ '<' :: rest)
    (next : Takes (typeArguments budget []) rest args after) :
    Takes (prefixedType (budget + 2)) cs (namedType word args) after := by
  refine prefixedType_name isName skipped ?_
  refine primaryType_ordinary isName (endsName_bracket noPeriod rest) ordinary ?_
  apply Takes.bind (argumentsMark_takes rest)
  rw [if_pos rfl]
  exact next.bind (.pure _ _)

/-- A word in front of the end of a type is not taken for the mark of a receiver. -/
theorem receiverMark_misses_word (isName : isNameText word = true) (stops : Stops rest) :
    Takes receiverMark (word.toList ++ rest) false (word.toList ++ rest) :=
  receiverMark_misses_name isName (stops.endsName _) (stops.head?_ne (by decide))

end Words

/-- A type whose text is a name that denotes it. -/
theorem Reads.of_word {type : Ty} (word : String) (isName : isNameText word = true)
    (ordinary : word ≠ "function") (spelled : type.text = word)
    (denotes : namedType word [] = type) (join : Ty.join [type] = type) : Reads type where
  opens := by
    obtain ⟨c, cs, chars, first⟩ := opensType_of_isNameText isName
    refine ⟨c, cs, spelled ▸ chars, ?_⟩
    rw [opensType, first, Bool.true_or]
  join := join
  takes := by
    intro budget cs rest enough stops skipped
    rw [spelled] at enough skipped
    obtain ⟨c, more, chars, -⟩ := opensType_of_isNameText isName
    have enough : 2 ≤ budget := by
      rw [chars, List.length_cons] at enough
      omega
    rw [← denotes]
    exact prefixedType_word isName ordinary enough stops skipped
  unmarked := by
    intro rest stops
    rw [spelled]
    exact receiverMark_misses_word isName stops

/-! ## Alternatives -/

section Alternatives

variable {budget : Nat} {cs after : List Char} {type : Ty}

/-- The text of a type is not empty. -/
theorem Reads.length_pos (reads : Reads type) : 0 < type.text.toList.length := by
  obtain ⟨c, cs, spelled, -⟩ := reads.opens
  rw [spelled]
  exact Nat.succ_pos _

/-- No white space stands in front of the text of a type. -/
theorem Reads.trimStart (reads : Reads type) (rest : List Char) :
    Text.trimStart (type.text.toList ++ rest) = type.text.toList ++ rest := by
  obtain ⟨c, cs, spelled, opens⟩ := reads.opens
  rw [spelled]
  exact Text.trimStart_cons_of_not_blank _ (isBlank_of_opensType opens)

theorem trimStart_space (cs : List Char) : Text.trimStart (' ' :: cs) = Text.trimStart cs := by
  simp [Text.trimStart, Text.isBlank]

/-- Joined texts start without white space if the first of them does. -/
theorem trimStart_joinWith {text : String}
    (solid : ∀ rest, Text.trimStart (text.toList ++ rest) = text.toList ++ rest)
    (separator : String) (texts : List String) (rest : List Char) :
    Text.trimStart ((Text.joinWith separator (text :: texts)).toList ++ rest) =
      (Text.joinWith separator (text :: texts)).toList ++ rest := by
  obtain ⟨more, joined⟩ := Text.exists_toList_joinWith separator text texts
  rw [joined, List.append_assoc]
  exact solid _

/-- Alternatives are read one after another up to something that is no bar. -/
theorem alternatives_take {first : Ty} {others before : List Ty}
    (reads : ∀ type ∈ first :: others, Reads type)
    (enough : 5 * (Text.joinWith "|" ((first :: others).map Ty.text)).toList.length + 1 ≤ budget)
    (stops : Stops after) (noBar : after.head? ≠ some '|')
    (skipped : Text.trimStart cs =
      (Text.joinWith "|" ((first :: others).map Ty.text)).toList ++ after) :
    Takes (do
      let next ← prefixedType budget
      alternatives budget (before ++ [next])) cs (Ty.join (before ++ first :: others)) after := by
  have readsFirst := reads first List.mem_cons_self
  -- The budget pays for each alternative by its own characters, and for the bars by theirs.
  induction others generalizing first before budget cs with
  | nil =>
      obtain ⟨budget, rfl⟩ := Nat.exists_eq_add_of_le' (Nat.le_of_add_left_le enough)
      apply Takes.bind (readsFirst.takes (Nat.le_of_succ_le enough) stops skipped)
      rw [alternatives]
      apply Takes.blanks stops.trimStart
      exact Takes.missed (t := '|') rfl noBar (.pure _ _)
  | cons second others ih =>
      obtain ⟨budget, rfl⟩ := Nat.exists_eq_add_of_le' (Nat.le_of_add_left_le enough)
      have readsSecond := reads second (by simp)
      rw [List.map_cons, List.map_cons, Text.toList_joinWith_cons] at enough skipped
      rw [List.append_assoc, List.append_assoc] at skipped
      have lengths := readsFirst.length_pos
      have bar : "|".toList.length = 1 := rfl
      rw [List.length_append, List.length_append, bar] at enough
      have next : Stops ("|".toList ++
          ((Text.joinWith "|" (second.text :: others.map Ty.text)).toList ++ after)) :=
        Stops.cons (by decide) _
      have here := trimStart_joinWith readsSecond.trimStart "|" (others.map Ty.text) after
      apply Takes.bind (readsFirst.takes (by omega) next skipped)
      rw [alternatives]
      apply Takes.blanks next.trimStart
      refine Takes.eaten ?_
      rw [show before ++ first :: second :: others = before ++ [first] ++ second :: others from
        List.append_cons _ _ _]
      refine ih (fun type mem => reads type (List.mem_cons_of_mem _ mem)) ?_ here readsSecond
      rw [List.map_cons]
      omega

/-- Alternatives are read as the join of their types. -/
theorem unionType_takes_all {first : Ty} {others : List Ty}
    (reads : ∀ type ∈ first :: others, Reads type)
    (enough : 5 * (Text.joinWith "|" ((first :: others).map Ty.text)).toList.length + 2 ≤ budget)
    (stops : Stops after) (noBar : after.head? ≠ some '|')
    (skipped : Text.trimStart cs =
      (Text.joinWith "|" ((first :: others).map Ty.text)).toList ++ after) :
    Takes (unionType budget) cs (Ty.join (first :: others)) after := by
  obtain ⟨budget, rfl⟩ := Nat.exists_eq_add_of_le' (show 1 ≤ budget by omega)
  rw [unionType]
  change Takes (do
    let next ← prefixedType budget
    alternatives budget ([] ++ [next])) cs (Ty.join ([] ++ first :: others)) after
  exact alternatives_take reads (Nat.le_of_succ_le_succ enough) stops noBar skipped

/-- A single type is read as itself where alternatives may stand. -/
theorem unionType_takes (reads : Reads type)
    (enough : 5 * type.text.toList.length + 2 ≤ budget) (stops : Stops after)
    (noBar : after.head? ≠ some '|') (skipped : Text.trimStart cs = type.text.toList ++ after) :
    Takes (unionType budget) cs type after := by
  have alone : Text.joinWith "|" ([type].map Ty.text) = type.text := rfl
  rw [← alone] at enough skipped
  have each : ∀ other ∈ [type], Reads other := by
    rintro other mem
    obtain rfl := List.mem_singleton.mp mem
    exact reads
  have read := unionType_takes_all each enough stops noBar skipped
  rwa [reads.join] at read

end Alternatives

/-! ## Unions -/

section Unions

variable {members kept : List Ty}

/-- A member that differs from all that are there is added. -/
theorem addMember_fresh {type : Ty} (fresh : ∀ one ∈ kept, one.same type = false) :
    Ty.addMember kept type = kept ++ [type] := by
  have absent : (kept.any fun one => one.same type) = false := by
    rw [List.any_eq_false]
    intro one mem
    simp [fresh one mem]
  rw [Ty.addMember, absent, if_neg Bool.false_ne_true]

/-- Members that differ from one another are all kept, in order. -/
theorem foldl_addMember
    (distinct : (kept ++ members).Pairwise fun one other => one.same other = false) :
    members.foldl Ty.addMember kept = kept ++ members := by
  induction members generalizing kept with
  | nil => simp
  | cons type rest ih =>
      have fresh : ∀ one ∈ kept, one.same type = false := by
        intro one mem
        exact (List.pairwise_append.mp distinct).2.2 one mem type List.mem_cons_self
      rw [List.append_cons] at distinct
      rw [List.foldl_cons, addMember_fresh fresh, ih distinct, ← List.append_cons]

/-- Members that differ, none of them unconstrained or a union, are collected as they are. -/
theorem collectMembers_flat
    (flat : ∀ type ∈ members, type ≠ .unknown ∧ ∀ inner, type ≠ .union inner)
    (distinct : (kept ++ members).Pairwise fun one other => one.same other = false) :
    Ty.collectMembers kept members = some (kept ++ members) := by
  induction members generalizing kept with
  | nil => simp [Ty.collectMembers]
  | cons type rest ih =>
      have fresh : ∀ one ∈ kept, one.same type = false := by
        intro one mem
        exact (List.pairwise_append.mp distinct).2.2 one mem type List.mem_cons_self
      obtain ⟨constrained, noUnion⟩ := flat type List.mem_cons_self
      have added : Ty.collectMembers kept (type :: rest) =
          Ty.collectMembers (Ty.addMember kept type) rest := by
        cases type with
        | unknown => exact absurd rfl constrained
        | union inner => exact absurd rfl (noUnion inner)
        | _ => rfl
      rw [List.append_cons] at distinct
      rw [added, addMember_fresh fresh,
        ih (fun other mem => flat other (List.mem_cons_of_mem _ mem)) distinct, ← List.append_cons]

/-- Several members make a union. -/
theorem ofMembers_several (several : 2 ≤ members.length) :
    Ty.ofMembers members = .union members := by
  rcases members with _ | ⟨first, _ | ⟨second, rest⟩⟩
  · simp at several
  · simp at several
  · rfl

/-- The join of several flat members that differ from one another is their union. -/
theorem join_members (several : 2 ≤ members.length)
    (flat : ∀ type ∈ members, type ≠ .unknown ∧ ∀ inner, type ≠ .union inner)
    (distinct : members.Pairwise fun one other => one.same other = false) :
    Ty.join members = .union members := by
  rw [Ty.join, collectMembers_flat flat (by simpa using distinct)]
  exact ofMembers_several several

/-- A union in normal form stays as it is. -/
theorem join_union (several : 2 ≤ members.length)
    (distinct : members.Pairwise fun one other => one.same other = false) :
    Ty.join [.union members] = .union members := by
  have collected : Ty.collectMembers [] [.union members] = some members := by
    rw [Ty.collectMembers, foldl_addMember (by simpa using distinct)]
    rfl
  rw [Ty.join, collected]
  exact ofMembers_several several

/-- A union is printed as its members between parentheses. -/
theorem toList_union (members : List Ty) :
    (Ty.union members).text.toList =
      '(' :: ((Text.joinWith "|" (members.map Ty.text)).toList ++ [')']) := by
  rw [Ty.text_union, unionText, map_snd_writtenMembers]
  simp

end Unions

/-- What a type in parentheses or braces, in front of which no mark stands, is read as. -/
theorem prefixedType_bracket {budget : Nat} {c : Char} {cs more after : List Char} {type : Ty}
    (bracket : c = '(' ∨ c = '\x7b' ∨ c = '"') (skipped : Text.trimStart cs = c :: more)
    (next : Takes (primaryType budget) (c :: more) type after) :
    Takes (prefixedType (budget + 1)) cs type after := by
  rw [prefixedType]
  apply Takes.blanks skipped
  refine Takes.missed (t := '!') rfl ?_ (Takes.missed (t := '?') rfl ?_ next)
  · rcases bracket with rfl | rfl | rfl <;> simp
  · rcases bracket with rfl | rfl | rfl <;> simp

/-- A union is read back if its members are, where they are several, flat and different. -/
theorem Reads.union {members : List Ty} (reads : ∀ type ∈ members, Reads type)
    (several : 2 ≤ members.length)
    (flat : ∀ type ∈ members, type ≠ .unknown ∧ ∀ inner, type ≠ .union inner)
    (distinct : members.Pairwise fun one other => one.same other = false) :
    Reads (.union members) where
  opens := ⟨_, _, toList_union members, by decide⟩
  join := join_union several distinct
  takes := by
    intro budget cs rest enough stops skipped
    rw [toList_union] at enough skipped
    rw [List.length_cons, List.length_append, List.length_singleton] at enough
    rw [List.cons_append, List.append_assoc, List.singleton_append] at skipped
    obtain ⟨budget, rfl⟩ := Nat.exists_eq_add_of_le' (show 3 ≤ budget by omega)
    refine prefixedType_bracket (.inl rfl) skipped ?_
    rw [primaryType]
    apply Takes.blanks (Text.trimStart_cons_of_not_blank _ (by decide))
    apply Takes.bind (peek_takes _ _)
    rw [if_pos rfl]
    apply Takes.bind (drop_takes _ _)
    rw [← join_members several flat distinct]
    obtain ⟨first, others, rfl⟩ := List.exists_cons_of_length_pos (show 0 < members.length by omega)
    have closes : Stops (')' :: rest) := .cons (by decide) rest
    refine Takes.bind (unionType_takes_all reads ?_ closes (by simp) ?_) ?_
    · omega
    · exact trimStart_joinWith (reads first List.mem_cons_self).trimStart "|" (others.map Ty.text) _
    · apply Takes.bind (expect_takes (Text.trimStart_cons_of_not_blank _ (by decide)))
      exact .pure _ _
  unmarked := by
    intro rest stops
    rw [toList_union]
    exact receiverMark_misses_other (by decide) (by decide) _

/-! ## Arguments -/

section Arguments

variable {budget : Nat} {cs rest : List Char} {args : List Ty} {type : Ty}

/-- The last type argument is followed by the bracket that closes the list. -/
theorem typeArguments_last (reads : Reads type)
    (enough : 5 * type.text.toList.length + 3 ≤ budget)
    (skipped : Text.trimStart cs = type.text.toList ++ '>' :: rest) :
    Takes (typeArguments budget args) cs (args ++ [type]) rest := by
  obtain ⟨budget, rfl⟩ := Nat.exists_eq_add_of_le' (show 1 ≤ budget by omega)
  have closes : Stops ('>' :: rest) := .cons (by decide) rest
  rw [typeArguments]
  apply Takes.bind (unionType_takes reads (by omega) closes (by simp) skipped)
  apply Takes.blanks closes.trimStart
  exact Takes.eaten (.pure _ _)

/-- A type argument before the last one is followed by a comma, and the list goes on behind it. -/
theorem typeArguments_first {result : List Ty} (reads : Reads type)
    (enough : 5 * type.text.toList.length + 3 ≤ budget + 1)
    (skipped : Text.trimStart cs = type.text.toList ++ ',' :: rest)
    (next : Takes (typeArguments budget (args ++ [type])) rest result after) :
    Takes (typeArguments (budget + 1) args) cs result after := by
  have goesOn : Stops (',' :: rest) := .cons (by decide) rest
  rw [typeArguments]
  apply Takes.bind (unionType_takes reads (by omega) goesOn (by simp) skipped)
  apply Takes.blanks goesOn.trimStart
  apply Takes.missed (t := '>') rfl (by simp)
  apply Takes.bind (expect_takes goesOn.trimStart)
  exact next

/-- A type whose text is a name with arguments that denotes it. -/
theorem Reads.of_arguments (word : String) (inner : List Char) (isName : isNameText word = true)
    (ordinary : word ≠ "function") (noPeriod : '.' ∉ word.toList)
    (spelled : type.text.toList = word.toList ++ '<' :: (inner ++ ['>']))
    (denotes : namedType word args = type) (join : Ty.join [type] = type)
    (take : ∀ {budget : Nat} {rest : List Char}, 5 * inner.length + 3 ≤ budget →
      Takes (typeArguments budget []) (inner ++ '>' :: rest) args rest) : Reads type where
  opens := by
    obtain ⟨c, cs, chars, first⟩ := opensType_of_isNameText isName
    rw [spelled, chars]
    refine ⟨c, _, rfl, ?_⟩
    rw [opensType, first, Bool.true_or]
  join := join
  takes := by
    intro budget cs rest enough stops skipped
    rw [spelled] at enough skipped
    simp only [List.length_append, List.length_cons, List.length_nil] at enough
    obtain ⟨budget, rfl⟩ := Nat.exists_eq_add_of_le' (show 2 ≤ budget by omega)
    simp only [List.append_assoc, List.cons_append, List.nil_append] at skipped
    rw [← denotes]
    exact prefixedType_arguments isName ordinary noPeriod skipped (take (by omega))
  unmarked := by
    intro rest stops
    rw [spelled, List.append_assoc, List.cons_append]
    exact receiverMark_misses_name isName (endsName_bracket noPeriod _) (by simp)

end Arguments

/-! ## Single types -/

/-- The unconstrained type is read back from its mark. -/
theorem Reads.unknown : Reads .unknown where
  opens := ⟨'?', [], rfl, by decide⟩
  join := rfl
  takes := by
    intro budget cs rest enough stops skipped
    have spelled : Ty.unknown.text.toList = ['?'] := rfl
    rw [spelled] at enough skipped
    rw [List.length_singleton] at enough
    obtain ⟨budget, rfl⟩ := Nat.exists_eq_add_of_le' (show 1 ≤ budget by omega)
    rw [prefixedType]
    apply Takes.blanks skipped
    apply Takes.missed (t := '!') rfl (by simp)
    apply Takes.bind (eat_takes "?" rest)
    rw [if_pos rfl]
    apply Takes.blanks stops.trimStart
    apply Takes.bind (show Takes get rest rest rest from rfl)
    cases rest with
    | nil => exact .pure _ _
    | cons c rest =>
        dsimp only
        rw [if_pos (stops c (by simp))]
        exact .pure _ _
  unmarked := by
    intro rest stops
    exact receiverMark_misses_other (c := '?') (by decide) (by decide) _

/-- A string literal is read back if no quote stands inside it. -/
theorem Reads.text {value : String} (noQuote : '"' ∉ value.toList) :
    Reads (.literal (.string value)) where
  opens := ⟨'"', value.toList ++ ['"'], by simp [Literal.text], by decide⟩
  join := rfl
  takes := by
    intro budget cs rest enough stops skipped
    have spelled : (Ty.literal (.string value)).text.toList = '"' :: (value.toList ++ ['"']) := by
      simp [Literal.text]
    rw [spelled] at enough skipped
    simp only [List.length_append, List.length_cons, List.length_nil] at enough
    simp only [List.append_assoc, List.cons_append, List.nil_append] at skipped
    obtain ⟨budget, rfl⟩ := Nat.exists_eq_add_of_le' (show 2 ≤ budget by omega)
    refine prefixedType_bracket (.inr (.inr rfl)) skipped ?_
    rw [primaryType]
    apply Takes.blanks (Text.trimStart_cons_of_not_blank _ (by decide))
    apply Takes.bind (peek_takes _ _)
    rw [if_neg (by decide), if_neg (by decide), if_neg (by decide), if_pos (by decide)]
    exact (quoted_takes noQuote rest).bind (.pure _ _)
  unmarked := by
    intro rest stops
    have spelled : (Ty.literal (.string value)).text.toList ++ rest =
        '"' :: (value.toList ++ '"' :: rest) := by
      simp [Literal.text]
    rw [spelled]
    exact receiverMark_misses_other (by decide) (by decide) _

/-- A type whose text is a name after a mark that changes nothing. -/
theorem Reads.of_marked_word {type : Ty} (word : String) (isName : isNameText word = true)
    (ordinary : word ≠ "function") (spelled : type.text.toList = '!' :: word.toList)
    (denotes : namedType word [] = type) (join : Ty.join [type] = type) : Reads type where
  opens := ⟨'!', _, spelled, by decide⟩
  join := join
  takes := by
    intro budget cs rest enough stops skipped
    rw [spelled] at enough skipped
    rw [List.length_cons] at enough
    obtain ⟨budget, rfl⟩ := Nat.exists_eq_add_of_le' (show 2 ≤ budget by omega)
    rw [prefixedType]
    apply Takes.blanks skipped
    apply Takes.bind (eat_takes "!" _)
    rw [if_pos rfl]
    refine primaryType_ordinary isName (stops.endsName _) ordinary ?_
    apply Takes.bind (argumentsMark_misses stops)
    rw [← denotes]
    exact .pure _ _
  unmarked := by
    intro rest stops
    rw [spelled]
    exact receiverMark_misses_other (by decide) (by decide) _

/-- Each primitive type is read back from its name. -/
theorem Reads.primitive (kind : Primitive) : Reads (.primitive kind) := by
  cases kind with
  | number => exact .of_word "number" (by decide) (by decide) rfl rfl rfl
  | string => exact .of_word "string" (by decide) (by decide) rfl rfl rfl
  | boolean => exact .of_word "boolean" (by decide) (by decide) rfl rfl rfl
  | symbol => exact .of_word "symbol" (by decide) (by decide) rfl rfl rfl

/-! ## Types known by name -/

section Names

variable {name : String}

theorem isNameText_of_isTypeName (isName : isTypeName name = true) : isNameText name = true :=
  (Bool.and_eq_true _ _ ▸ isName).1

/-- A name that types may have is not reserved. -/
theorem notMem_reservedNames (isName : isTypeName name = true) : name ∉ reservedNames := by
  have free := (Bool.and_eq_true _ _ ▸ isName).2
  simpa [List.contains_iff_mem] using free

theorem ne_function (isName : isTypeName name = true) : name ≠ "function" := by
  rintro rfl
  exact notMem_reservedNames isName (by decide)

/-- A name that is not reserved denotes the type known by it. -/
theorem namedType_of_isTypeName (isName : isTypeName name = true) :
    namedType name [] = .named name := by
  have free := notMem_reservedNames isName
  unfold namedType
  split
  all_goals first
    | rfl
    | exact absurd (by decide) free

/-- The name of a type is read back. -/
theorem Reads.named (isName : isTypeName name = true) : Reads (.named name) :=
  .of_word name (isNameText_of_isTypeName isName) (ne_function isName) rfl
    (namedType_of_isTypeName isName) rfl

end Names

/-- Arrays are read back if their items are. -/
theorem Reads.array {item : Ty} (reads : Reads item) : Reads (.array item) := by
  have spelled : (Ty.array item).text.toList =
      "Array".toList ++ '<' :: (item.text.toList ++ ['>']) := by
    simp
  refine Reads.of_arguments "Array" item.text.toList (by decide) (by decide) (by decide) spelled
    (show namedType "Array" [item] = .array item from rfl) rfl ?_
  intro budget rest enough
  exact typeArguments_last reads enough (reads.trimStart _)

/-- Maps are read back if their values are. -/
theorem Reads.map {value : Ty} (reads : Reads value) : Reads (.map value) := by
  have spelled : (Ty.map value).text.toList =
      "Object".toList ++ '<' :: (("string, ".toList ++ value.text.toList) ++ ['>']) := by
    simp
  refine Reads.of_arguments "Object" ("string, ".toList ++ value.text.toList) (by decide)
    (by decide) (by decide) spelled (show namedType "Object" [.string, value] = .map value from rfl)
    rfl ?_
  intro budget rest enough
  have key : (Ty.primitive .string).text.toList.length = 6 := rfl
  have lengths : "string, ".toList.length = 8 := rfl
  rw [List.length_append, lengths] at enough
  obtain ⟨budget, rfl⟩ := Nat.exists_eq_add_of_le' (show 1 ≤ budget by omega)
  have blank : Text.trimStart (' ' :: (value.text.toList ++ '>' :: rest)) =
      value.text.toList ++ '>' :: rest := by
    rw [trimStart_space]
    exact reads.trimStart _
  have last : Takes (typeArguments budget [.string]) (' ' :: (value.text.toList ++ '>' :: rest))
      [.string, value] rest := typeArguments_last reads (by omega) blank
  exact typeArguments_first (Reads.primitive .string) (by omega)
    ((Reads.primitive .string).trimStart _) last

/-- The type of a component's elements is read back from the component's name. -/
theorem Reads.elementOf {component : String} (isName : isTypeName component = true) :
    Reads (.element (some component)) := by
  have reads := Reads.named isName
  have spelled : (Ty.element (some component)).text.toList =
      "ReactElement".toList ++ '<' :: ((Ty.named component).text.toList ++ ['>']) := by
    simp
  refine Reads.of_arguments "ReactElement" (Ty.named component).text.toList (by decide) (by decide)
    (by decide) spelled
    (show namedType "ReactElement" [.named component] = .element (some component) from rfl) rfl ?_
  intro budget rest enough
  exact typeArguments_last reads enough (reads.trimStart _)

end Reading

end ClassFactory
