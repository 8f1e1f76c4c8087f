/-
Module: ClassFactory.Proofs.Types.Composite
Purpose: Reading gives back records and functions from their texts: each field and each parameter is
  read up to the comma after it, and is added behind those read before.
Main exports: ReadsField, ReadsParam, Reads.record, Reads.function
-/
import ClassFactory.Proofs.Types.Reads
import Mathlib.Data.List.Nodup

namespace ClassFactory

namespace Reading

variable {budget : Nat} {cs after rest : List Char} {type : Ty}

/-! ## Texts joined by commas -/

theorem toList_joinWith_comma (text next : String) (texts : List String) :
    (Text.joinWith ", " (text :: next :: texts)).toList =
      text.toList ++ ',' :: ' ' :: (Text.joinWith ", " (next :: texts)).toList := by
  rw [Text.toList_joinWith_cons]
  rfl

/-- Behind a comma only the one space is skipped, where the next text does not start with white
space. -/
theorem trimStart_space_joinWith {text : String}
    (solid : ∀ rest, Text.trimStart (text.toList ++ rest) = text.toList ++ rest)
    (texts : List String) (rest : List Char) :
    Text.trimStart (' ' :: ((Text.joinWith ", " (text :: texts)).toList ++ rest)) =
      (Text.joinWith ", " (text :: texts)).toList ++ rest := by
  rw [trimStart_space]
  exact trimStart_joinWith solid ", " texts rest

/-! ## Fields -/

/-- What a field has to be so that its text gives it back. -/
structure ReadsField (field : Field) : Prop where
  type : Reads field.type
  name : isNameText field.name = true
  optional : field.optional = field.type.admitsNullish

section Records

variable {field : Field} {fields before : List Field}

/-- Nothing is added to the text of the type if the field may be absent just if the type says so. -/
theorem ReadsField.toList_text (reads : ReadsField field) :
    field.text.toList = field.name.toList ++ ':' :: ' ' :: field.type.text.toList := by
  obtain ⟨name, type, optional⟩ := field
  have plain : (optional && !type.admitsNullish) = false := by
    rw [show optional = type.admitsNullish from reads.optional, Bool.and_not_self]
  have written : (Field.mk name type optional).text = name ++ ": " ++
      (if optional && !type.admitsNullish then widenedText type.alternatives type.text
      else type.text) := rfl
  rw [written, plain, if_neg Bool.false_ne_true]
  simp [Field.name, Field.type]

/-- No white space stands in front of a field. -/
theorem ReadsField.trimStart (reads : ReadsField field) (rest : List Char) :
    Text.trimStart (field.text.toList ++ rest) = field.text.toList ++ rest := by
  rw [reads.toList_text, List.append_assoc]
  exact trimStart_name reads.name _

/-- A field of a new name is written behind the others. -/
theorem insert_fresh (fresh : field.name ∉ before.map Field.name) :
    Fields.insert field before = before ++ [field] := by
  induction before with
  | nil => rfl
  | cons old before ih =>
      rw [List.map_cons, List.mem_cons, not_or] at fresh
      rw [Fields.insert, if_neg (Ne.symm fresh.1), ih fresh.2, List.cons_append]

theorem fresh_of_nodup (distinct : ((before ++ field :: fields).map Field.name).Nodup) :
    field.name ∉ before.map Field.name := by
  rw [List.map_append, List.map_cons, List.nodup_middle, List.nodup_cons, List.mem_append,
    not_or] at distinct
  exact distinct.1.1

/-- One field is read up to what follows its type. -/
theorem recordFields_field (reads : ReadsField field) (fresh : field.name ∉ before.map Field.name)
    (enough : 5 * field.text.toList.length ≤ budget) (stops : Stops after)
    (noBar : after.head? ≠ some '|') (noMark : after.head? ≠ some '=')
    (skipped : Text.trimStart cs = field.text.toList ++ after)
    (next : Takes (do
      if ← eat "," then recordFields budget (before ++ [field])
      else do
        expect "\x7d"
        pure (.record (before ++ [field]))) after type rest) :
    Takes (recordFields (budget + 1) before) cs type rest := by
  obtain ⟨c, more, spelled, first⟩ := opensType_of_isNameText reads.name
  rw [reads.toList_text] at enough skipped
  simp only [List.length_append, List.length_cons] at enough
  simp only [List.append_assoc, List.cons_append] at skipped
  have colon : EndsName field.name.toList (':' :: ' ' :: (field.type.text.toList ++ after)) :=
    ⟨by simp [show isNameCharacter false ':' = false from by decide], .inr (by simp)⟩
  have noBrace : (field.name.toList ++ ':' :: ' ' :: (field.type.text.toList ++ after)).head? ≠
      some '\x7d' := by
    rw [spelled]
    rintro ⟨⟩
    exact absurd first (by decide)
  have spaced : Text.trimStart (' ' :: (field.type.text.toList ++ after)) =
      field.type.text.toList ++ after := by
    rw [trimStart_space, reads.type.trimStart]
  have same : Field.mk field.name field.type (false || field.type.admitsNullish) = field := by
    rw [Bool.false_or, ← reads.optional]
    cases field
    rfl
  rw [recordFields]
  apply Takes.blanks skipped
  apply Takes.missed (t := '\x7d') rfl noBrace
  apply Takes.bind (name_takes reads.name colon (trimStart_name reads.name _))
  apply Takes.blanks (Text.trimStart_cons_of_not_blank _ (by decide))
  refine Takes.eaten ?_
  apply Takes.bind (unionType_takes reads.type (by omega) stops noBar spaced)
  apply Takes.blanks stops.trimStart
  apply Takes.bind (eat_misses rfl noMark)
  apply Takes.bind (.pure _ _)
  apply Takes.blanks stops.trimStart
  rw [same, insert_fresh fresh]
  exact next

/-- The fields that are left are read up to the closing brace. -/
theorem recordFields_take {others : List Field}
    (reads : ∀ other ∈ field :: others, ReadsField other)
    (distinct : ((before ++ field :: others).map Field.name).Nodup)
    (enough : 5 * (Text.joinWith ", " ((field :: others).map Field.text)).toList.length + 1 ≤
      budget)
    (skipped : Text.trimStart cs =
      (Text.joinWith ", " ((field :: others).map Field.text)).toList ++ '\x7d' :: rest) :
    Takes (recordFields budget before) cs (.record (before ++ field :: others)) rest := by
  have readsFirst := reads field List.mem_cons_self
  have fresh := fresh_of_nodup distinct
  -- Over the fields that are left; those read before stand in front and keep their names apart.
  induction others generalizing field before budget cs with
  | nil =>
      obtain ⟨budget, rfl⟩ := Nat.exists_eq_add_of_le' (Nat.le_of_add_left_le enough)
      have closes : Stops ('\x7d' :: rest) := .cons (by decide) rest
      refine recordFields_field readsFirst fresh (Nat.le_of_succ_le_succ enough) closes (by simp)
        (by simp) skipped ?_
      apply Takes.missed (t := ',') rfl (by simp)
      apply Takes.bind (expect_takes closes.trimStart)
      exact .pure _ _
  | cons second others ih =>
      obtain ⟨budget, rfl⟩ := Nat.exists_eq_add_of_le' (Nat.le_of_add_left_le enough)
      have readsLater : ∀ other ∈ second :: others, ReadsField other :=
        fun other mem => reads other (List.mem_cons_of_mem _ mem)
      have readsSecond := readsLater second List.mem_cons_self
      rw [List.map_cons, List.map_cons, toList_joinWith_comma] at enough skipped
      simp only [List.length_append, List.length_cons] at enough
      simp only [List.append_assoc, List.cons_append] at skipped
      have spaced := trimStart_space_joinWith readsSecond.trimStart (others.map Field.text)
        ('\x7d' :: rest)
      refine recordFields_field readsFirst fresh (by omega) (.cons (by decide) _) (by simp)
        (by simp) skipped ?_
      -- The blank behind the comma is skipped in front of the next field.
      refine Takes.eaten ?_
      rw [show before ++ field :: second :: others = before ++ [field] ++ second :: others from
        List.append_cons _ _ _] at distinct ⊢
      refine ih readsLater distinct ?_ spaced readsSecond (fresh_of_nodup distinct)
      rw [List.map_cons]
      omega

/-- A record is printed as its fields between braces. -/
theorem toList_record (fields : List Field) :
    (Ty.record fields).text.toList =
      '\x7b' :: ((Text.joinWith ", " (fields.map Field.text)).toList ++ ['\x7d']) := by
  rw [Ty.text_record, fieldTexts_eq_map]
  simp

/-- A record is read back if each of its fields is and no name occurs twice. -/
theorem Reads.record (reads : ∀ field ∈ fields, ReadsField field)
    (distinct : (fields.map Field.name).Nodup) : Reads (.record fields) where
  opens := ⟨_, _, toList_record fields, by decide⟩
  join := rfl
  takes := by
    intro budget cs rest enough stops skipped
    rw [toList_record] at enough skipped
    rw [List.length_cons, List.length_append, List.length_singleton] at enough
    rw [List.cons_append, List.append_assoc, List.singleton_append] at skipped
    obtain ⟨budget, rfl⟩ := Nat.exists_eq_add_of_le' (show 3 ≤ budget by omega)
    refine prefixedType_bracket (.inr (.inl rfl)) skipped ?_
    rw [primaryType]
    apply Takes.blanks (Text.trimStart_cons_of_not_blank _ (by decide))
    apply Takes.bind (peek_takes _ _)
    rw [if_neg (by decide), if_pos rfl]
    apply Takes.bind (drop_takes _ _)
    cases fields with
    | nil =>
        rw [recordFields]
        apply Takes.blanks (Text.trimStart_cons_of_not_blank _ (by decide))
        exact Takes.eaten (.pure _ _)
    | cons field others =>
        have solid := (reads field List.mem_cons_self).trimStart
        change Takes _ _ (Ty.record ([] ++ field :: others)) rest
        refine recordFields_take reads distinct (by omega) ?_
        exact trimStart_joinWith solid ", " (others.map Field.text) _
  unmarked := by
    intro rest stops
    rw [toList_record]
    exact receiverMark_misses_other (by decide) (by decide) _

end Records

/-! ## Parameters -/

/-- A token if the flag is set. -/
def flagged (flag : Bool) (token : String) : List Char := if flag then token.toList else []

/-- Whether the token is taken tells whether the flag was set. -/
theorem eat_flagged {t : Char} {more : List Char} {token : String} (flag : Bool)
    (spelled : token.toList = t :: more) (other : cs.head? ≠ some t) :
    Takes (eat token) (flagged flag token ++ cs) flag cs := by
  cases flag with
  | false => exact eat_misses spelled other
  | true => exact eat_takes token cs

/-- What stands behind a mark of absence, or behind nothing instead of it, still ends a type. -/
theorem Stops.flagged (stops : Stops after) (flag : Bool) : Stops (flagged flag "=" ++ after) := by
  cases flag with
  | false => exact stops
  | true => exact .cons (by decide) after

/-- What a parameter has to be so that its text gives it back. -/
structure ReadsParam (param : Param) : Prop where
  type : Reads param.type
  marks : ¬ (param.optional = true ∧ param.rest = true)

section Functions

variable {param : Param} {params before : List Param} {returns : Ty}

/-- A parameter is printed as its type between its two marks. -/
theorem ReadsParam.toList_text (reads : ReadsParam param) :
    param.text.toList = flagged param.rest "..." ++
      (param.type.text.toList ++ flagged param.optional "=") := by
  obtain ⟨name, type, optional, rest⟩ := param
  have marks : ¬ (optional = true ∧ rest = true) := reads.marks
  have written : (Param.mk name type optional rest).text = paramText type.text optional rest := rfl
  rw [written]
  simp only [Param.type, Param.optional, Param.rest]
  cases optional with
  | false => cases rest <;> simp [paramText, flagged]
  | true =>
      cases rest with
      | false => simp [paramText, flagged]
      | true => exact absurd ⟨rfl, rfl⟩ marks

/-- No white space stands in front of a parameter. -/
theorem ReadsParam.trimStart (reads : ReadsParam param) (rest : List Char) :
    Text.trimStart (param.text.toList ++ rest) = param.text.toList ++ rest := by
  rw [reads.toList_text, List.append_assoc, List.append_assoc]
  cases param.rest with
  | false => exact reads.type.trimStart _
  | true => exact Text.trimStart_cons_of_not_blank _ (by decide)

/-- A parameter is not taken for the mark of a receiver. -/
theorem ReadsParam.unmarked (reads : ReadsParam param) (stops : Stops after) :
    Takes receiverMark (param.text.toList ++ after) false (param.text.toList ++ after) := by
  rw [reads.toList_text, List.append_assoc, List.append_assoc]
  cases param.rest with
  | false => exact reads.type.unmarked (stops.flagged _)
  | true => exact receiverMark_misses_other (by decide) (by decide) _

/-- The text of a type does not start with a character that opens no type. -/
theorem Reads.head?_ne {t : Char} (reads : Reads type) (other : opensType t = false)
    (rest : List Char) : (type.text.toList ++ rest).head? ≠ some t := by
  obtain ⟨c, cs, spelled, opens⟩ := reads.opens
  rw [spelled]
  rintro ⟨⟩
  rw [opens] at other
  cases other

/-- A parameter does not start with the parenthesis that would end the list. -/
theorem ReadsParam.head?_ne (reads : ReadsParam param) (rest : List Char) :
    (param.text.toList ++ rest).head? ≠ some ')' := by
  rw [reads.toList_text, List.append_assoc, List.append_assoc]
  cases param.rest with
  | false => exact reads.type.head?_ne (by decide) _
  | true => simp [flagged]

/-- One parameter is read up to what follows its mark. -/
theorem functionParams_param (reads : ReadsParam param)
    (numbered : param.name = "p" ++ toString before.length)
    (enough : 5 * param.text.toList.length + 2 ≤ budget) (stops : Stops after)
    (noBar : after.head? ≠ some '|') (noMark : after.head? ≠ some '=')
    (skipped : Text.trimStart cs = param.text.toList ++ after)
    (next : Takes (do
      if ← eat "," then functionParams budget (before ++ [param])
      else do
        expect ")"
        functionResult budget (before ++ [param])) after type rest) :
    Takes (functionParams (budget + 1) before) cs type rest := by
  -- The name is not written: it is made from the number of parameters read before.
  have same : Param.mk ("p" ++ toString before.length) param.type param.optional param.rest =
      param := by
    rw [← numbered]
    cases param
    rfl
  have goesOn : (flagged param.optional "=" ++ after).head? ≠ some '|' := by
    cases param.optional with
    | false => exact noBar
    | true => simp [flagged]
  rw [functionParams]
  apply Takes.blanks skipped
  refine Takes.missed (t := ')') rfl (reads.head?_ne after) ?_
  apply Takes.bind (reads.unmarked stops)
  rw [if_neg Bool.false_ne_true]
  rw [reads.toList_text] at enough ⊢
  simp only [List.length_append] at enough
  rw [List.append_assoc, List.append_assoc]
  refine (eat_flagged param.rest rfl (reads.type.head?_ne (by decide) _)).bind ?_
  refine Takes.bind (unionType_takes reads.type (by omega) (stops.flagged param.optional) goesOn
    (reads.type.trimStart _)) ?_
  apply Takes.blanks (stops.flagged param.optional).trimStart
  apply Takes.bind (eat_flagged param.optional rfl noMark)
  apply Takes.blanks stops.trimStart
  rw [same]
  exact next

/-- The result is read behind a colon. -/
theorem functionResult_takes (reads : Reads returns)
    (enough : 5 * returns.text.toList.length + 1 ≤ budget) (stops : Stops rest) :
    Takes (functionResult budget params) (':' :: ' ' :: (returns.text.toList ++ rest))
      (.function params returns) rest := by
  obtain ⟨budget, rfl⟩ := Nat.exists_eq_add_of_le' (Nat.le_of_add_left_le enough)
  have spaced : Text.trimStart (' ' :: (returns.text.toList ++ rest)) =
      returns.text.toList ++ rest := by
    rw [trimStart_space, reads.trimStart]
  rw [functionResult]
  apply Takes.blanks (Text.trimStart_cons_of_not_blank _ (by decide))
  refine Takes.eaten ?_
  apply Takes.bind (reads.takes (Nat.le_of_succ_le_succ enough) stops spaced)
  exact .pure _ _

/-- The parameters that are left are read up to the closing parenthesis, and the result after it. -/
theorem functionParams_take {others : List Param}
    (reads : ∀ other ∈ param :: others, ReadsParam other)
    (numbered : ∀ (index : Nat) (other : Param), (before ++ param :: others)[index]? = some other →
      other.name = "p" ++ toString index)
    (result : Reads returns) (stops : Stops rest)
    (enough : 5 * ((Text.joinWith ", " ((param :: others).map Param.text)).toList.length +
      returns.text.toList.length) + 3 ≤ budget)
    (skipped : Text.trimStart cs = (Text.joinWith ", " ((param :: others).map Param.text)).toList ++
      ')' :: ':' :: ' ' :: (returns.text.toList ++ rest)) :
    Takes (functionParams budget before) cs (.function (before ++ param :: others) returns)
      rest := by
  have readsFirst := reads param List.mem_cons_self
  have named : param.name = "p" ++ toString before.length := numbered before.length param (by simp)
  have budgeted : 1 ≤ budget := Nat.le_of_add_left_le (Nat.le_of_add_left_le enough)
  induction others generalizing param before budget cs with
  | nil =>
      obtain ⟨budget, rfl⟩ := Nat.exists_eq_add_of_le' budgeted
      have closes : Stops (')' :: ':' :: ' ' :: (returns.text.toList ++ rest)) :=
        .cons (by decide) _
      have alone : Text.joinWith ", " ([param].map Param.text) = param.text := rfl
      rw [alone] at enough skipped
      refine functionParams_param readsFirst named (by omega) closes (by simp) (by simp) skipped ?_
      apply Takes.missed (t := ',') rfl (by simp)
      apply Takes.bind (expect_takes closes.trimStart)
      exact functionResult_takes result (by omega) stops
  | cons second others ih =>
      obtain ⟨budget, rfl⟩ := Nat.exists_eq_add_of_le' budgeted
      have readsLater : ∀ other ∈ second :: others, ReadsParam other :=
        fun other mem => reads other (List.mem_cons_of_mem _ mem)
      have readsSecond := readsLater second List.mem_cons_self
      rw [List.map_cons, List.map_cons, toList_joinWith_comma] at enough skipped
      simp only [List.length_append, List.length_cons] at enough
      simp only [List.append_assoc, List.cons_append] at skipped
      have spaced := trimStart_space_joinWith readsSecond.trimStart (others.map Param.text)
        (')' :: ':' :: ' ' :: (returns.text.toList ++ rest))
      refine functionParams_param readsFirst named (by omega) (.cons (by decide) _) (by simp)
        (by simp) skipped ?_
      refine Takes.eaten ?_
      rw [show before ++ param :: second :: others = before ++ [param] ++ second :: others from
        List.append_cons _ _ _] at numbered ⊢
      have next : second.name = "p" ++ toString (before ++ [param]).length :=
        numbered _ second (by simp)
      refine ih readsLater numbered ?_ spaced readsSecond next ?_
      · rw [List.map_cons]
        omega
      · omega

/-- A function type is printed as the list of its parameters and its result. -/
theorem toList_function (params : List Param) (returns : Ty) :
    (Ty.function params returns).text.toList =
      "function".toList ++ '(' :: ((Text.joinWith ", " (params.map Param.text)).toList ++
        ')' :: ':' :: ' ' :: returns.text.toList) := by
  rw [Ty.text_function, paramTexts_eq_map]
  simp

theorem endsName_parenthesis (rest : List Char) : EndsName "function".toList ('(' :: rest) where
  other := by
    intro c mem
    obtain rfl : '(' = c := by simpa using mem
    decide
  period := .inl (by decide)

/-- A function type is read back if its parts are and its parameters have the names that are counted
up for them. -/
theorem Reads.function (reads : ∀ param ∈ params, ReadsParam param) (result : Reads returns)
    (numbered : ∀ (index : Nat) (param : Param), params[index]? = some param →
      param.name = "p" ++ toString index) : Reads (.function params returns) where
  opens := ⟨'f', _, toList_function params returns, by decide⟩
  join := rfl
  takes := by
    intro budget cs rest enough stops skipped
    rw [toList_function] at enough skipped
    simp only [List.length_append, List.length_cons] at enough
    simp only [List.append_assoc, List.cons_append] at skipped
    obtain ⟨budget, rfl⟩ := Nat.exists_eq_add_of_le' (show 3 ≤ budget by omega)
    refine prefixedType_name (by decide) skipped ?_
    refine primaryType_name (by decide) (endsName_parenthesis _) ?_
    rw [if_pos rfl]
    apply Takes.bind (expect_takes (Text.trimStart_cons_of_not_blank _ (by decide)))
    cases params with
    | nil =>
        rw [functionParams]
        apply Takes.blanks (Text.trimStart_cons_of_not_blank _ (by decide))
        refine Takes.eaten ?_
        exact functionResult_takes result (by omega) stops
    | cons param others =>
        have solid := (reads param List.mem_cons_self).trimStart
        change Takes _ _ (Ty.function ([] ++ param :: others) returns) rest
        refine functionParams_take reads numbered result stops (by omega) ?_
        exact trimStart_joinWith solid ", " (others.map Param.text) _
  unmarked := by
    intro rest stops
    rw [toList_function, List.append_assoc, List.cons_append]
    exact receiverMark_misses_name (by decide) (endsName_parenthesis _) (by simp)

end Functions

end Reading

end ClassFactory
