/-
Module: ClassFactory.Proofs.Guard.Messages
Purpose: What is read from the message that some owner is without a property. A word ends at a dollar
  sign there: a property with a dollar sign is not read together with its owner, and what is read of
  it alone is what comes in front of the sign. The owner is read without the decoration that
  messages give to names.
Main exports: neverDefinedOn, IsIdentifier, IsUnbroken, any_namedProperty?, neverDefined?_message,
  IsCalled, leading_called_iff, Decorates, plainOwner_eq_iff, IsBare
-/
import ClassFactory.Guard
import Mathlib.Data.List.Infix
import Mathlib.Data.List.TakeWhile

namespace ClassFactory

/-! ## Ends of texts -/

section Ends

variable {α : Type} {p : α → Bool} {text rest : List α}

/-- What is left behind all items of a kind at the start does not begin with one. -/
theorem dropWhile_eq_iff : text.dropWhile p = rest ↔
    ∃ front, text = front ++ rest ∧ (∀ c ∈ front, p c = true) ∧ ∀ c ∈ rest.head?, p c = false := by
  constructor
  · rintro rfl
    refine ⟨text.takeWhile p, List.takeWhile_append_dropWhile.symm,
      fun c mem => List.mem_takeWhile_imp mem, fun c first => ?_⟩
    have stops := List.head?_dropWhile_not p text
    rw [Option.mem_def.mp first] at stops
    exact stops
  · rintro ⟨front, rfl, all, stops⟩
    rw [List.dropWhile_append_of_pos all]
    cases rest with
    | nil => rfl
    | cons c rest => exact List.dropWhile_cons_of_neg (Bool.eq_false_iff.mp (stops c rfl))

/-- What is left in front of all items of a kind at the end does not end in one. -/
theorem reverse_dropWhile_eq_iff : (text.reverse.dropWhile p).reverse = rest ↔
    ∃ back, text = rest ++ back ∧ (∀ c ∈ back, p c = true) ∧
      ∀ c ∈ rest.getLast?, p c = false := by
  rw [List.reverse_eq_iff, dropWhile_eq_iff]
  constructor
  · rintro ⟨front, whole, all, stops⟩
    refine ⟨front.reverse, ?_, fun c mem => all c (List.mem_reverse.mp mem), ?_⟩
    · rw [← List.reverse_inj, whole, List.reverse_append, List.reverse_reverse]
    · rwa [List.head?_reverse] at stops
  · rintro ⟨back, rfl, all, stops⟩
    refine ⟨back.reverse, List.reverse_append, fun c mem => all c (List.mem_reverse.mp mem), ?_⟩
    rwa [List.head?_reverse]

end Ends

/-! ## Messages -/

/-- The message that an owner is without a property. -/
def neverDefinedOn (property owner : String) : String :=
  "Property " ++ property ++ " never defined on " ++ owner

/-- The text consists of what identifiers are made of: word characters and dollar signs. -/
def IsIdentifier (text : String) : Prop :=
  text ≠ "" ∧ ∀ c ∈ text.toList, Text.isWordCharacter c = true ∨ c = '$'

instance : DecidablePred IsIdentifier := fun text =>
  decidable_of_iff
    (text ≠ "" ∧ text.toList.all (fun c => Text.isWordCharacter c || c = '$') = true)
    (by simp [IsIdentifier])

/-- The text has characters, and no blank is among them. -/
def IsUnbroken (text : String) : Prop :=
  text ≠ "" ∧ ∀ c ∈ text.toList, Text.isBlank c = false

instance : DecidablePred IsUnbroken := fun text =>
  decidable_of_iff (text ≠ "" ∧ text.toList.all (fun c => !Text.isBlank c) = true)
    (by simp [IsUnbroken])

/-- A text in two parts around a blank that is in neither first part. -/
theorem append_blank_inj {one other rest more : List Char} (unbroken : ' ' ∉ one)
    (unbroken' : ' ' ∉ other) (same : one ++ ' ' :: rest = other ++ ' ' :: more) :
    one = other ∧ rest = more := by
  have blanks : ∀ {word : List Char}, ' ' ∉ word → ∀ c ∈ word, decide (c = ' ') = false :=
    fun without c mem => decide_eq_false fun blank => without (blank ▸ mem)
  have pieces := congrArg (Text.splitOnChar (· = ' ')) same
  rw [Text.splitOnChar_append (blanks unbroken) rfl,
    Text.splitOnChar_append (blanks unbroken') rfl] at pieces
  obtain rfl := (List.cons.inj pieces).1
  exact ⟨rfl, (List.cons.inj (List.append_cancel_left same)).2⟩

/-- A place in a text where `Property ` stands: it ends the first word, or lies behind it. -/
theorem property_within {word rest place after : List Char} (unbroken : ' ' ∉ word)
    (within : place <:+ word ++ ' ' :: rest)
    (found : Text.dropStart? "Property ".toList place = some after) :
    ("Property".toList <:+ word ∧ after = rest) ∨ place <:+ rest := by
  have starts : place = "Property".toList ++ ' ' :: after := by
    simpa using Text.eq_append_of_dropStart? found
  obtain ⟨before, whole⟩ := within
  rcases List.append_eq_append_iff.mp whole with ⟨tail, rfl, same⟩ | ⟨tail, rfl, same⟩
  · rw [starts] at same
    obtain ⟨rfl, rfl⟩ := append_blank_inj (by decide)
      (fun blank => unbroken (List.mem_append_right _ blank)) same
    exact .inl ⟨List.suffix_append _ _, rfl⟩
  · cases tail with
    | nil =>
        rw [List.nil_append, starts] at same
        cases same
    | cons blank tail =>
        obtain ⟨-, rfl⟩ := List.cons.inj same
        exact .inr (List.suffix_append _ _)

theorem isWordCharacter_blank : Text.isWordCharacter ' ' = false := by decide

/-- A word ends at a blank. -/
theorem takeWhile_word (word rest : List Char) :
    (word ++ ' ' :: rest).takeWhile Text.isWordCharacter =
      word.takeWhile Text.isWordCharacter := by
  induction word with
  | nil => exact List.takeWhile_cons_of_neg (Bool.eq_false_iff.mp isWordCharacter_blank)
  | cons c word ih => rw [List.cons_append, List.takeWhile_cons, List.takeWhile_cons, ih]

/-- Reading a word stops at the blank behind it. -/
theorem dropWhile_word (word rest : List Char) :
    (word ++ ' ' :: rest).dropWhile Text.isWordCharacter =
      word.dropWhile Text.isWordCharacter ++ ' ' :: rest := by
  induction word with
  | nil => exact List.dropWhile_cons_of_neg (Bool.eq_false_iff.mp isWordCharacter_blank)
  | cons c word ih =>
      rw [List.cons_append, List.dropWhile_cons, List.dropWhile_cons, ih]
      split <;> rfl

/-- The property that is read where `Property ` stands in front of some word. -/
theorem propertyAt?_word {place word rest : List Char}
    (found : Text.dropStart? "Property ".toList place = some (word ++ ' ' :: rest)) :
    propertyAt? place =
      if (word.takeWhile Text.isWordCharacter).isEmpty then none
      else some (String.ofList (word.takeWhile Text.isWordCharacter),
        word.dropWhile Text.isWordCharacter ++ ' ' :: rest) := by
  rw [propertyAt?, found]
  dsimp only
  rw [takeWhile_word, dropWhile_word]

/-- What is read at a place, is read behind `Property `. -/
theorem exists_of_propertyAt? {place : List Char} {read : String × List Char}
    (found : propertyAt? place = some read) :
    ∃ after, Text.dropStart? "Property ".toList place = some after := by
  rw [propertyAt?] at found
  split at found
  next after starts => exact ⟨after, starts⟩
  next => cases found

section Messages

variable {property owner : String}

/-- An identifier has no blank in it. -/
theorem IsIdentifier.unbroken (identifier : IsIdentifier property) : ' ' ∉ property.toList := by
  intro blank
  rcases identifier.2 _ blank with word | dollar
  · cases isWordCharacter_blank.symm.trans word
  · cases dollar

/-- The message, word by word. -/
theorem toList_neverDefinedOn (property owner : String) :
    (neverDefinedOn property owner).toList =
      "Property".toList ++ ' ' :: (property.toList ++ ' ' :: ("never".toList ++ ' ' ::
        ("defined".toList ++ ' ' :: ("on".toList ++ ' ' :: owner.toList)))) := by
  simp [neverDefinedOn]

/-- The message starts with the word and then tells the property. -/
theorem dropStart?_neverDefinedOn (property owner : String) :
    Text.dropStart? "Property ".toList (neverDefinedOn property owner).toList =
      some (property.toList ++ ' ' :: ("never defined on ".toList ++ owner.toList)) := by
  have whole : (neverDefinedOn property owner).toList = "Property ".toList ++
      (property.toList ++ ' ' :: ("never defined on ".toList ++ owner.toList)) := by
    simp [neverDefinedOn]
  rw [whole, Text.dropStart?_append]

section Places

variable {place after : List Char} (identifier : IsIdentifier property)
  (unbroken : IsUnbroken owner) (within : place <:+ (neverDefinedOn property owner).toList)

include identifier unbroken within

/-- What stands behind `Property ` in a message: the property and all that follows, or what follows
the property, if that itself ends in `Property`. -/
theorem after_property (found : Text.dropStart? "Property ".toList place = some after) :
    after = property.toList ++ ' ' :: ("never defined on ".toList ++ owner.toList) ∨
      after = "never".toList ++ ' ' :: ("defined on ".toList ++ owner.toList) := by
  rw [toList_neverDefinedOn] at within
  rcases property_within (by decide) within found with ⟨-, rfl⟩ | within
  · exact .inl (by simp)
  rcases property_within identifier.unbroken within found with ⟨-, rfl⟩ | within
  · exact .inr (by simp)
  -- None of the fixed words of the message ends so, and the owner has no blank.
  rcases property_within (by decide) within found with ⟨ends, -⟩ | within
  · exact absurd ends (by decide)
  rcases property_within (by decide) within found with ⟨ends, -⟩ | within
  · exact absurd ends (by decide)
  rcases property_within (by decide) within found with ⟨ends, -⟩ | within
  · exact absurd ends (by decide)
  have blank : ' ' ∈ place := by
    rw [Text.eq_append_of_dropStart? found]
    exact List.mem_append_left _ (by decide)
  cases unbroken.2 _ (within.subset blank)

/-- Whatever property is read in a message is what comes first in the property it is about, or the
word `never`. -/
theorem propertyAt?_message {read : String × List Char} (found : propertyAt? place = some read) :
    (property.toList.takeWhile Text.isWordCharacter ≠ [] ∧
        read = (String.ofList (property.toList.takeWhile Text.isWordCharacter),
          property.toList.dropWhile Text.isWordCharacter ++
            ' ' :: ("never defined on ".toList ++ owner.toList))) ∨
      read = ("never", ' ' :: ("defined on ".toList ++ owner.toList)) := by
  obtain ⟨after, starts⟩ := exists_of_propertyAt? found
  rcases after_property identifier unbroken within starts with rfl | rfl
  · rw [propertyAt?_word starts] at found
    split at found
    next => cases found
    next some =>
      cases found
      exact .inl ⟨by simpa using some, rfl⟩
  · rw [propertyAt?_word starts] at found
    cases found
    exact .inr rfl

end Places

/-- The library calls the property that a message names just if it calls what comes first in the
property the message is about. -/
theorem any_namedProperty? (identifier : IsIdentifier property) (unbroken : IsUnbroken owner) :
    (namedProperty? (neverDefinedOn property owner)).any isDispatched =
      isDispatched (String.ofList (property.toList.takeWhile Text.isWordCharacter)) := by
  rw [namedProperty?, Option.any_map]
  have first := propertyAt?_word (dropStart?_neverDefinedOn property owner)
  by_cases none : property.toList.takeWhile Text.isWordCharacter = []
  · have quiet : isDispatched (String.ofList []) = false := by decide
    rw [none, quiet]
    cases found : Text.firstAt? propertyAt? (neverDefinedOn property owner).toList with
    | none => rfl
    | some read =>
        obtain ⟨place, within, there⟩ := Text.exists_suffix_of_firstAt? found
        rcases propertyAt?_message identifier unbroken within there with ⟨some, -⟩ | rfl
        · exact absurd none some
        · exact (by decide : isDispatched "never" = false)
  · rw [if_neg (by simpa using none)] at first
    rw [Text.firstAt?_of_head first]
    rfl

/-- A dollar sign in the property ends the word where ` never` should follow, so that no owner is
read. -/
theorem firstAt?_of_dollar (identifier : IsIdentifier property) (unbroken : IsUnbroken owner)
    (dollar : '$' ∈ property.toList) :
    Text.firstAt? neverDefinedAt? (neverDefinedOn property owner).toList = none := by
  obtain ⟨c, rest, cut⟩ : ∃ c rest, property.toList.dropWhile Text.isWordCharacter = c :: rest := by
    refine List.exists_cons_of_ne_nil fun none => ?_
    cases List.dropWhile_eq_nil_iff.mp none _ dollar
  have notBlank : ' ' ≠ c := by
    rintro rfl
    exact identifier.unbroken ((List.dropWhile_suffix _).subset (cut ▸ List.mem_cons_self))
  cases found : Text.firstAt? neverDefinedAt? (neverDefinedOn property owner).toList with
  | none => rfl
  | some told =>
      obtain ⟨place, within, there⟩ := Text.exists_suffix_of_firstAt? found
      obtain ⟨read, named, follows⟩ := Option.bind_eq_some_iff.mp there
      rcases propertyAt?_message identifier unbroken within named with ⟨-, rfl⟩ | rfl
      · rw [cut] at follows
        simp [Text.dropStart?, notBlank] at follows
      · simp [Text.dropStart?] at follows

/-- A property without a dollar sign is read in full, and the owner behind it. -/
theorem firstAt?_of_plain (identifier : IsIdentifier property) (unbroken : IsUnbroken owner)
    (plain : '$' ∉ property.toList) :
    Text.firstAt? neverDefinedAt? (neverDefinedOn property owner).toList =
      some (property, owner.toList) := by
  have words : ∀ c ∈ property.toList, Text.isWordCharacter c = true := fun c mem =>
    (identifier.2 c mem).resolve_right fun dollar => plain (dollar ▸ mem)
  have named : property.toList ≠ [] := fun none => identifier.1 (String.toList_eq_nil_iff.mp none)
  have first := propertyAt?_word (dropStart?_neverDefinedOn property owner)
  rw [List.takeWhile_eq_self_iff.mpr words, List.dropWhile_eq_nil_iff.mpr words,
    if_neg (by simpa using named), String.ofList_toList] at first
  have follows : Text.dropStart? " never defined on ".toList
      ([] ++ ' ' :: ("never defined on ".toList ++ owner.toList)) = some owner.toList :=
    Text.dropStart?_append " never defined on ".toList owner.toList
  have whole : owner.toList.takeWhile (fun c => !Text.isBlank c) = owner.toList :=
    List.takeWhile_eq_self_iff.mpr fun c mem => by rw [unbroken.2 c mem]; rfl
  have some : owner.toList ≠ [] := fun none => unbroken.1 (String.toList_eq_nil_iff.mp none)
  refine Text.firstAt?_of_head (Option.bind_eq_some_iff.mpr
    ⟨_, first, Option.bind_eq_some_iff.mpr ⟨_, follows, ?_⟩⟩)
  rw [whole, if_neg (by simpa using some)]

/-- The property and the owner are told from a message just if no dollar sign is in the property. -/
theorem neverDefined?_message (identifier : IsIdentifier property) (unbroken : IsUnbroken owner) :
    neverDefined? (neverDefinedOn property owner) =
      if '$' ∈ property.toList then none else some (property, plainOwner owner.toList) := by
  rw [neverDefined?]
  split
  next dollar => rw [firstAt?_of_dollar identifier unbroken dollar, Option.map_none]
  next plain => rw [firstAt?_of_plain identifier unbroken plain, Option.map_some]

end Messages

/-! ## Names that the library calls -/

/-- The library calls members of that name: it is the name of a hook or of a method that a component
may implement. -/
def IsCalled (name : String) : Prop :=
  (∃ hook : Hook, hook.name = name) ∨ name ∈ standardMethods.map Prod.fst

/-- What is dispatched is what the library calls. -/
theorem isDispatched_iff {name : String} : isDispatched name = true ↔ IsCalled name := by
  rw [isDispatched, Bool.or_eq_true, IsCalled]
  refine or_congr ⟨fun found => ?_, ?_⟩ ?_
  · obtain ⟨hook, found⟩ := Option.isSome_iff_exists.mp found
    exact ⟨hook, Hook.name_of_ofName? found⟩
  · rintro ⟨hook, rfl⟩
    rw [Hook.ofName?_name]
    rfl
  · simp

/-- The names of what the library calls are words. -/
theorem IsCalled.word {name : String} (called : IsCalled name) :
    ∀ c ∈ name.toList, Text.isWordCharacter c = true := by
  rcases called with ⟨hook, rfl⟩ | standard
  · exact List.all_eq_true.mp (by cases hook <;> decide)
  · have each : (standardMethods.map Prod.fst).all (·.toList.all Text.isWordCharacter) = true := by
      decide +kernel
    exact List.all_eq_true.mp (List.all_eq_true.mp each name standard)

/-- What comes first in an identifier is a name that the library calls just if the identifier is such
a name, or begins with one and goes on with a dollar sign. -/
theorem leading_called_iff {property : String} (identifier : IsIdentifier property) :
    IsCalled (String.ofList (property.toList.takeWhile Text.isWordCharacter)) ↔
      ∃ name, IsCalled name ∧ (property = name ∨ ∃ rest, property = name ++ "$" ++ rest) := by
  constructor
  · intro called
    refine ⟨_, called, ?_⟩
    have whole : property.toList.takeWhile Text.isWordCharacter ++
        property.toList.dropWhile Text.isWordCharacter = property.toList :=
      List.takeWhile_append_dropWhile
    cases cut : property.toList.dropWhile Text.isWordCharacter with
    | nil =>
        rw [cut, List.append_nil] at whole
        rw [whole, String.ofList_toList]
        exact .inl rfl
    | cons c rest =>
        obtain ⟨-, -, -, stops⟩ := dropWhile_eq_iff.mp cut
        have mem : c ∈ property.toList :=
          (List.dropWhile_suffix _).subset (cut ▸ List.mem_cons_self)
        obtain rfl : c = '$' := by
          refine (identifier.2 c mem).resolve_left fun word => ?_
          rw [stops c rfl] at word
          cases word
        refine .inr ⟨String.ofList rest, ?_⟩
        rw [cut] at whole
        rw [← String.toList_inj]
        simpa using whole.symm
  · rintro ⟨name, called, rfl | ⟨rest, rfl⟩⟩
    · rwa [List.takeWhile_eq_self_iff.mpr called.word, String.ofList_toList]
    · have ended : ("$" ++ rest).toList.takeWhile Text.isWordCharacter = [] := by
        rw [String.toList_append]
        exact List.takeWhile_cons_of_neg (by decide)
      rwa [String.append_assoc, String.toList_append, List.takeWhile_append_of_pos called.word,
        ended, List.append_nil, String.ofList_toList]

/-! ## Owners -/

/-- What messages put in front of a name. -/
def IsMark (c : Char) : Prop := c = '!' ∨ c = '?'
deriving Decidable

/-- The punctuation that may follow a name. -/
def IsStop (c : Char) : Prop := c = '.' ∨ c = ','
deriving Decidable

/-- The owner is the name with its decoration: marks in front of it, and behind it copies of
`.prototype` and then punctuation. Nothing that is left of the name could be decoration, too. -/
def Decorates (owner name : String) : Prop :=
  ∃ marks copies stops,
    let body := name.toList ++ (List.replicate copies ".prototype".toList).flatten
    owner.toList = marks ++ (body ++ stops) ∧ (∀ c ∈ marks, IsMark c) ∧ (∀ c ∈ stops, IsStop c) ∧
      (∀ c ∈ (body ++ stops).head?, ¬ IsMark c) ∧ (∀ c ∈ body.getLast?, ¬ IsStop c) ∧
        ¬ ".prototype".toList <:+ name.toList

theorem isMark_iff {c : Char} : (c = '!' || c = '?') = true ↔ IsMark c := by
  simp [IsMark]

theorem isStop_iff {c : Char} : (c = '.' || c = ',') = true ↔ IsStop c := by
  simp [IsStop]

/-- The owner without its decoration is the name that it spells. -/
theorem plainOwner_eq_iff {owner name : String} :
    plainOwner owner.toList = name ↔ Decorates owner name := by
  unfold plainOwner Decorates
  rw [← String.toList_inj, String.toList_ofList, Text.trimSuffixes_eq_iff (by decide)]
  simp only [← isMark_iff, ← isStop_iff, Bool.not_eq_true]
  constructor
  · rintro ⟨copies, cut, proper⟩
    obtain ⟨stops, rest, stopped, ends⟩ := reverse_dropWhile_eq_iff.mp cut
    obtain ⟨marks, whole, marked, begins⟩ := dropWhile_eq_iff.mp rest
    exact ⟨marks, copies, stops, whole, marked, stopped, begins, ends, proper⟩
  · rintro ⟨marks, copies, stops, whole, marked, stopped, begins, ends, proper⟩
    have rest := dropWhile_eq_iff.mpr ⟨marks, whole, marked, begins⟩
    exact ⟨copies, reverse_dropWhile_eq_iff.mpr ⟨stops, rest, stopped, ends⟩, proper⟩

/-- Nothing of the name could be taken for decoration. -/
structure IsBare (name : String) : Prop where
  begins : ∀ c ∈ name.toList.head?, ¬ IsMark c
  ends : ∀ c ∈ name.toList.getLast?, ¬ IsStop c
  proper : ¬ ".prototype".toList <:+ name.toList

/-- Whether a name is bare is told by its ends. -/
theorem isBare_iff {name : String} : IsBare name ↔
    name.toList.head?.all (fun c => !decide (IsMark c)) = true ∧
      name.toList.getLast?.all (fun c => !decide (IsStop c)) = true ∧
        ¬ ".prototype".toList <:+ name.toList := by
  simp only [Option.all_eq_true, Bool.not_eq_true', decide_eq_false_iff_not]
  exact ⟨fun bare => ⟨bare.begins, bare.ends, bare.proper⟩,
    fun ⟨begins, ends, proper⟩ => ⟨begins, ends, proper⟩⟩

instance : DecidablePred IsBare := fun _ => decidable_of_iff _ isBare_iff.symm

theorem toList_interfaceOf (name : String) :
    (interfaceOf name).toList =
      name.toList.map (fun c => if c = '.' then '_' else c) ++ "Interface".toList := by
  simp [interfaceOf, identifierOf, Text.replaceChar]

namespace IsBare

variable {name : String}

/-- A bare name decorates itself. -/
theorem decorates (bare : IsBare name) : Decorates name name :=
  ⟨[], 0, [], by simp, by simp, by simp, by simpa using bare.begins, by simpa using bare.ends,
    bare.proper⟩

/-- The prototype of a bare name decorates the name. -/
theorem decorates_prototype (bare : IsBare name) : Decorates (name ++ ".prototype") name := by
  refine ⟨[], 1, [], by simp, by simp, by simp, ?_, ?_, bare.proper⟩
  · have begins := bare.begins
    cases spelled : name.toList with
    | nil => simp [IsMark]
    | cons c cs =>
        rw [spelled] at begins
        exact begins
  · simp [IsStop]

/-- The name of an interface is bare if the name of the type is. -/
theorem interface (bare : IsBare name) : IsBare (interfaceOf name) := by
  constructor
  · rw [toList_interfaceOf]
    have begins := bare.begins
    cases spelled : name.toList with
    | nil => simp [IsMark]
    | cons c cs =>
        rw [spelled] at begins
        have first := begins c rfl
        simp only [List.map_cons, List.cons_append, List.head?_cons, Option.mem_def,
          Option.some.injEq, forall_eq']
        split
        · simp [IsMark]
        · exact first
  · simp [toList_interfaceOf, IsStop]
  · rw [toList_interfaceOf]
    intro ends
    have shorter : "Interface".toList <:+ ".prototype".toList :=
      List.suffix_of_suffix_length_le (List.suffix_append _ _) ends (by decide)
    exact absurd shorter (by decide)

end IsBare

end ClassFactory
