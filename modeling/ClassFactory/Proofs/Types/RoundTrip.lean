/-
Module: ClassFactory.Proofs.Types.RoundTrip
Purpose: Reading the text of a type gives the type back, however types are nested, as long as what
  the text does not show is as reading makes it: parameters are named by position, a field may be
  absent just if its type admits it, and unions are in normal form.
Main exports: Ty.Readable, Ty.Readable.reads, readType_text, readDeclaredType_marked
-/
import ClassFactory.Proofs.Types.Composite

namespace ClassFactory

/-- The types that their texts denote. -/
inductive Ty.Readable : Ty → Prop where
  | unknown : Readable .unknown
  | primitive (kind : Primitive) : Readable (.primitive kind)
  | text {value : String} (noQuote : '"' ∉ value.toList) : Readable (.literal (.string value))
  | null : Readable .null
  | undefined : Readable .undefined
  | array {item : Ty} (ofItem : Readable item) : Readable (.array item)
  | map {value : Ty} (ofValue : Readable value) : Readable (.map value)
  | record {fields : List Field} (types : ∀ field ∈ fields, Readable field.type)
      (names : ∀ field ∈ fields, Reading.isNameText field.name = true)
      (distinct : (fields.map Field.name).Nodup)
      (optional : ∀ field ∈ fields, field.optional = field.type.admitsNullish) :
      Readable (.record fields)
  | union {members : List Ty} (types : ∀ type ∈ members, Readable type)
      (several : 2 ≤ members.length)
      (distinct : members.Pairwise fun one other => one.same other = false)
      (flat : ∀ type ∈ members, type ≠ .unknown ∧ ∀ inner, type ≠ .union inner) :
      Readable (.union members)
  | function {params : List Param} {returns : Ty} (types : ∀ param ∈ params, Readable param.type)
      (result : Readable returns)
      (numbered : ∀ (index : Nat) (param : Param), params[index]? = some param →
        param.name = "p" ++ toString index)
      (marks : ∀ param ∈ params, ¬ (param.optional = true ∧ param.rest = true)) :
      Readable (.function params returns)
  | anyFunction : Readable .anyFunction
  | anyObject : Readable .anyObject
  | named {name : String} (isName : isTypeName name = true) : Readable (.named name)
  | element : Readable (.element none)
  | elementOf {component : String} (isName : isTypeName component = true) :
      Readable (.element (some component))
  | renderable : Readable .renderable

open Reading in
/-- Reading gives back such a type wherever it stands. -/
theorem Ty.Readable.reads {type : Ty} (readable : type.Readable) : Reads type := by
  induction readable with
  | unknown => exact .unknown
  | primitive kind => exact .primitive kind
  | text noQuote => exact .text noQuote
  | null => exact .of_word "null" (by decide) (by decide) rfl rfl rfl
  | undefined => exact .of_word "undefined" (by decide) (by decide) rfl rfl rfl
  | array _ ih => exact .array ih
  | map _ ih => exact .map ih
  | record _ names distinct optional ih =>
      refine .record ?_ distinct
      intro field mem
      exact ⟨ih field mem, names field mem, optional field mem⟩
  | union _ several distinct flat ih => exact .union ih several flat distinct
  | function _ _ numbered marks ofParams ofResult =>
      refine .function ?_ ofResult numbered
      intro param mem
      exact ⟨ofParams param mem, marks param mem⟩
  | anyFunction => exact .of_marked_word "Function" (by decide) (by decide) rfl rfl rfl
  | anyObject => exact .of_marked_word "Object" (by decide) (by decide) rfl rfl rfl
  | named isName => exact .named isName
  | element => exact .of_word "ReactElement" (by decide) (by decide) rfl rfl rfl
  | elementOf isName => exact .elementOf isName
  | renderable => exact .of_word "ReactChild" (by decide) (by decide) rfl rfl rfl

open Reading in
/-- The text of a type is read as the type itself. -/
theorem readType_text {type : Ty} (readable : type.Readable) : readType type.text = type := by
  have reads := readable.reads
  have solid : Text.trimStart type.text.toList = type.text.toList := by
    have bare := reads.trimStart []
    rwa [List.append_nil] at bare
  have noDots : Text.dropStart? ['.', '.', '.'] type.text.toList = none := by
    obtain ⟨c, cs, spelled, opens⟩ := reads.opens
    rw [spelled]
    refine if_neg ?_
    rintro rfl
    exact absurd opens (by decide)
  have enough : 5 * type.text.toList.length + 2 ≤ budgetFor type.text.toList := by
    unfold budgetFor
    omega
  have whole : (unionType (budgetFor type.text.toList)).run type.text.toList = (some type, []) :=
    unionType_takes reads enough .nil (by simp) (by rw [solid, List.append_nil])
  rw [readType, readDeclaredType]
  simp only [solid, noDots, whole]
  rfl

open Reading in
/-- The text of a type with a mark behind it, or without one, is read as the type and its mark. -/
theorem readDeclaredType_marked {type : Ty} (readable : type.Readable) (marked : Bool) :
    readDeclaredType (type.text ++ if marked then "=" else "") =
      { type := type, optional := marked, rest := false } := by
  have reads := readable.reads
  obtain ⟨mark, spelled, stops, noBar⟩ : ∃ mark : List Char,
      (type.text ++ if marked then "=" else "").toList = type.text.toList ++ mark ∧
        Stops mark ∧ mark.head? ≠ some '|' := by
    cases marked with
    | true => exact ⟨['='], by simp, .cons (by decide) [], by simp⟩
    | false => exact ⟨[], by simp, .nil, by simp⟩
  have solid : Text.trimStart (type.text.toList ++ mark) = type.text.toList ++ mark :=
    reads.trimStart mark
  have noDots : Text.dropStart? ['.', '.', '.'] (type.text.toList ++ mark) = none := by
    obtain ⟨c, cs, written, opens⟩ := reads.opens
    rw [written]
    refine if_neg ?_
    rintro rfl
    exact absurd opens (by decide)
  have enough : 5 * type.text.toList.length + 2 ≤ budgetFor (type.text.toList ++ mark) := by
    unfold budgetFor
    rw [List.length_append]
    omega
  have whole : (unionType (budgetFor (type.text.toList ++ mark))).run (type.text.toList ++ mark) =
      (some type, mark) :=
    unionType_takes reads enough stops noBar solid
  rw [readDeclaredType, spelled]
  simp only [solid, noDots, whole]
  cases marked with
  | true =>
    obtain rfl : mark = ['='] := by simpa using spelled.symm
    rfl
  | false =>
    obtain rfl : mark = [] := by simpa using spelled.symm
    rfl

/-- The type of a function with a parameter that may be left out, one that takes all further
arguments, and parts of several kinds. -/
def renderHook : Ty :=
  .function
    [.mk "p0" (.union [.number, .null]) true false,
      .mk "p1" (.record [.mk "key" .string false, .mk "for" .unknown true]) false true]
    (.map (.element (some "Panel")))

/-- Its parts are as type expressions have them. -/
theorem renderHook_readable : renderHook.Readable := by
  have fields : ∀ field ∈ [Field.mk "key" .string false, .mk "for" .unknown true],
      field.type.Readable ∧ Reading.isNameText field.name = true ∧
        field.optional = field.type.admitsNullish := by
    simp only [List.mem_cons, List.not_mem_nil, or_false, forall_eq_or_imp, forall_eq]
    exact ⟨⟨.primitive _, by decide, rfl⟩, .unknown, by decide, rfl⟩
  have members : ∀ type ∈ [Ty.number, .null], type.Readable ∧ type ≠ .unknown ∧
      ∀ inner, type ≠ .union inner := by
    simp only [List.mem_cons, List.not_mem_nil, or_false, forall_eq_or_imp, forall_eq]
    exact ⟨⟨.primitive _, by simp⟩, .null, by simp⟩
  refine .function ?_ (.map (.elementOf (by decide))) ?_ (by decide)
  · simp only [List.mem_cons, List.not_mem_nil, or_false, forall_eq_or_imp, forall_eq]
    constructor
    · exact .union (fun type mem => (members type mem).1) (by decide) (by simp [Ty.same])
        fun type mem => (members type mem).2
    · exact .record (fun field mem => (fields field mem).1)
        (fun field mem => (fields field mem).2.1) (by decide)
        fun field mem => (fields field mem).2.2
  · intro index param found
    match index, found with
    | 0, found => cases found; rfl
    | 1, found => cases found; rfl

theorem readType_text_renderHook :
    renderHook.Readable ∧ readType renderHook.text = renderHook :=
  ⟨renderHook_readable, readType_text renderHook_readable⟩

example : renderHook.text = "function((number|null)=, ...\x7bkey: string, for: ?\x7d): " ++
    "Object<string, ReactElement<Panel>>" := by
  decide +kernel

end ClassFactory
