/-
Module: ClassFactory.Types.Text
Purpose: Types as text, in the notation of documentation comments: `(number|undefined)`,
  `function(number, string=): ?`, `Array<T>`. A field that may be absent is written with
  `undefined` among its types.
Main exports: Ty.text, Signature.text, Fields.text
-/
import ClassFactory.Types.Union
import ClassFactory.Text.Search

namespace ClassFactory

/-- A literal as text; strings stand in double quotes and are not escaped. -/
def Literal.text : Literal → String
  | .string value => "\"" ++ value ++ "\""
  | .number text => text
  | .boolean value => if value then "true" else "false"

/-- A union of written members. -/
def unionText (members : List String) : String :=
  "(" ++ Text.joinWith "|" members ++ ")"

/-- The written members of a union that differ as types, each at its first occurrence. -/
def distinctTexts (written : List (Ty × String)) : List (Ty × String) :=
  written.foldl
    (fun kept item => if kept.any (fun k => k.1.same item.1) then kept else kept ++ [item]) []

/-- A type with `undefined` among its alternatives, from its written members if it is a union and
its own text otherwise. -/
def widenedText (members : Option (List (Ty × String))) (own : String) : String :=
  match members with
  | some written =>
    match (distinctTexts written).map Prod.snd with
    | [] => "undefined"
    | texts => unionText (texts ++ ["undefined"])
  | none => unionText [own, "undefined"]

/-- A parameter from the text of its type. -/
def paramText (type : String) (optional rest : Bool) : String :=
  if rest then "..." ++ type else if optional then type ++ "=" else type

mutual
/-- A type as text. -/
def Ty.text : Ty → String
  | .unknown => "?"
  | .primitive kind => kind.name
  | .literal value => value.text
  | .null => "null"
  | .undefined => "undefined"
  | .array item => "Array<" ++ item.text ++ ">"
  | .map value => "Object<string, " ++ value.text ++ ">"
  | .record fields => "\x7b" ++ Text.joinWith ", " (fieldTexts fields) ++ "\x7d"
  | .union members => unionText ((writtenMembers members).map Prod.snd)
  | .function params returns =>
    "function(" ++ Text.joinWith ", " (paramTexts params) ++ "): " ++ returns.text
  | .anyFunction => "!Function"
  | .anyObject => "!Object"
  | .named name => name
  | .constructor component => "function(new:" ++ component ++ ")"
  | .element (some component) => "ReactElement<" ++ component ++ ">"
  | .element none => "ReactElement"
  | .renderable => "ReactChild"
termination_by structural type => type

/-- The members of a union, each with its text. -/
def Ty.alternatives : Ty → Option (List (Ty × String))
  | .union members => some (writtenMembers members)
  | _ => none
termination_by structural type => type

/-- Each type with its text. -/
def writtenMembers : List Ty → List (Ty × String)
  | [] => []
  | type :: rest => (type, type.text) :: writtenMembers rest
termination_by structural types => types

/-- A field as text. -/
def Field.text : Field → String
  | .mk name type optional =>
    name ++ ": " ++
      (if optional && !type.admitsNullish then widenedText type.alternatives type.text
      else type.text)
termination_by structural field => field

/-- Each field as text. -/
def fieldTexts : List Field → List String
  | [] => []
  | field :: rest => field.text :: fieldTexts rest
termination_by structural fields => fields

/-- A parameter as text; its name is not written. -/
def Param.text : Param → String
  | .mk _ type optional rest => paramText type.text optional rest
termination_by structural param => param

/-- Each parameter as text. -/
def paramTexts : List Param → List String
  | [] => []
  | param :: rest => param.text :: paramTexts rest
termination_by structural params => params
end

section

variable (value : Literal) (item type : Ty) (fields : List Field) (members : List Ty)
  (params : List Param) (component : String)

@[simp] theorem Ty.text_literal : (Ty.literal value).text = value.text := rfl

@[simp] theorem Ty.text_array : (Ty.array item).text = "Array<" ++ item.text ++ ">" := rfl

@[simp] theorem Ty.text_map : (Ty.map item).text = "Object<string, " ++ item.text ++ ">" := rfl

@[simp] theorem Ty.text_record : (Ty.record fields).text =
    "\x7b" ++ Text.joinWith ", " (fieldTexts fields) ++ "\x7d" := rfl

@[simp] theorem Ty.text_union :
    (Ty.union members).text = unionText ((writtenMembers members).map Prod.snd) := rfl

@[simp] theorem Ty.text_function : (Ty.function params type).text =
    "function(" ++ Text.joinWith ", " (paramTexts params) ++ "): " ++ type.text := rfl

@[simp] theorem Ty.text_named : (Ty.named component).text = component := rfl

@[simp] theorem Ty.text_elementOf :
    (Ty.element (some component)).text = "ReactElement<" ++ component ++ ">" := rfl

@[simp] theorem map_snd_writtenMembers :
    (writtenMembers members).map Prod.snd = members.map Ty.text := by
  induction members with
  | nil => rfl
  | cons type rest ih => exact congrArg (type.text :: ·) ih

@[simp] theorem fieldTexts_eq_map : fieldTexts fields = fields.map Field.text := by
  induction fields with
  | nil => rfl
  | cons field rest ih => exact congrArg (field.text :: ·) ih

@[simp] theorem paramTexts_eq_map : paramTexts params = params.map Param.text := by
  induction params with
  | nil => rfl
  | cons param rest ih => exact congrArg (param.text :: ·) ih

end

/-- A signature as text. -/
def Signature.text (signature : Signature) : String :=
  signature.toType.text

/-- A record as text. -/
def Fields.text (fields : List Field) : String :=
  (Ty.record fields).text

end ClassFactory
