/-
Module: ClassFactory.Usage.Checks
Purpose: What is checked where a component is used: calls of its methods and statics, the fields of
  its state, and the props and children of its elements. Each check gives its findings in order.
Main exports: FoundType, FoundArguments, GivenProps, argumentProblems, callProblems,
  staticProblems, stateProblems, elementProblems, receiverMemberProblems
-/
import ClassFactory.Diagnostic.Basic
import ClassFactory.Text.Suggestion
import ClassFactory.Types.Assignable
import ClassFactory.Types.Text
import ClassFactory.Usage.Infer

namespace ClassFactory

/-- A type found at a place. -/
structure FoundType where
  type : Ty
  site : Site
deriving Inhabited

/-- Statics that every function has. -/
def functionStatics : List String := ["prototype", "call", "apply", "bind"]

/-- A finding about something of a component that has no such name, with the nearest name. -/
def unknownProblem (code : DiagnosticCode) (what : String) (name owner : String)
    (known : List String) (place : Site) : Diagnostic :=
  Diagnostic.error code
    ("unknown " ++ what ++ " `" ++ name ++ "` " ++ owner ++ Text.suggestionTail name known) place

/-- How many arguments a signature takes, in words. -/
def arityText (signature : Signature) : String :=
  let least := toString signature.minArity
  match signature.maxArity? with
  | some most =>
    if most = signature.minArity then "exactly " ++ toString most
    else "at least " ++ least ++ " and no more than " ++ toString most
  | none => "at least " ++ least

/-- Whether a signature takes that many arguments. -/
def takesCount (signature : Signature) (count : Nat) : Bool :=
  signature.minArity ≤ count && signature.maxArity?.all (count ≤ ·)

/-- The finding for a call with the wrong number of arguments. -/
def countProblem (label : String) (signature : Signature) (count : Nat) (place : Site) :
    Diagnostic :=
  Diagnostic.error .argumentCount
    ("Function " ++ label ++ ": called with " ++ toString count ++
      " argument(s). Function requires " ++ arityText signature ++ " argument(s).") place

/-- What a parameter accepts; one that may be left out also accepts `undefined`. -/
def acceptedType (param : Param) : Ty :=
  if param.optional then param.type.orUndefined else param.type

/-- The finding for an argument of the wrong type; positions count from zero. -/
def argumentProblem? (label : String) (signature : Signature) (position : Nat)
    (found : FoundType) : Option Diagnostic :=
  (signature.paramAt? position).bind fun param =>
    if found.type.assignable (acceptedType param) then none
    else
      some (Diagnostic.error .argumentTypeMismatch
        ("actual parameter " ++ toString (position + 1) ++ " of " ++ label ++
          " does not match formal parameter\nfound   : " ++ found.type.text ++ "\nrequired: " ++
          param.type.text)
        found.site)

/-- The arguments of a call: the types of those in front of the first that is spread, how many there
are in all, and whether one is spread. -/
structure FoundArguments where
  leading : List FoundType
  count : Nat
  isSpread : Bool
deriving Inhabited

/-- The findings for the arguments of a call. With a spread argument their number is not known. -/
def argumentProblems (label : String) (signature : Signature) (found : FoundArguments)
    (place : Site) : List Diagnostic :=
  let miscounted :=
    if found.isSpread || takesCount signature found.count then []
    else [countProblem label signature found.count place]
  miscounted ++ (found.leading.mapIdx (argumentProblem? label signature)).filterMap id

/-- The finding for a state field that the component does not have. -/
def unknownStateField (component : ComponentType) (field : String) (place : Site) : Diagnostic :=
  Diagnostic.error .unknownStateField
    ("unknown state field `" ++ field ++ "` of component `" ++ component.name ++ "`") place

/-- The finding for a field of a new state, if the fields of the state are known. -/
def stateFieldProblem? (component : ComponentType) (state : List Field)
    (given : String × FoundType) : Option Diagnostic :=
  match findField given.1 state with
  | none => some (unknownStateField component given.1 given.2.site)
  | some field =>
    if given.2.type.assignable field.type then none
    else
      some (Diagnostic.error .argumentTypeMismatch
        ("state field \"" ++ given.1 ++ "\" was expected to be of type " ++ field.type.text ++
          ", instead was " ++ given.2.type.text)
        given.2.site)

/-- The findings for the fields of a new state. -/
def stateProblems (component : ComponentType) (given : List (String × FoundType)) :
    List Diagnostic :=
  match component.state with
  | some state => given.filterMap (stateFieldProblem? component state)
  | none => []

/-- The findings for a call of a method of an instance. `newState` holds the fields of an object
literal in the first place. -/
def callProblems (component : ComponentType) (name : String) (place : Site)
    (found : FoundArguments) (newState : List (String × FoundType)) : List Diagnostic :=
  match component.method? name with
  | none =>
    if component.hasMember name then []
    else
      [unknownProblem .unknownMethod "method" name ("on component `" ++ component.name ++ "`")
        (component.methods.keys ++ component.fields.keys) place]
  | some method =>
    let state := if name = "setState" then stateProblems component newState else []
    let arguments := match method.signature with
      | some signature =>
        argumentProblems (component.name ++ ".prototype." ++ name) signature found place
      | none => []
    state ++ arguments

/-- The finding for a static that the component does not have. -/
def staticProblems (component : ComponentType) (name : String) (place : Site) : List Diagnostic :=
  if (component.static? name).isSome || functionStatics.contains name then []
  else
    [unknownProblem .unknownStatic "static" name ("on component `" ++ component.name ++ "`")
      component.statics.keys place]

/-- The findings for a call of a static of a component. -/
def staticCallProblems (component : ComponentType) (name : String) (place : Site)
    (found : FoundArguments) : List Diagnostic :=
  let arguments := match (component.static? name).bind fun s => s.type.signature? with
    | some signature => argumentProblems (component.name ++ "." ++ name) signature found place
    | none => []
  staticProblems component name place ++ arguments

/-- The finding for a prop that the component does not declare. -/
def unknownProp (component : ComponentType) (name : String) (place : Site) : Diagnostic :=
  unknownProblem .unknownProp "prop" name ("for component `" ++ component.name ++ "`")
    component.props.fields.keys place

/-- The findings for reading a member of `this.props` or `this.state`; `holder` is the word after
`this`. -/
def receiverMemberProblems (component : ComponentType) (holder name : String) (place : Site) :
    List Diagnostic :=
  match holder with
  | "props" => if component.props.accepts name then [] else [unknownProp component name place]
  | "state" =>
    match component.state with
    | some state =>
      if (findField name state).isSome then [] else [unknownStateField component name place]
    | none => []
  | _ => []

/-- The props that the construction of an element passes. -/
structure GivenProps where
  entries : List (String × FoundType)
  /-- Whether there may be others, from a spread or a computed key. -/
  isOpen : Bool
deriving Inhabited

namespace GivenProps

/-- No props. -/
def none : GivenProps := { entries := [], isOpen := false }

/-- Props that nothing is known of. -/
def unknown : GivenProps := { entries := [], isOpen := true }

/-- Whether a prop of that name is passed. -/
def has (given : GivenProps) (name : String) : Bool :=
  given.entries.any fun entry => entry.1 = name

end GivenProps

/-- What a prop accepts; one that is not required also accepts `null` and `undefined`. -/
def PropField.accepted (field : PropField) : Ty :=
  if field.required then field.type else Ty.join [field.type, .null, .undefined]

/-- A finding for a value in the place of a prop. -/
def propMismatch (name : String) (expected : Ty) (found : FoundType) : Diagnostic :=
  Diagnostic.error .propTypeMismatch
    ("\"" ++ name ++ "\" was expected to be of type " ++ expected.text ++ ", instead was " ++
      found.type.text)
    found.site

/-- The finding for one of the props that are passed. -/
def givenProblem? (component : ComponentType) (given : String × FoundType) : Option Diagnostic :=
  if component.props.accepts given.1 then
    (component.props.field? given.1).bind fun field =>
      if given.2.type.assignable field.accepted then .none
      else some (propMismatch given.1 field.type given.2)
  else some (unknownProp component given.1 given.2.site)

/-- The finding for one of several children. -/
def childProblem? (found : FoundType) : Option Diagnostic :=
  if found.type.assignable .renderable then none
  else
    some (Diagnostic.error .propTypeMismatch
      ("child was expected to be of type ReactChild, instead was " ++ found.type.text) found.site)

/-- The findings for the children of an element. A single child must have the type that is declared
for children, several need only be children. -/
def childProblems (component : ComponentType) (children : List FoundType) : List Diagnostic :=
  match component.props.children?, children with
  | none, _ => []
  | some field, [child] =>
    if child.type.assignable field.type then [] else [propMismatch "children" field.type child]
  | some _, several => several.filterMap childProblem?

/-- The finding for a prop that must be passed and is not. -/
def missingProblem? (component : ComponentType) (given : GivenProps) (hasChildren : Bool)
    (place : Site) (name : String) (field : PropField) : Option Diagnostic :=
  if !field.mustBePassed then none
  else if name = "children" then
    if hasChildren || given.has name then none
    else
      some (Diagnostic.warning .missingChildren
        ("component `" ++ component.name ++ "` requires children, but none were passed") place)
  else if given.has name then none
  else
    some (Diagnostic.error .missingRequiredProp
      ("\"" ++ name ++ "\" was missing, expected to be of type " ++ field.type.text) place)

/-- The findings for the construction of an element. What is missing is only known if all props that
are passed are. -/
def elementProblems (component : ComponentType) (given : GivenProps) (children : List FoundType)
    (place : Site) : List Diagnostic :=
  let missing :=
    if !component.props.isDeclared || given.isOpen then []
    else
      component.props.fields.entries.filterMap fun (name, field) =>
        missingProblem? component given (!children.isEmpty) place name field
  given.entries.filterMap (givenProblem? component) ++ childProblems component children ++ missing

end ClassFactory
