/-
Module: ClassFactory.Component.Declarations
Purpose: The published types as documented declarations, one interface for each component and
  mixin. The text is meant to be read and compared.
Main exports: componentDeclaration, mixinDeclaration, TypeTable.declarations
-/
import ClassFactory.Component.Type
import ClassFactory.Types.Text

namespace ClassFactory

/-- A text in braces. -/
def inBraces (text : String) : String := "\x7b" ++ text ++ "\x7d"

/-- A documented type on a line of its own. -/
def typeComment (type : String) : String := "/** @type " ++ inBraces type ++ " */\n"

/-- A named type. -/
def typedef (type name : String) : String :=
  "/** @typedef " ++ inBraces type ++ " */\nvar " ++ name ++ ";\n"

/-- A member of an interface. -/
def onPrototype (interface member : String) : String :=
  interface ++ ".prototype." ++ member

/-- How a parameter is called in a declaration; nameless ones are numbered. -/
def declaredParam (index : Nat) (param : Param) : String :=
  if param.rest then "var_args" else if param.name.isEmpty then "p" ++ toString index
  else param.name

/-- The documentation of a parameter. -/
def paramTag (param : Param) (declared : String) : String :=
  " * @param " ++ inBraces param.text ++ " " ++ declared ++ "\n"

/-- A method with a signature. -/
def signedStub (interface name : String) (signature : Signature) (isPrivate : Bool) : String :=
  let names := signature.params.mapIdx declaredParam
  let tags := (signature.params.zip names).map fun (param, declared) => paramTag param declared
  let returns := match signature.returns with
    | .undefined => ""
    | type => " * @return " ++ inBraces type.text ++ "\n"
  "/**\n" ++ String.join tags ++ returns ++ (if isPrivate then " * @private\n" else "") ++
    " */\n" ++ onPrototype interface name ++ " = function(" ++ Text.joinWith ", " names ++
    ") {};\n"

/-- A method of an interface; without a signature it is any function. -/
def methodStub (interface name : String) (signature : Option Signature) (isPrivate : Bool) :
    String :=
  match signature with
  | some signature => signedStub interface name signature isPrivate
  | none =>
    "/** @type " ++ inBraces "!Function" ++ (if isPrivate then " @private" else "") ++ " */\n" ++
      onPrototype interface name ++ ";\n"

/-- A static of a type. -/
def staticStub (owner name : String) (type : Ty) : String :=
  "\n" ++ typeComment type.text ++ owner ++ "." ++ name ++ ";\n"

/-- The declarations of a component: its interface with props, state, fields and methods, the types
of its props, state and elements, and its statics. What every component has is left out. -/
def componentDeclaration (component : ComponentType) : String :=
  let base := identifierOf component.name
  let interface := interfaceOf component.name
  let state := if component.state.isSome then base ++ "State" else "?"
  let fields := component.fields.entries.map fun (name, type) =>
    typeComment type.text ++ onPrototype interface name ++ ";\n\n"
  let methods := (component.methods.values.filter fun m => m.source ≠ .builtin).map fun m =>
    methodStub interface m.name m.signature m.isPrivate ++ "\n"
  let stateType := match component.state with
    | some record => typedef (Fields.text record) (base ++ "State") ++ "\n"
    | none => ""
  let statics := (component.statics.values.filter fun s => s.origin.isSome).map fun s =>
    staticStub component.name s.name s.type
  "// " ++ component.name ++ "\n/**\n * @interface\n * @extends {ReactComponent}\n */\n" ++
    "function " ++ interface ++ "() {}\n\n" ++
    typeComment (base ++ "Props") ++ onPrototype interface "props;\n\n" ++
    typeComment state ++ onPrototype interface "state;\n\n" ++
    String.join fields ++ String.join methods ++
    typedef (Fields.text component.props.toFields) (base ++ "Props") ++ "\n" ++
    stateType ++
    typedef component.elementType.text (base ++ "Element") ++
    String.join statics

/-- The declarations of a mixin: its interface with its methods, and its statics. -/
def mixinDeclaration (mixin : MixinType) : String :=
  let interface := interfaceOf mixin.name
  let methods := mixin.methods.entries.map fun (name, signature) =>
    "\n" ++ methodStub interface name signature false
  let statics := mixin.statics.entries.map fun (name, type) => staticStub mixin.name name type
  "// " ++ mixin.name ++ " (mixin)\n/** @interface */\nfunction " ++ interface ++ "() {}\n" ++
    String.join methods ++ String.join statics

/-- The declarations of a type. -/
def NominalType.declaration : NominalType → String
  | .component type => componentDeclaration type
  | .mixin type => mixinDeclaration type

/-- The declarations of every type in order of registration. -/
def TypeTable.declarations (table : TypeTable) : String :=
  Text.joinWith "\n" (table.types.values.map NominalType.declaration)

end ClassFactory
