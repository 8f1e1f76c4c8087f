/-
Module: ClassFactory.Options
Purpose: What the analysis recognizes: the callees that create components, mixins and elements, the
  names of validator namespaces and library mixins, and two switches. The defaults describe the
  stock library.
Main exports: Options, Options.standard, Options.ofJson?, Options.toJson
-/
import ClassFactory.Json.Value
import ClassFactory.Text.Search

namespace ClassFactory

/-- The names and switches that shape an analysis. -/
structure Options where
  /-- Callees that create component classes. -/
  classFactories : List String
  /-- Callees that create mixins. -/
  mixinFactories : List String
  /-- Callees that construct elements. -/
  elementFactories : List String
  /-- Callees that mount an element and return the component instance. -/
  renderFunctions : List String
  /-- Namespaces that hold prop validators. -/
  propTypesNamespaces : List String
  /-- Library mixins that implement `shouldComponentUpdate`. -/
  pureRenderMixins : List String
  /-- File names of the library's own sources. -/
  librarySources : List String
  /-- Check element construction against declared prop types. -/
  checkPropTypes : Bool
  /-- Synthesize components in parallel; the result is the same. -/
  parallelSynthesis : Bool
deriving Repr, Inhabited, DecidableEq

namespace Options

/-- The options for the stock library. -/
def standard : Options :=
  { classFactories := ["React.createClass", "createReactClass"]
    mixinFactories := ["React.createMixin"]
    elementFactories := ["React.createElement"]
    renderFunctions := ["ReactDOM.render", "React.render"]
    propTypesNamespaces := ["React.PropTypes", "PropTypes"]
    pureRenderMixins := ["React.addons.PureRenderMixin", "PureRenderMixin"]
    librarySources :=
      ["react.js", "react.min.js", "react-dom.js", "react-dom.min.js", "react-dom-server.js",
       "react-dom-server.min.js", "react-with-addons.js", "react-with-addons.min.js"]
    checkPropTypes := true
    parallelSynthesis := false }

/-- Whether a callee creates component classes. -/
def isClassFactory (options : Options) (callee : String) : Bool :=
  options.classFactories.contains callee

/-- Whether a callee creates mixins. -/
def isMixinFactory (options : Options) (callee : String) : Bool :=
  options.mixinFactories.contains callee

/-- Whether a callee constructs elements. -/
def isElementFactory (options : Options) (callee : String) : Bool :=
  options.elementFactories.contains callee

/-- Whether a callee mounts an element. -/
def isRenderFunction (options : Options) (callee : String) : Bool :=
  options.renderFunctions.contains callee

/-- Whether a name is a namespace of prop validators. -/
def isPropTypesNamespace (options : Options) (name : String) : Bool :=
  options.propTypesNamespaces.contains name

/-- Whether a name is a library mixin that implements `shouldComponentUpdate`. -/
def isPureRenderMixin (options : Options) (name : String) : Bool :=
  options.pureRenderMixins.contains name

/-- The last component of a path in either notation. -/
def fileName (path : String) : String :=
  String.ofList (path.toList.reverse.takeWhile fun c => c ≠ '/' && c ≠ '\\').reverse

/-- Whether a path names one of the library's own sources. -/
def isLibrarySource (options : Options) (path : String) : Bool :=
  options.librarySources.contains (fileName path)

/-- The names under which options are written, in order. -/
def fieldNames : List String :=
  ["classFactories", "mixinFactories", "elementFactories", "renderFunctions",
   "propTypesNamespaces", "pureRenderMixins", "librarySources", "checkPropTypes",
   "parallelSynthesis"]

/-- Reads a field if it is present; a present field must have its type. -/
def readField {α : Type} (read : Json → Option α) (standard : α) : Option Json → Option α
  | some document => read document
  | none => some standard

/-- Reads options from an object or from an array of the fields in order. Absent fields keep their
standard value. -/
def ofJson? (document : Json) : Option Options :=
  match document.fields? fieldNames with
  | some [classes, mixins, elements, renders, namespaces, pure, sources, check, concurrent] => do
    return {
      classFactories := ← readField Json.strings? standard.classFactories classes
      mixinFactories := ← readField Json.strings? standard.mixinFactories mixins
      elementFactories := ← readField Json.strings? standard.elementFactories elements
      renderFunctions := ← readField Json.strings? standard.renderFunctions renders
      propTypesNamespaces := ← readField Json.strings? standard.propTypesNamespaces namespaces
      pureRenderMixins := ← readField Json.strings? standard.pureRenderMixins pure
      librarySources := ← readField Json.strings? standard.librarySources sources
      checkPropTypes := ← readField Json.bool? standard.checkPropTypes check
      parallelSynthesis := ← readField Json.bool? standard.parallelSynthesis concurrent }
  | _ => none

/-- Options as an object with every field. -/
def toJson (options : Options) : Json :=
  let names := Json.ofList Json.string
  .object
    [("classFactories", names options.classFactories),
     ("mixinFactories", names options.mixinFactories),
     ("elementFactories", names options.elementFactories),
     ("renderFunctions", names options.renderFunctions),
     ("propTypesNamespaces", names options.propTypesNamespaces),
     ("pureRenderMixins", names options.pureRenderMixins),
     ("librarySources", names options.librarySources),
     ("checkPropTypes", .bool options.checkPropTypes),
     ("parallelSynthesis", .bool options.parallelSynthesis)]

end Options

end ClassFactory
