/-
Module: ClassFactory.Lifecycle
Purpose: Lifecycle hooks, whose definitions are chained across mixins instead of replaced, and the
  two catalogues of methods with fixed signatures: those a component may implement, and those every
  instance has.
Main exports: Hook, Hook.ofName?, standardMethods, standardSignature?, instanceMethods,
  instanceSignature?
-/
import ClassFactory.Types.Reader

namespace ClassFactory

/-- A hook that the runtime calls. -/
inductive Hook where
  | getDefaultProps
  | getInitialState
  | componentWillMount
  | componentDidMount
  | componentWillReceiveProps
  | componentWillUpdate
  | componentDidUpdate
  | componentWillUnmount
  | render
deriving Repr, Inhabited, DecidableEq

namespace Hook

/-- Every hook, in the order in which a component's hooks are listed. -/
def all : List Hook :=
  [.getDefaultProps, .getInitialState, .componentWillMount, .componentDidMount,
   .componentWillReceiveProps, .componentWillUpdate, .componentDidUpdate, .componentWillUnmount,
   .render]

/-- The member name of a hook. -/
def name : Hook → String
  | .getDefaultProps => "getDefaultProps"
  | .getInitialState => "getInitialState"
  | .componentWillMount => "componentWillMount"
  | .componentDidMount => "componentDidMount"
  | .componentWillReceiveProps => "componentWillReceiveProps"
  | .componentWillUpdate => "componentWillUpdate"
  | .componentDidUpdate => "componentDidUpdate"
  | .componentWillUnmount => "componentWillUnmount"
  | .render => "render"

/-- The hook of that member name. -/
def ofName? (name : String) : Option Hook :=
  all.find? (·.name = name)

theorem mem_all (hook : Hook) : hook ∈ all := by
  cases hook <;> simp [all]

theorem name_of_ofName? {name : String} {hook : Hook} (h : ofName? name = some hook) :
    hook.name = name := by
  simpa using List.find?_some h

theorem ofName?_name (hook : Hook) : ofName? hook.name = some hook := by
  cases hook <;> rfl

end Hook

/-- The methods that a component may implement, each with the type it must have. -/
def standardMethods : List (String × String) :=
  [("render", "function(): ?ReactElement"),
   ("getInitialState", "function(): ?"),
   ("getDefaultProps", "function(): ?"),
   ("componentWillMount", "function(): undefined"),
   ("componentDidMount", "function(): undefined"),
   ("componentWillReceiveProps", "function(?): undefined"),
   ("shouldComponentUpdate", "function(?, ?): boolean"),
   ("componentWillUpdate", "function(?, ?): undefined"),
   ("componentDidUpdate", "function(?, ?): undefined"),
   ("componentWillUnmount", "function(): undefined")]

/-- The methods that every component instance has without defining them. -/
def instanceMethods : List (String × String) :=
  [("setState", "function((!Object|!Function), !Function=): undefined"),
   ("replaceState", "function(!Object, !Function=): undefined"),
   ("setProps", "function(!Object, !Function=): undefined"),
   ("replaceProps", "function(!Object, !Function=): undefined"),
   ("forceUpdate", "function(!Function=): undefined"),
   ("isMounted", "function(): boolean"),
   ("getDOMNode", "function(): Element")]

/-- The signature that a catalogue gives a method. -/
def catalogued (catalogue : List (String × String)) (name : String) : Option Signature :=
  (catalogue.find? (·.1 = name)).bind fun entry => (readType entry.2).signature?

/-- The fixed signature of a method that a component may implement. -/
def standardSignature? (name : String) : Option Signature :=
  catalogued standardMethods name

/-- The signature of a method that every instance has. -/
def instanceSignature? (name : String) : Option Signature :=
  catalogued instanceMethods name

end ClassFactory
