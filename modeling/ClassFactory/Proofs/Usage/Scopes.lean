/-
Module: ClassFactory.Proofs.Usage.Scopes
Purpose: The variables that are in scope along the walk. The visits of an expression enter and leave
  functions in pairs, so whatever happens on the way, in the end the variables are those from
  before, with what was bound outside of the functions entered on the way. What a function binds
  keeps its type until the function is left.
Main exports: Composed, Balanced, boundNames, Usage.Grows, Usage.Extends, Balanced.grows,
  Balanced.leads, Usage.BindsSince
-/
import ClassFactory.Proofs.Usage.Visits

namespace ClassFactory

open Script (Expr Item Property Key Tag Binding Parameter Declarator Attribute Child Stmt Part)

/-! ## How routes are composed -/

/-- Whether the visit neither enters nor leaves a function. -/
def Visit.isFlat : Visit → Bool
  | .enter _ _ => false
  | .leave => false
  | .member _ _ _ => true
  | .call _ _ _ => true
  | .tagged _ _ _ _ => true
  | .declare _ _ _ => true

/-- What holds of no visits, of a single one and of visits in a row, and of those of a function if it
holds of those of its parts. -/
structure Composed (chosen : Expr → Bool) (P : List Stop → Prop) : Prop where
  nil : P []
  stop : ∀ visit, visit.isFlat = true → P [.outside visit]
  append : ∀ {route later}, P route → P later → P (route ++ later)
  function : ∀ params body span, P (parametersRoute chosen params) → P (stmtsRoute chosen body) →
    P ((Expr.function params body span).route chosen)
  arrow : ∀ params concise body span, P (parametersRoute chosen params) →
    P (stmtsRoute chosen body) → P ((Expr.arrow params concise body span).route chosen)

namespace Composed

variable {chosen : Expr → Bool} {P : List Stop → Prop}

/-- What holds of the visits of a callee, with and without its read, holds of those beyond it. -/
theorem beyond {callee : Expr} (whole : P (callee.route chosen))
    (receiver : callee.isMember = true → P (callee.route chosen).tail) :
    P (beyondRead callee (callee.route chosen)) := by
  unfold beyondRead
  split
  next member => exact receiver member
  next => exact whole

/-- The declarations of a statement are visits one after another. -/
theorem declares (h : Composed chosen P) (declarators : List Declarator) (alone : Bool)
    (span : Span) :
    P (declarators.map fun declarator => .outside (.declare declarator alone span)) := by
  induction declarators with
  | nil => exact h.nil
  | cons declarator rest ih => exact h.append (h.stop (.declare declarator alone span) rfl) ih

mutual
/-- What routes are composed of holds of the visits of every expression. -/
theorem expr (h : Composed chosen P) : (e : Expr) → P (e.route chosen)
  | .template parts _ => h.exprs parts
  | .array items _ => h.items items
  | .object properties _ => h.properties properties
  | .function params body span => h.function params body span (h.parameters params) (h.stmts body)
  | .arrow params concise body span =>
    h.arrow params concise body span (h.parameters params) (h.stmts body)
  | .member owner property propertySpan _ =>
    h.append (h.stop (.member owner property propertySpan) rfl) (h.expr owner)
  | .call callee args span =>
    h.append (h.stop (.call callee args span) rfl)
      (h.append (beyond (h.expr callee) (h.receiver callee)) (h.items args))
  | .construct callee args _ => h.append (h.expr callee) (h.items args)
  | .unary _ operand _ => h.expr operand
  | .binary _ left right _ => h.append (h.expr left) (h.expr right)
  | .conditional test consequent alternate _ =>
    h.append (h.append (h.expr test) (h.expr consequent)) (h.expr alternate)
  | .assign target value _ => by
    have later := h.expr value
    have whole := h.append (h.expr target) later
    have owner := fun member => h.append (h.receiver target member) later
    cases target with
    | member object property propertySpan span => exact owner rfl
    | _ => exact whole
  | .paren inner _ => h.expr inner
  | .element tag attributes children _ span =>
    h.append (h.stop (.tagged tag attributes children span) rfl)
      (h.append (h.attributes attributes) (h.children children))
  | .fragment children _ => h.children children
  | .other _ parts _ => h.parts parts
  | .ident _ _ | .this _ | .string _ _ | .number _ _ | .bool _ _ | .null _ | .regex _ => h.nil

theorem receiver (h : Composed chosen P) : (e : Expr) → e.isMember = true → P (e.route chosen).tail
  | .paren inner _, member => h.receiver inner member
  | .member owner _ _ _, _ => h.expr owner

theorem exprs (h : Composed chosen P) : (es : List Expr) → P (exprsRoute chosen es)
  | [] => h.nil
  | e :: rest => h.append (h.expr e) (h.exprs rest)

theorem item (h : Composed chosen P) : (item : Item) → P (item.route chosen)
  | .value e => h.expr e
  | .spread e _ => h.expr e
  | .hole => h.nil

theorem items (h : Composed chosen P) : (items : List Item) → P (itemsRoute chosen items)
  | [] => h.nil
  | item :: rest => h.append (h.item item) (h.items rest)

theorem key (h : Composed chosen P) : (key : Key) → P (key.route chosen)
  | .named _ _ => h.nil
  | .computed e => h.expr e

theorem property (h : Composed chosen P) : (property : Property) → P (property.route chosen)
  | .entry key value _ => h.append (h.key key) (h.expr value)
  | .spread e _ => h.expr e

theorem properties (h : Composed chosen P) :
    (properties : List Property) → P (propertiesRoute chosen properties)
  | [] => h.nil
  | property :: rest => h.append (h.property property) (h.properties rest)

theorem binding (h : Composed chosen P) : (binding : Binding) → P (binding.route chosen)
  | .name _ _ => h.nil
  | .pattern parts => h.exprs parts

theorem parameter (h : Composed chosen P) : (parameter : Parameter) → P (parameter.route chosen)
  | .plain binding => h.binding binding
  | .defaulted binding value => h.append (h.binding binding) (h.expr value)
  | .rest binding => h.binding binding

theorem parameters (h : Composed chosen P) :
    (parameters : List Parameter) → P (parametersRoute chosen parameters)
  | [] => h.nil
  | parameter :: rest => h.append (h.parameter parameter) (h.parameters rest)

theorem declarator (h : Composed chosen P) :
    (declarator : Declarator) → P (declarator.route chosen)
  | .bare binding => h.binding binding
  | .initialized binding value => h.append (h.binding binding) (h.expr value)

theorem declarators (h : Composed chosen P) :
    (declarators : List Declarator) → P (declaratorsRoute chosen declarators)
  | [] => h.nil
  | declarator :: rest => h.append (h.declarator declarator) (h.declarators rest)

theorem given (h : Composed chosen P) : (given : Attribute) → P (given.route chosen)
  | .named _ value _ => h.expr value
  | .foreign value => h.expr value
  | .spread e => h.expr e

theorem attributes (h : Composed chosen P) :
    (givens : List Attribute) → P (attributesRoute chosen givens)
  | [] => h.nil
  | given :: rest => h.append (h.given given) (h.attributes rest)

theorem child (h : Composed chosen P) : (child : Child) → P (child.route chosen)
  | .text _ _ => h.nil
  | .value e _ => h.expr e
  | .spread e _ => h.expr e

theorem children (h : Composed chosen P) : (children : List Child) → P (childrenRoute chosen children)
  | [] => h.nil
  | child :: rest => h.append (h.child child) (h.children rest)

/-- What routes are composed of holds of the visits of every statement. -/
theorem stmt (h : Composed chosen P) : (s : Stmt) → P (s.route chosen)
  | .expression e _ => h.expr e
  | .variables _ declarators span =>
    h.append (h.declarators declarators) (h.declares declarators _ span)
  | .returns value => h.expr value
  | .other parts => h.parts parts

theorem stmts (h : Composed chosen P) : (statements : List Stmt) → P (stmtsRoute chosen statements)
  | [] => h.nil
  | s :: rest => h.append (h.stmt s) (h.stmts rest)

theorem part (h : Composed chosen P) : (part : Part) → P (part.route chosen)
  | .expr e => h.expr e
  | .stmt s => h.stmt s

theorem parts (h : Composed chosen P) : (parts : List Part) → P (partsRoute chosen parts)
  | [] => h.nil
  | part :: rest => h.append (h.part part) (h.parts rest)
end

end Composed

/-- The visits enter and leave functions in pairs. -/
inductive Balanced : List Stop → Prop where
  | nil : Balanced []
  | flat (visit : Visit) (isFlat : visit.isFlat = true) (inside : Bool) {route : List Stop}
      (rest : Balanced route) : Balanced ({ visit := visit, inside := inside } :: route)
  | function (params : List Parameter) (span : Span) (inside left : Bool) {inner route : List Stop}
      (within : Balanced inner) (rest : Balanced route) :
      Balanced ({ visit := .enter params span, inside := inside } ::
        (inner ++ { visit := .leave, inside := left } :: route))

namespace Balanced

variable {route later : List Stop}

/-- Balanced routes make a balanced route. -/
theorem append (h : Balanced route) (h' : Balanced later) : Balanced (route ++ later) := by
  induction h with
  | nil => exact h'
  | flat visit isFlat inside rest ih => exact .flat visit isFlat inside ih
  | @function params span inside left inner route within rest ihInner ih =>
      rw [List.cons_append, List.append_assoc, List.cons_append]
      exact .function params span inside left within ih

/-- Marking the stops of a body leaves a route balanced. -/
theorem marked (h : Balanced route) (chosen : Bool) : Balanced (bodyRoute chosen route) := by
  unfold bodyRoute
  split
  · induction h with
    | nil => exact .nil
    | flat visit isFlat inside rest ih => exact .flat visit isFlat true ih
    | function params span inside left within rest ihInner ih =>
        rw [List.map_cons, List.map_append, List.map_cons]
        exact .function params span true true ihInner ih
  · exact h

/-- The visits of expressions and statements enter and leave functions in pairs. -/
theorem composed (chosen : Expr → Bool) : Composed chosen Balanced where
  nil := .nil
  stop visit isFlat := .flat visit isFlat false .nil
  append := append
  function params body span ofParams ofBody := by
    rw [Expr.route]
    exact .function params span false false (ofParams.append (ofBody.marked _)) .nil
  arrow params concise body span ofParams ofBody := by
    rw [Expr.route]
    exact ofParams.append (ofBody.marked _)

end Balanced

/-! ## Variables that are added -/

/-- The variable that a visit binds, if it declares one by its name. -/
def Visit.names : Visit → List String
  | .declare declarator _ _ => declarator.binding.name?.toList
  | _ => []

/-- The names that are bound by visits outside of the functions entered on the way, in order. -/
def boundNames : Nat → List Stop → List String
  | _, [] => []
  | depth, stop :: route =>
    match stop.visit with
    | .enter _ _ => boundNames (depth + 1) route
    | .leave => boundNames (depth - 1) route
    | visit => (if depth = 0 then visit.names else []) ++ boundNames depth route

/-- Balanced visits bind what they bind outside of the functions that they enter, and nothing if they
stand in one. -/
theorem Balanced.boundNames_append {route : List Stop} (h : Balanced route) (depth : Nat)
    (later : List Stop) :
    boundNames depth (route ++ later) =
      (if depth = 0 then boundNames 0 route else []) ++ boundNames depth later := by
  induction h generalizing depth later with
  | nil => simp [boundNames]
  | flat visit isFlat inside rest ih =>
      have step : ∀ depth route, boundNames depth ({ visit := visit, inside := inside } :: route) =
          (if depth = 0 then visit.names else []) ++ boundNames depth route := by
        intro depth route
        cases visit with
        | enter params span => cases isFlat
        | leave => cases isFlat
        | _ => rfl
      rw [List.cons_append, step, step, ih]
      split <;> simp
  | @function params span inside left inner route within rest ihInner ih =>
      have around : ∀ depth route, boundNames depth ({ visit := .enter params span, inside := inside } ::
          (inner ++ { visit := .leave, inside := left } :: route)) = boundNames depth route := by
        intro depth route
        rw [boundNames, ihInner, boundNames, if_neg (Nat.succ_ne_zero depth)]
        rfl
      rw [List.cons_append, List.append_assoc, List.cons_append, around, around, ih]

/-- The other state has the functions `inner` entered in addition, and the variables `added` in the
innermost function of the first. -/
def Usage.Extends (outside here : Usage) (inner : List Frame) (added : Scope) : Prop :=
  ∃ top rest, outside.frames = top :: rest ∧
    here.frames = inner ++ { top with scope := added ++ top.scope } :: rest

/-- The step binds the variables in the innermost function. -/
def Usage.Grows (step : Usage → Usage) (names : List String) : Prop :=
  ∀ usage : Usage, usage.frames ≠ [] →
    ∃ added : Scope, usage.Extends (step usage) [] added ∧ added.map Prod.fst = names.reverse

namespace Usage

/-- A state extends itself by nothing. -/
theorem Extends.refl {usage : Usage} (inFunction : usage.frames ≠ []) :
    usage.Extends usage [] [] := by
  cases frames : usage.frames with
  | nil => exact absurd frames inFunction
  | cons top rest => exact ⟨top, rest, frames, by simp [frames]⟩

theorem Extends.inFunction {outside here : Usage} {inner : List Frame} {added : Scope}
    (h : outside.Extends here inner added) : here.frames ≠ [] := by
  rcases h with ⟨top, rest, -, frames⟩
  simp [frames]

/-- What is added after variables were added in the same function. -/
theorem Extends.trans {outside middle here : Usage} {inner : List Frame} {added later : Scope}
    (h : outside.Extends middle [] added) (h' : middle.Extends here inner later) :
    outside.Extends here inner (later ++ added) := by
  rcases h with ⟨top, rest, frames, grown⟩
  rcases h' with ⟨middleTop, middleRest, middleFrames, hereFrames⟩
  rw [grown, List.nil_append, List.cons.injEq] at middleFrames
  rcases middleFrames with ⟨rfl, rfl⟩
  exact ⟨top, rest, frames, by simp [hereFrames]⟩

/-- What is added after a function was entered. -/
theorem Extends.of_entered {outside middle here : Usage} {frame : Frame} {inner : List Frame}
    {later : Scope} (inFunction : outside.frames ≠ [])
    (entered : middle.frames = frame :: outside.frames) (h : middle.Extends here inner later) :
    outside.Extends here (inner ++ [{ frame with scope := later ++ frame.scope }]) [] := by
  rcases h with ⟨middleTop, middleRest, middleFrames, hereFrames⟩
  rw [entered, List.cons.injEq] at middleFrames
  rcases middleFrames with ⟨rfl, rfl⟩
  cases frames : outside.frames with
  | nil => exact absurd frames inFunction
  | cons top rest => exact ⟨top, rest, frames, by simp [hereFrames, frames]⟩

namespace Grows

variable {step next : Usage → Usage} {names later : List String}

theorem nothing : Grows (fun usage => usage) [] := fun _ inFunction =>
  ⟨[], .refl inFunction, rfl⟩

/-- Steps bind their names one after another. -/
theorem andThen (h : Grows step names) (h' : Grows next later) :
    Grows (fun usage => next (step usage)) (names ++ later) := by
  intro usage inFunction
  rcases h usage inFunction with ⟨added, extended, named⟩
  rcases h' (step usage) extended.inFunction with ⟨more, further, laterNamed⟩
  exact ⟨more ++ added, extended.trans further, by simp [named, laterNamed]⟩

theorem foldl {ι : Type} {steps : Usage → ι → Usage} {names : ι → List String}
    (each : ∀ item, Grows (steps · item) (names item)) (items : List ι) :
    Grows (fun usage => items.foldl steps usage) (items.flatMap names) := by
  induction items with
  | nil => exact nothing
  | cons item rest ih => exact (each item).andThen ih

theorem of_frames (same : ∀ usage, (step usage).frames = usage.frames) : Grows step [] := by
  intro usage inFunction
  rcases Extends.refl inFunction with ⟨top, rest, frames, here⟩
  exact ⟨[], ⟨top, rest, frames, (same usage).trans here⟩, rfl⟩

theorem declare (type : Usage → Ty) (name : String) :
    Grows (fun usage => usage.declare name (type usage)) [name] := by
  intro usage inFunction
  cases frames : usage.frames with
  | nil => exact absurd frames inFunction
  | cons top rest =>
      exact ⟨[(name, type usage)], ⟨top, rest, frames, by simp [Usage.declare, frames]⟩, rfl⟩

end Grows

end Usage

/-! ## Names that are added -/

/-- The innermost binding of the name among what was added. -/
def addedType? (inner : List Frame) (added : Scope) (name : String) : Option Ty :=
  (inner.map Frame.scope ++ [added]).findSome? fun scope => scope.lookup name

section Names

variable {inner : List Frame} {added : Scope} {name : String}

theorem lookup_isSome_iff {scope : Scope} :
    (scope.lookup name).isSome = true ↔ name ∈ scope.map Prod.fst := by
  induction scope with
  | nil => simp
  | cons entry rest ih =>
      rcases entry with ⟨bound, type⟩
      rw [List.lookup_cons, List.map_cons, List.mem_cons, ← ih]
      cases same : name == bound with
      | true => simp [eq_of_beq same]
      | false => simp [ne_of_beq_false same]

/-- A name has a type on the way just if it was bound in one of the functions that are open. -/
theorem addedType?_isSome_iff :
    (addedType? inner added name).isSome = true ↔
      name ∈ added.map Prod.fst ∨ ∃ frame ∈ inner, name ∈ frame.scope.map Prod.fst := by
  simp only [addedType?, List.findSome?_isSome_iff, lookup_isSome_iff, List.mem_append,
    List.mem_singleton, List.mem_map (f := Frame.scope)]
  constructor
  · rintro ⟨scope, ⟨frame, mem, rfl⟩ | rfl, bound⟩
    · exact .inr ⟨frame, mem, bound⟩
    · exact .inl bound
  · rintro (bound | ⟨frame, mem, bound⟩)
    · exact ⟨added, .inr rfl, bound⟩
    · exact ⟨frame.scope, .inl ⟨frame, mem, rfl⟩, bound⟩

end Names

/-! ## Functions and their parameters -/

/-- The signature of the method that begins where the span does, if it is known. -/
def UsageContext.signatureAt? (context : UsageContext) (span : Span) : Option Signature :=
  (context.methods.find? (·.start = span.start)).bind fun place =>
    ((context.table.component? place.component).bind fun c => c.method? place.method).bind
      MethodType.signature

/-- The parameters that take one argument and are bound to a name. -/
def singleNames (params : List Parameter) : List String :=
  (params.filter fun param => !param.isRest).filterMap fun param => param.binding.name?

/-- The names of the parameters that are bound where a function is entered: those of a method whose
signature is known. -/
def UsageContext.enteredNames (context : UsageContext) (params : List Parameter) (span : Span) :
    List String :=
  if (context.signatureAt? span).isSome then singleNames params else []

section Step

variable {context : UsageContext}

/-- The parameters of a known signature are bound by their names. -/
theorem declareParams_grows (params : List Parameter) (signature : Signature) :
    Usage.Grows (fun usage => usage.declareParams params signature) (singleNames params) := by
  have names : ∀ (params : List Parameter) start,
      (params.zipIdx start).flatMap (fun entry => entry.1.binding.name?.toList) =
        params.filterMap fun param => param.binding.name? := by
    intro params
    induction params with
    | nil => intro start; rfl
    | cons param rest ih =>
        intro start
        rw [List.zipIdx_cons, List.flatMap_cons, ih, List.filterMap_cons]
        cases param.binding.name? <;> rfl
  rw [singleNames, ← names _ 0]
  unfold Usage.declareParams
  refine .foldl (fun entry => ?_) _
  dsimp only
  cases entry.1.binding.name? with
  | none => exact .nothing
  | some name => exact .declare (fun _ => _) name

/-- A function that is entered has a scope of its own, which holds the bound parameters. -/
theorem enter_frames (context : UsageContext) (params : List Parameter) (span : Span) (usage : Usage) :
    ∃ frame, (usage.enter context params span).frames = frame :: usage.frames ∧
      frame.scope.map Prod.fst = (context.enteredNames params span).reverse := by
  cases found : context.methods.find? (·.start = span.start) with
  | none =>
      refine ⟨{ scope := [], owner := none }, by rw [Usage.enter, found], ?_⟩
      rw [UsageContext.enteredNames, UsageContext.signatureAt?, found]
      rfl
  | some place =>
      obtain ⟨entered, isEntered⟩ : ∃ entered : Usage,
          { usage with frames := { scope := [], owner := some place.component } :: usage.frames } =
            entered := ⟨_, rfl⟩
      have signature : context.signatureAt? span =
          ((entered.self? context).bind fun c => c.method? place.method).bind
            MethodType.signature := by
        rw [UsageContext.signatureAt?, found, ← isEntered]
        rfl
      have inFunction : entered.frames ≠ [] := by
        rw [← isEntered]
        exact List.cons_ne_nil _ _
      rw [Usage.enter, found, UsageContext.enteredNames, signature]
      dsimp only
      rw [isEntered]
      cases ((entered.self? context).bind fun c => c.method? place.method).bind
          MethodType.signature with
      | none => exact ⟨_, by rw [← isEntered], rfl⟩
      | some signature =>
          rcases declareParams_grows params signature entered inFunction with
            ⟨added, ⟨top, rest, frames, here⟩, named⟩
          rw [← isEntered] at frames
          cases frames
          exact ⟨_, here, by simpa using named⟩

/-- A visit that enters and leaves no function binds its names. -/
theorem Visit.apply_grows (context : UsageContext) {visit : Visit} (flat : visit.isFlat = true) :
    Usage.Grows (fun usage => visit.apply context usage) visit.names := by
  by_cases looks : visit.looks = true
  · have unnamed : visit.names = [] := by
      cases visit with
      | declare declarator alone span => cases looks
      | _ => rfl
    rw [unnamed]
    exact .of_frames (Visit.apply_frames context looks)
  · cases visit with
    | declare declarator alone span =>
        simp only [Visit.apply, Usage.declareOne, Visit.names]
        cases declarator.binding.name? with
        | none => exact .nothing
        | some name => exact .declare (fun usage => usage.declaredType context _ name _) name
    | enter params span => cases flat
    | leave => cases flat
    | _ => exact absurd rfl looks

end Step

/-! ## Variables along a route -/

section Route

variable (context : UsageContext)

theorem Usage.follow_cons (usage : Usage) (stop : Stop) (route : List Stop) :
    usage.follow context (stop :: route) = (stop.visit.apply context usage).follow context route :=
  rfl

/-- A function that was entered and left leaves the variables as they were. -/
theorem leave_frames {entered here : Usage} {frame : Frame} {frames : List Frame}
    {added : Scope} (own : entered.frames = frame :: frames)
    (grown : entered.Extends here [] added) : here.leave.frames = frames := by
  rcases grown with ⟨top, rest, enteredFrames, hereFrames⟩
  rw [own, List.cons.injEq] at enteredFrames
  rcases enteredFrames with ⟨rfl, rfl⟩
  simp [Usage.leave, hereFrames]

/-- In the end, balanced visits have bound their variables in the innermost function. -/
theorem Balanced.grows {route : List Stop} (h : Balanced route) :
    Usage.Grows (fun usage => usage.follow context route) (boundNames 0 route) := by
  induction h with
  | nil => exact .nothing
  | @flat visit isFlat inside route rest ih =>
      have names : boundNames 0 ({ visit := visit, inside := inside } :: route) =
          visit.names ++ boundNames 0 route := by
        cases visit with
        | enter params span => cases isFlat
        | leave => cases isFlat
        | _ => rfl
      rw [names]
      exact (Visit.apply_grows context isFlat).andThen ih
  | @function params span inside left inner route within rest ihInner ih =>
      have names : boundNames 0 ({ visit := .enter params span, inside := inside } ::
          (inner ++ { visit := .leave, inside := left } :: route)) = boundNames 0 route := by
        rw [boundNames, within.boundNames_append, boundNames, if_neg (Nat.succ_ne_zero 0)]
        rfl
      rw [names]
      have around : Usage.Grows
          (fun usage => ((usage.enter context params span).follow context inner).leave) [] := by
        apply Usage.Grows.of_frames
        intro usage
        rcases enter_frames context params span usage with ⟨frame, entered, -⟩
        rcases ihInner _ (by rw [entered]; exact List.cons_ne_nil _ _) with ⟨added, grown, -⟩
        exact leave_frames entered grown
      intro usage inFunction
      have split : usage.follow context ({ visit := .enter params span, inside := inside } ::
          (inner ++ { visit := .leave, inside := left } :: route)) =
          (((usage.enter context params span).follow context inner).leave).follow context route := by
        rw [Usage.follow_cons, Usage.follow_append]
        rfl
      dsimp only
      rw [split]
      exact (around.andThen ih) usage inFunction

/-- The names that visits bind: of the variable declared, or of the parameters of a function. -/
def Visit.binds (context : UsageContext) : Visit → List String
  | .enter params span => context.enteredNames params span
  | visit => visit.names

/-- The names that the visits on a way bind. -/
def boundOn (context : UsageContext) (seen : List Stop) : List String :=
  seen.flatMap fun stop => stop.visit.binds context

/-- What is bound on two ways is bound on one of them. -/
theorem mem_boundOn_append {name : String} {seen later : List Stop} :
    name ∈ boundOn context (seen ++ later) ↔
      name ∈ boundOn context seen ∨ name ∈ boundOn context later := by
  rw [boundOn, List.flatMap_append, List.mem_append]
  rfl

/-- On the way from one state to the other functions were entered and variables were bound, each by
one of the visits, and the variables from before are still there behind them. -/
def Usage.Leads (usage here : Usage) (seen : List Stop) : Prop :=
  ∃ inner added, usage.Extends here inner added ∧
    ∀ name, (addedType? inner added name).isSome = true → name ∈ boundOn context seen

section Leads

variable {context} {usage middle here : Usage} {seen : List Stop}

theorem Usage.Leads.refl (inFunction : usage.frames ≠ []) : usage.Leads context usage [] :=
  ⟨[], [], .refl inFunction, fun _ bound => absurd bound Bool.false_ne_true⟩

/-- A visit in front, within one function. -/
theorem Usage.Leads.flat {visit : Visit} (isFlat : visit.isFlat = true) (inside : Bool)
    (inFunction : usage.frames ≠ []) (h : (visit.apply context usage).Leads context here seen) :
    usage.Leads context here ({ visit := visit, inside := inside } :: seen) := by
  rcases Visit.apply_grows context isFlat usage inFunction with ⟨added, grown, names⟩
  rcases h with ⟨inner, later, extended, bound⟩
  refine ⟨inner, later ++ added, grown.trans extended, fun name isBound => ?_⟩
  have own : visit.binds context = visit.names := by
    cases visit with
    | enter params span => cases isFlat
    | _ => rfl
  have here : boundOn context ({ visit := visit, inside := inside } :: seen) =
      visit.names ++ boundOn context seen := by
    rw [boundOn, List.flatMap_cons, own]
    rfl
  rw [addedType?_isSome_iff, List.map_append, List.mem_append, names, List.mem_reverse] at isBound
  rw [here, List.mem_append]
  rcases isBound with (isBound | isBound) | isBound
  · exact .inr (bound name (addedType?_isSome_iff.mpr (.inl isBound)))
  · exact .inl isBound
  · exact .inr (bound name (addedType?_isSome_iff.mpr (.inr isBound)))

/-- A function entered in front. -/
theorem Usage.Leads.entered (params : List Parameter) (span : Span) (inside : Bool)
    (inFunction : usage.frames ≠ [])
    (h : (usage.enter context params span).Leads context here seen) :
    usage.Leads context here ({ visit := .enter params span, inside := inside } :: seen) := by
  rcases enter_frames context params span usage with ⟨frame, entered, names⟩
  rcases h with ⟨inner, later, extended, bound⟩
  refine ⟨_, _, extended.of_entered inFunction entered, fun name isBound => ?_⟩
  have here : boundOn context ({ visit := .enter params span, inside := inside } :: seen) =
      context.enteredNames params span ++ boundOn context seen := rfl
  rw [here, List.mem_append]
  rcases addedType?_isSome_iff.mp isBound with none | ⟨holder, mem, isBound⟩
  · cases none
  · rcases List.mem_append.mp mem with deeper | own
    · exact .inr (bound name (addedType?_isSome_iff.mpr (.inr ⟨holder, deeper, isBound⟩)))
    · rw [List.mem_singleton.mp own, List.map_append, List.mem_append, names,
        List.mem_reverse] at isBound
      rcases isBound with isBound | isBound
      · exact .inr (bound name (addedType?_isSome_iff.mpr (.inl isBound)))
      · exact .inl isBound

/-- A stretch in front that leaves the variables as they were. -/
theorem Usage.Leads.past (passed : List Stop) (same : middle.frames = usage.frames)
    (h : middle.Leads context here seen) : usage.Leads context here (passed ++ seen) := by
  rcases h with ⟨inner, later, ⟨top, rest, frames, grown⟩, bound⟩
  refine ⟨inner, later, ⟨top, rest, same ▸ frames, grown⟩, fun name isBound => ?_⟩
  exact (mem_boundOn_append context).mpr (.inr (bound name isBound))

end Leads

/-- Balanced visits lead to a state in which what was bound on the way comes before what was there. -/
theorem Balanced.leads {route : List Stop} (h : Balanced route) {seen unseen : List Stop}
    (split : route = seen ++ unseen) {usage : Usage} (inFunction : usage.frames ≠ []) :
    usage.Leads context (usage.follow context seen) seen := by
  induction h generalizing seen unseen usage with
  | nil =>
      cases (List.append_eq_nil_iff.mp split.symm).1
      exact .refl inFunction
  | @flat visit isFlat inside route rest ih =>
      cases seen with
      | nil => exact .refl inFunction
      | cons first seen =>
          cases split
          rcases Visit.apply_grows context isFlat usage inFunction with
            ⟨added, grown, -⟩
          exact .flat isFlat inside inFunction (ih rfl grown.inFunction)
  | @function params span inside left inner route within rest ihInner ih =>
      cases seen with
      | nil => exact .refl inFunction
      | cons first seen =>
          rw [List.cons_append, List.cons.injEq] at split
          rcases split with ⟨rfl, split⟩
          rcases enter_frames context params span usage with ⟨frame, entered, -⟩
          have enteredIn : (usage.enter context params span).frames ≠ [] := by
            rw [entered]
            exact List.cons_ne_nil _ _
          rw [Usage.follow_cons]
          rcases List.append_eq_append_iff.mp split with ⟨more, rfl, unseen⟩ | ⟨under, rfl, -⟩
          · -- The function has been seen to its end.
            cases more with
            | nil =>
                rw [List.append_nil]
                exact .entered params span inside inFunction
                  (ihInner (List.append_nil inner).symm enteredIn)
            | cons leaving more =>
                cases unseen
                rcases within.grows context _ enteredIn with ⟨added, grown, -⟩
                have same := leave_frames entered grown
                have onward := ih rfl (by rw [same]; exact inFunction)
                rw [Usage.follow_append, Usage.follow_cons]
                have passed := onward.past
                  ({ visit := .enter params span, inside := inside } ::
                    (inner ++ [{ visit := .leave, inside := left }])) same
                rw [List.cons_append, List.append_assoc] at passed
                exact passed
          · -- The walk stands in the function.
            exact .entered params span inside inFunction (ihInner rfl enteredIn)

end Route

/-! ## Bindings and their types -/

/-- Here the name has the type of a binding that was made since the walk was outside, and that type
is the one of the variable. -/
def Usage.BindsSince (context : UsageContext) (outside here : Usage) (name : String) (type : Ty) :
    Prop :=
  (∃ inner added, outside.Extends here inner added ∧ addedType? inner added name = some type) ∧
    (here.setting context).variableType name = if name = "undefined" then .undefined else type

section Bindings

variable {context : UsageContext} {outside middle here : Usage} {inner later : List Frame}
  {added more : Scope} {name : String}

/-- A variable has the type of the innermost binding that was added, and the type that it had before
if none was. -/
theorem Usage.Extends.variableType (h : outside.Extends here inner added) (name : String) :
    (here.setting context).variableType name =
      if name = "undefined" then .undefined
      else (addedType? inner added name).getD ((outside.setting context).variableType name) := by
  rcases h with ⟨top, rest, outsideFrames, hereFrames⟩
  have looked : ((here.setting context).scopes.findSome? fun scope => scope.lookup name) =
      (addedType? inner added name).or
        ((outside.setting context).scopes.findSome? fun scope => scope.lookup name) := by
    simp only [Usage.setting, outsideFrames, hereFrames, addedType?, List.map_append, List.map_cons,
      List.findSome?_append, List.findSome?_cons, List.lookup_append, List.findSome?_nil]
    cases (inner.map Frame.scope).findSome? fun scope => scope.lookup name with
    | some type => rfl
    | none => cases added.lookup name <;> rfl
  unfold Setting.variableType
  rw [looked]
  split
  · rfl
  · cases addedType? inner added name <;> rfl

/-- What is bound since has a type of its own. -/
theorem Usage.Extends.binds (h : outside.Extends here inner added)
    (bound : (addedType? inner added name).isSome = true) :
    ∃ type, Usage.BindsSince context outside here name type := by
  rcases Option.isSome_iff_exists.mp bound with ⟨type, typed⟩
  refine ⟨type, ⟨inner, added, h, typed⟩, ?_⟩
  rw [h.variableType, typed]
  rfl

/-- What is not bound since has the type that it had. -/
theorem Usage.Extends.keeps (h : outside.Extends here inner added)
    (unbound : ¬ (addedType? inner added name).isSome = true) :
    (here.setting context).variableType name = (outside.setting context).variableType name := by
  rw [Option.not_isSome_iff_eq_none] at unbound
  rw [h.variableType, unbound]
  unfold Setting.variableType
  split <;> rfl

/-- What is bound since stays bound while more is added. -/
theorem Usage.Extends.stays (h : outside.Extends middle inner added) (context : UsageContext)
    (bound : (addedType? inner added name).isSome = true) (h' : middle.Extends here later more) :
    ∃ type, Usage.BindsSince context outside here name type := by
  rw [addedType?_isSome_iff] at bound
  cases inner with
  | nil =>
      refine (h.trans h').binds (addedType?_isSome_iff.mpr (.inl ?_))
      rcases bound with bound | ⟨frame, mem, -⟩
      · rw [List.map_append]
        exact List.mem_append_right _ bound
      · cases mem
  | cons frame others =>
      rcases h with ⟨top, rest, outsideFrames, middleFrames⟩
      rcases h' with ⟨middleTop, middleRest, frames, hereFrames⟩
      rw [middleFrames, List.cons_append, List.cons.injEq] at frames
      rcases frames with ⟨rfl, rfl⟩
      have extended : outside.Extends here
          (later ++ { frame with scope := more ++ frame.scope } :: others) added :=
        ⟨top, rest, outsideFrames, by simp [hereFrames]⟩
      apply extended.binds
      rw [addedType?_isSome_iff]
      rcases bound with bound | ⟨holder, mem, bound⟩
      · exact .inl bound
      · right
        rcases List.mem_cons.mp mem with rfl | mem
        · refine ⟨_, List.mem_append_right _ (.head _), ?_⟩
          rw [List.map_append]
          exact List.mem_append_right _ bound
        · exact ⟨holder, List.mem_append_right _ (.tail _ mem), bound⟩

end Bindings

end ClassFactory
