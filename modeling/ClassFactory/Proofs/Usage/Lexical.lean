/-
Module: ClassFactory.Proofs.Usage.Lexical
Purpose: How far the scopes of a check are lexical. A variable that is declared in the body of a
  function hides the variables and components of its name from then on until the function ends.
  Parameters hide them only in methods whose signature is known, and the variables of an arrow
  function stay in scope behind it.
Main exports: IsFunction, DeclaredIn, UsageContext.ownParameters, Script.Expr.leaks, scopes_lexical
-/
import ClassFactory.Proofs.Usage.Omission

namespace ClassFactory

open Script (Expr Parameter Declarator Stmt Program)

/-! ## Functions and what they bind -/

/-- A function or an arrow function with its parameters and its body. -/
inductive IsFunction : Expr → List Parameter → List Stmt → Prop where
  | function (params : List Parameter) (body : List Stmt) (span : Span) :
      IsFunction (.function params body span) params body
  | arrow (params : List Parameter) (concise : Bool) (body : List Stmt) (span : Span) :
      IsFunction (.arrow params concise body span) params body

/-- The visit that enters a function; an arrow function is not entered. -/
def Script.Expr.opening : Expr → List Stop
  | .function params _ span => [.outside (.enter params span)]
  | _ => []

/-- The parameters that are bound as a function is entered. -/
def UsageContext.ownParameters (context : UsageContext) : Expr → List String
  | .function params _ span => context.enteredNames params span
  | _ => []

/-- The variables that stay in scope behind a function: those of an arrow function. -/
def Script.Expr.leaks : Expr → List String
  | .arrow params _ body _ =>
    boundNames 0 (parametersRoute noneChosen params ++ stmtsRoute noneChosen body)
  | _ => []

/-- The variable is declared by its name among the statements of a body. The visits up to the one
that binds it come before the others. -/
inductive DeclaredIn (name : String) : List Stmt → List Stop → List Stop → Prop where
  | mk (done rest : List Stmt) (exported alone : Bool) (before after : List Declarator)
      (declarator : Declarator) (span : Span) (named : declarator.binding.name? = some name)
      (single : alone = decide ((before ++ declarator :: after).length = 1)) :
      DeclaredIn name (done ++ .variables exported (before ++ declarator :: after) span :: rest)
        (stmtsRoute noneChosen done ++
          declaratorsRoute noneChosen (before ++ declarator :: after) ++
          (before ++ [declarator]).map fun d => .outside (.declare d alone span))
        ((after.map fun d => .outside (.declare d alone span)) ++ stmtsRoute noneChosen rest)

/-- The walk over a program comes to the function after the visits. -/
def ComesTo (program : Program) (before : List Stop) (f : Expr) : Prop :=
  ∃ after, stmtsRoute noneChosen program.body = before ++ f.route noneChosen ++ after

section Function

variable {f : Expr} {params : List Parameter} {body : List Stmt}

/-- The route of a body goes over its first statements and then over the others. -/
theorem stmtsRoute_append (chosen : Expr → Bool) (statements rest : List Stmt) :
    stmtsRoute chosen (statements ++ rest) =
      stmtsRoute chosen statements ++ stmtsRoute chosen rest := by
  induction statements with
  | nil => rfl
  | cons s statements ih => rw [List.cons_append, stmtsRoute, stmtsRoute, ih, List.append_assoc]

theorem DeclaredIn.route {name : String} {upTo later : List Stop}
    (declared : DeclaredIn name body upTo later) : stmtsRoute noneChosen body = upTo ++ later := by
  cases declared with
  | mk done rest exported alone before after declarator span named single =>
      rw [stmtsRoute_append, stmtsRoute, Stmt.route, ← single]
      simp

/-- On either side of the declaration functions are entered and left in pairs, and the name is bound
on the way up to it. -/
theorem DeclaredIn.bound {name : String} {upTo later : List Stop}
    (declared : DeclaredIn name body upTo later) :
    Balanced upTo ∧ Balanced later ∧ name ∈ boundNames 0 upTo := by
  have balanced := Balanced.composed noneChosen
  cases declared with
  | mk done rest exported alone before after declarator span named single =>
      have lastly : name ∈ boundNames 0 [.outside (.declare declarator alone span)] := by
        simp [boundNames, Stop.outside, Visit.names, named]
      have visited := (balanced.stmts done).append
        (balanced.declarators (before ++ declarator :: after))
      refine ⟨visited.append (balanced.declares (before ++ [declarator]) alone span),
        (balanced.declares after alone span).append (balanced.stmts rest), ?_⟩
      · have first := visited.append (balanced.declares before alone span)
        rw [List.map_append, ← List.append_assoc, first.boundNames_append]
        exact List.mem_append_right _ lastly

/-- The walk over a function opens it, goes over its parameters and its body, and closes it. -/
theorem IsFunction.route (isFunction : IsFunction f params body) :
    ∃ closing, f.route noneChosen =
      f.opening ++ (parametersRoute noneChosen params ++ stmtsRoute noneChosen body) ++ closing := by
  cases isFunction with
  | function params body span => exact ⟨[.outside .leave], rfl⟩
  | arrow params concise body span => exact ⟨[], (List.append_nil _).symm⟩

/-- The names that stay bound behind a function are those that it leaks. -/
theorem IsFunction.leaks_eq (isFunction : IsFunction f params body) :
    boundNames 0 (f.route noneChosen) = f.leaks := by
  cases isFunction with
  | function params body span =>
      have balanced := Balanced.composed noneChosen
      have inner := (balanced.parameters params).append (balanced.stmts body)
      have route : (Expr.function params body span).route noneChosen =
          .outside (.enter params span) :: ((parametersRoute noneChosen params ++
            stmtsRoute noneChosen body) ++ [.outside .leave]) := rfl
      rw [route, boundNames]
      exact inner.boundNames_append 1 _
  | arrow params concise body span => rfl

variable {context : UsageContext} {usage here : Usage} {name : String} {inner : List Frame}
  {added : Scope}

theorem IsFunction.opened_ne_nil (isFunction : IsFunction f params body)
    (context : UsageContext) (inFunction : usage.frames ≠ []) :
    (usage.follow context f.opening).frames ≠ [] := by
  cases isFunction with
  | function params body span =>
      rcases enter_frames context params span usage with ⟨frame, entered, -⟩
      intro none
      exact List.cons_ne_nil _ _ (entered.symm.trans none)
  | arrow params concise body span => exact inFunction

/-- What is bound in a function since it was entered, and its own parameters, are bound since the
walk was outside. -/
theorem IsFunction.extends (isFunction : IsFunction f params body)
    (inFunction : usage.frames ≠ [])
    (within : (usage.follow context f.opening).Extends here inner added) :
    ∃ inner' added', usage.Extends here inner' added' ∧
      ∀ name, (addedType? inner added name).isSome = true ∨ name ∈ context.ownParameters f →
        (addedType? inner' added' name).isSome = true := by
  cases isFunction with
  | function params body span =>
      rcases enter_frames context params span usage with ⟨frame, entered, names⟩
      refine ⟨_, _, within.of_entered inFunction entered, fun name own => ?_⟩
      rw [addedType?_isSome_iff] at own ⊢
      right
      rcases own with (bound | ⟨holder, mem, bound⟩) | parameter
      · refine ⟨_, List.mem_append_right _ (.head _), ?_⟩
        rw [List.map_append]
        exact List.mem_append_left _ bound
      · exact ⟨holder, List.mem_append_left _ mem, bound⟩
      · refine ⟨_, List.mem_append_right _ (.head _), ?_⟩
        rw [List.map_append, names]
        exact List.mem_append_right _ (List.mem_reverse.mpr parameter)
  | arrow params concise body span =>
      refine ⟨inner, added, within, fun name own => own.resolve_right ?_⟩
      exact List.not_mem_nil

/-- A declared variable keeps a type of its own. -/
theorem IsFunction.declared_binds (isFunction : IsFunction f params body)
    (inFunction : usage.frames ≠ []) {upTo later seen unseen : List Stop}
    (declared : DeclaredIn name body upTo later) (split : later = seen ++ unseen) :
    ∃ type, Usage.BindsSince context usage
      (usage.follow context (f.opening ++ parametersRoute noneChosen params ++ upTo ++ seen))
      name type := by
  rcases declared.bound with ⟨balancedUpTo, balancedLater, bound⟩
  have balancedParams := (Balanced.composed noneChosen).parameters params
  rcases (balancedParams.append balancedUpTo).grows context _
      (isFunction.opened_ne_nil context inFunction) with ⟨added, grown, names⟩
  have named : (addedType? [] added name).isSome = true := by
    rw [addedType?_isSome_iff, names, balancedParams.boundNames_append]
    exact .inl (List.mem_reverse.mpr (List.mem_append_right _ bound))
  rcases isFunction.extends inFunction grown with ⟨inner, outer, extended, own⟩
  rcases balancedLater.leads context split grown.inFunction with ⟨deeper, more, onward, -⟩
  have binds := extended.stays context (own name (.inl named)) onward
  rwa [← Usage.follow_append, ← Usage.follow_append, ← List.append_assoc, ← List.append_assoc]
    at binds

/-- A parameter that is bound as the function is entered has a type of its own everywhere in it. -/
theorem IsFunction.parameter_binds (isFunction : IsFunction f params body)
    (inFunction : usage.frames ≠ []) (own : name ∈ context.ownParameters f)
    {seen unseen : List Stop}
    (split : parametersRoute noneChosen params ++ stmtsRoute noneChosen body = seen ++ unseen) :
    ∃ type, Usage.BindsSince context usage (usage.follow context (f.opening ++ seen)) name type := by
  have balanced := Balanced.composed noneChosen
  have inner := (balanced.parameters params).append (balanced.stmts body)
  rcases inner.leads context split (isFunction.opened_ne_nil context inFunction) with
    ⟨deeper, added, extended, -⟩
  rcases isFunction.extends inFunction extended with ⟨outer, more, outside, bound⟩
  rw [Usage.follow_append]
  exact outside.binds (bound name (.inr own))

/-- Every other name has the type that it has outside, as long as nothing in the function has bound
it. -/
theorem IsFunction.other_keeps (isFunction : IsFunction f params body)
    (inFunction : usage.frames ≠ []) (other : name ∉ context.ownParameters f)
    {seen unseen : List Stop}
    (split : parametersRoute noneChosen params ++ stmtsRoute noneChosen body = seen ++ unseen)
    (unbound : name ∉ boundOn context seen) :
    ((usage.follow context (f.opening ++ seen)).setting context).variableType name =
      (usage.setting context).variableType name := by
  have balanced := Balanced.composed noneChosen
  have within := ((balanced.parameters params).append (balanced.stmts body)).leads context split
    (isFunction.opened_ne_nil context inFunction)
  have bound : boundOn context (f.opening ++ seen) =
      context.ownParameters f ++ boundOn context seen := by
    cases isFunction <;> rfl
  have leads : usage.Leads context (usage.follow context (f.opening ++ seen)) (f.opening ++ seen) := by
    rw [Usage.follow_append]
    cases isFunction with
    | function params body span => exact .entered params span false inFunction within
    | arrow params concise body span => exact within
  rcases leads with ⟨inner, added, extended, named⟩
  apply extended.keeps
  intro isBound
  have mem := named name isBound
  rw [bound] at mem
  exact (List.mem_append.mp mem).elim other unbound

/-- Behind a function the variables that it leaks have the types that they have in it, and all others
those from before. -/
theorem IsFunction.leaves (isFunction : IsFunction f params body) (inFunction : usage.frames ≠ [])
    (name : String) :
    (name ∈ f.leaks → ∃ type,
      Usage.BindsSince context usage (usage.follow context (f.route noneChosen)) name type) ∧
    (name ∉ f.leaks →
      ((usage.follow context (f.route noneChosen)).setting context).variableType name =
        (usage.setting context).variableType name) := by
  have balanced := (Balanced.composed noneChosen).expr f
  rcases balanced.grows context usage inFunction with ⟨added, grown, names⟩
  rw [isFunction.leaks_eq] at names
  have bound : (addedType? [] added name).isSome = true ↔ name ∈ f.leaks := by
    rw [addedType?_isSome_iff, names]
    simp
  exact ⟨fun leaked => grown.binds (bound.mpr leaked), fun kept => grown.keeps fun leaked =>
    kept (bound.mp leaked)⟩

end Function

/-! ## Programs -/

/-- The scopes of a check, wherever the walk over a program comes to a function. A variable that is
declared directly in the body has from then on, until the function ends, the type of a binding made
in the function. So does a parameter if it is one of a method with a known signature; every other
name, parameters included, has the type that it has outside, as long as nothing in the function has
bound it. Behind the function, the variables of an arrow function have the types that they have in
it, and all other names those from before. So the bodies of functions may be left out, and of arrow
functions that bind nothing in theirs: the visits outside of them report the same. -/
theorem scopes_lexical (options : Options) (registry : Registry) (table : TypeTable) (file : Nat)
    (source : String) (program : Program) :
    let context := programContext options registry table file source program
    let after (route : List Stop) : Usage := Usage.start.follow context route
    (∀ before f params body, ComesTo program before f → IsFunction f params body →
      (∀ name upTo later seen unseen, DeclaredIn name body upTo later → later = seen ++ unseen →
        ∃ type, Usage.BindsSince context (after before)
          (after (before ++ (f.opening ++ parametersRoute noneChosen params ++ upTo ++ seen)))
          name type) ∧
      (∀ name ∈ context.ownParameters f, ∀ seen unseen,
        parametersRoute noneChosen params ++ stmtsRoute noneChosen body = seen ++ unseen →
        ∃ type, Usage.BindsSince context (after before) (after (before ++ (f.opening ++ seen)))
          name type) ∧
      (∀ name ∉ context.ownParameters f, ∀ seen unseen,
        parametersRoute noneChosen params ++ stmtsRoute noneChosen body = seen ++ unseen →
        name ∉ boundOn context seen →
        ((after (before ++ (f.opening ++ seen))).setting context).variableType name =
          ((after before).setting context).variableType name) ∧
      ∀ name,
        (name ∈ f.leaks → ∃ type, Usage.BindsSince context (after before)
          (after (before ++ f.route noneChosen)) name type) ∧
        (name ∉ f.leaks →
          ((after (before ++ f.route noneChosen)).setting context).variableType name =
            ((after before).setting context).variableType name)) ∧
    ∀ chosen : Expr → Bool,
      (∀ params concise body span, chosen (.arrow params concise body span) = true →
        boundNames 0 (stmtsRoute noneChosen body) = []) →
      let made := Usage.start.trace context (stmtsRoute chosen program.body)
      checkProgram options registry table file source program = reportOf context made ∧
      checkProgram options registry table file source (program.emptied chosen) =
        reportOf context (made.filter fun made => !made.1.inside) := by
  intro context after
  constructor
  · rintro before f params body ⟨rest, route⟩ isFunction
    have inFunction : (after before).frames ≠ [] := by
      have balanced := (Balanced.composed noneChosen).stmts program.body
      have started : Usage.start.frames ≠ [] := List.cons_ne_nil _ _
      rcases balanced.leads context (route.trans (List.append_assoc ..)) started with
        ⟨inner, added, extended, -⟩
      exact extended.inFunction
    have onward : ∀ later, after (before ++ later) = (after before).follow context later :=
      fun later => Usage.follow_append context _ before later
    refine ⟨?_, ?_, ?_, ?_⟩
    · intro name upTo later seen unseen declared split
      rw [onward]
      exact isFunction.declared_binds inFunction declared split
    · intro name own seen unseen split
      rw [onward]
      exact isFunction.parameter_binds inFunction own split
    · intro name other seen unseen split unbound
      rw [onward]
      exact isFunction.other_keeps inFunction other split unbound
    · intro name
      rw [onward]
      exact isFunction.leaves inFunction name
  · intro chosen harmless made
    exact ⟨checkProgram_trace options registry table file source program chosen,
      checkProgram_emptied options registry table file source program harmless⟩

section Leak

/-- The program `(() => { var Button = "div"; }); (function (Button) { Button; });`. -/
def leakingProgram : Program :=
  { body :=
      [.expression (.arrow [] false [.variables false
          [.initialized (.name "Button" default) (.string "div" default)] default] default) default,
        .expression (.function [.plain (.name "Button" default)]
          [.expression (.ident "Button" default) default] default) default],
    comments := [] }

/-- Whether an expression is a function with a scope of its own. -/
def hasOwnScope : Expr → Bool
  | .function _ _ _ => true
  | _ => false

/-- The variable of the arrow function is still bound behind it, and the parameter of the other
function has the type of the variable. -/
theorem scopes_lexical_leak :
    let context := programContext .standard .empty .empty 0 "" leakingProgram
    let arrow : Expr := .arrow [] false [.variables false
      [.initialized (.name "Button" default) (.string "div" default)] default] default
    let behind := Usage.start.follow context (arrow.route noneChosen)
    let within := Usage.start.follow context (arrow.route noneChosen ++
      [.outside (.enter [.plain (.name "Button" default)] default)])
    (∃ type, Usage.BindsSince context Usage.start behind "Button" type) ∧
    (within.setting context).variableType "Button" = (behind.setting context).variableType "Button" ∧
    checkProgram .standard .empty .empty 0 "" (leakingProgram.emptied hasOwnScope) =
      reportOf context ((Usage.start.trace context
        (stmtsRoute hasOwnScope leakingProgram.body)).filter fun made => !made.1.inside) := by
  intro context arrow behind within
  have scopes := scopes_lexical .standard .empty .empty 0 "" leakingProgram
  have ofArrow := scopes.1 [] arrow _ _ ⟨_, rfl⟩ (.arrow _ _ _ _)
  have ofFunction := scopes.1 (arrow.route noneChosen) _ _ _ ⟨[], rfl⟩
    (.function [.plain (.name "Button" default)] [.expression (.ident "Button" default) default]
      default)
  refine ⟨(ofArrow.2.2.2 "Button").1 (by decide), ?_, ?_⟩
  · exact ofFunction.2.2.1 "Button" (by decide) [] _ rfl (by decide)
  · exact (scopes.2 hasOwnScope fun _ _ _ _ isArrow => absurd isArrow Bool.false_ne_true).2

end Leak

end ClassFactory
