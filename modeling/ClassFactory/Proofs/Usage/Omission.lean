/-
Module: ClassFactory.Proofs.Usage.Omission
Purpose: What is reported outside of functions does not depend on what stands in them. A function
  that is entered takes its variables with it when it is left. The body of an arrow function shares
  the scope of the code around it, so it can be left out unnoticed only if it binds no variables.
Main exports: Usage.trace, reportOf, Spares, Spares.composed, checkProgram_trace,
  checkProgram_emptied
-/
import ClassFactory.Proofs.Usage.Emptied
import ClassFactory.Proofs.Usage.Scopes

namespace ClassFactory

open Script (Expr Parameter Program)

/-! ## What is found outside -/

/-- What a visit attaches. -/
def Visit.attached (context : UsageContext) (usage : Usage) (visit : Visit) : List (Site × Ty) :=
  (visit.apply context usage.bare).attached

/-- The visits of a route that look at something, each with the variables in scope where it is
made. -/
def Usage.trace (context : UsageContext) : Usage → List Stop → List (Stop × Usage)
  | _, [] => []
  | usage, stop :: route =>
    (if stop.visit.looks then [(stop, usage.bare)] else []) ++
      Usage.trace context (stop.visit.apply context usage) route

/-- The visits of a route that are made outside of chosen functions. -/
def outsideOf (route : List Stop) : List Stop := route.filter fun stop => !stop.inside

/-- What is reported of the visits that are made, in order. -/
def reportOf (context : UsageContext) (made : List (Stop × Usage)) : UsageReport :=
  { result := CheckResult.empty.extend
      (made.flatMap fun (stop, usage) => (stop.visit.found context usage).reverse),
    attachments := made.flatMap fun (stop, usage) => (stop.visit.attached context usage).reverse }

section Trace

variable (context : UsageContext)

/-- A step that appends depends on the variables only. -/
theorem Usage.Appends.frames_congr {step : Usage → Usage} (h : Usage.Appends step)
    {one other : Usage} (same : one.frames = other.frames) :
    (step one).frames = (step other).frames := by
  rw [h.frames one, h.frames other, Usage.bare_eq_of_frames same]

theorem Usage.follow_appends (route : List Stop) :
    Usage.Appends fun usage => usage.follow context route :=
  have each : ∀ stop : Stop, Usage.Appends fun usage => stop.visit.apply context usage :=
    fun stop => Visit.apply_appends context stop.visit
  .foldl each route

/-- The visits of two routes are those of the first one and then those of the second. -/
theorem trace_append (usage : Usage) (route later : List Stop) :
    usage.trace context (route ++ later) =
      usage.trace context route ++ (usage.follow context route).trace context later := by
  induction route generalizing usage with
  | nil => rfl
  | cons stop route ih =>
      rw [List.cons_append, Usage.trace, Usage.trace, ih, List.append_assoc]
      rfl

/-- Where the visits are made depends on the variables alone. -/
theorem trace_congr {usage other : Usage} (same : usage.frames = other.frames) (route : List Stop) :
    usage.trace context route = other.trace context route := by
  induction route generalizing usage other with
  | nil => rfl
  | cons stop route ih =>
      rw [Usage.trace, Usage.trace, Usage.bare_eq_of_frames same,
        ih ((Visit.apply_appends context stop.visit).frames_congr same)]

/-- What is found and attached along a route is what its visits find and attach. -/
theorem follow_report (usage : Usage) (route : List Stop) :
    (usage.follow context route).found.reverse = usage.found.reverse ++
        (usage.trace context route).flatMap (fun (stop, usage) =>
          (stop.visit.found context usage).reverse) ∧
      (usage.follow context route).attached.reverse = usage.attached.reverse ++
        (usage.trace context route).flatMap (fun (stop, usage) =>
          (stop.visit.attached context usage).reverse) := by
  induction route generalizing usage with
  | nil => simp [Usage.follow, Usage.trace]
  | cons stop route ih =>
      have appends := Visit.apply_appends context stop.visit
      rw [Usage.follow_cons, (ih _).1, (ih _).2, Usage.trace, List.flatMap_append,
        List.flatMap_append]
      by_cases looks : stop.visit.looks = true
      · rw [if_pos looks, appends.found, appends.attached]
        simp only [List.flatMap_cons, List.flatMap_nil, List.append_nil, List.reverse_append,
          List.append_assoc]
        exact ⟨rfl, rfl⟩
      · have quiet := Visit.apply_quiet context (Bool.eq_false_iff.mpr looks) usage
        rw [if_neg looks, quiet.1, quiet.2]
        exact ⟨rfl, rfl⟩

theorem outsideOf_append (route later : List Stop) :
    outsideOf (route ++ later) = outsideOf route ++ outsideOf later := List.filter_append ..

/-- Nothing of a body is left outside when the body is chosen. -/
theorem outsideOf_body (route : List Stop) : outsideOf (bodyRoute true route) = [] := by
  rw [bodyRoute, if_pos rfl, outsideOf, List.filter_map]
  exact List.map_eq_nil_iff.mpr (List.filter_eq_nil_iff.mpr fun _ _ => Bool.false_ne_true)

theorem trace_body (usage : Usage) (route : List Stop) :
    (usage.trace context (bodyRoute true route)).filter (fun made => !made.1.inside) = [] := by
  rw [bodyRoute, if_pos rfl]
  induction route generalizing usage with
  | nil => rfl
  | cons stop route ih =>
      rw [List.map_cons, Usage.trace, List.filter_append, ih, List.append_nil]
      split <;> rfl

/-- Making the visits of what remains does what the visits outside do. -/
theorem follow_remaining (chosen : Expr → Bool) (usage : Usage) (route : List Stop) :
    usage.follow context (remaining chosen route) = usage.follow context (outsideOf route) := by
  rw [remaining, Usage.follow, Usage.follow, List.foldl_map, outsideOf]
  congr 1
  funext usage stop
  exact Visit.apply_emptied chosen context usage stop.visit

/-- The visits in chosen functions can be left out: those outside are made with the same variables,
and lead to the same variables. -/
structure Spares (context : UsageContext) (route : List Stop) : Prop where
  balanced : Balanced route
  remains : Balanced (outsideOf route)
  frames : ∀ usage : Usage, usage.frames ≠ [] →
    (usage.follow context (outsideOf route)).frames = (usage.follow context route).frames
  trace : ∀ usage : Usage, usage.frames ≠ [] →
    usage.trace context (outsideOf route) =
      (usage.trace context route).filter fun made => !made.1.inside

/-- A walk that enters and leaves functions in pairs does not leave the one it started in. -/
theorem follow_ne_nil {route : List Stop} (balanced : Balanced route) {usage : Usage}
    (inFunction : usage.frames ≠ []) : (usage.follow context route).frames ≠ [] := by
  rcases balanced.grows context usage inFunction with ⟨added, grown, -⟩
  exact grown.inFunction

namespace Spares

variable {context : UsageContext} {route later : List Stop}

theorem nil : Spares context [] := ⟨.nil, .nil, fun _ _ => rfl, fun _ _ => rfl⟩

/-- Where visits can be left out of two routes, they can be left out of both together. -/
theorem append (h : Spares context route) (h' : Spares context later) :
    Spares context (route ++ later) where
  balanced := h.balanced.append h'.balanced
  remains := by
    rw [outsideOf_append]
    exact h.remains.append h'.remains
  frames usage inFunction := by
    have skipped := follow_ne_nil context h.remains inFunction
    rw [outsideOf_append, Usage.follow_append, Usage.follow_append, h'.frames _ skipped]
    exact (Usage.follow_appends context later).frames_congr (h.frames usage inFunction)
  trace usage inFunction := by
    have onward := follow_ne_nil context h.balanced inFunction
    rw [outsideOf_append, trace_append, trace_append, List.filter_append, h.trace usage inFunction,
      trace_congr context (h.frames usage inFunction), h'.trace _ onward]

/-- A visit outside of chosen functions is kept. -/
theorem stop (visit : Visit) (flat : visit.isFlat = true) : Spares context [.outside visit] where
  balanced := .flat visit flat false .nil
  remains := .flat visit flat false .nil
  frames _ _ := rfl
  trace usage _ := by
    cases looks : visit.looks <;> simp [Usage.trace, outsideOf, Stop.outside, looks]

/-- A function that is entered and left takes its variables with it, so only the visits in it need
agree. -/
theorem function (params : List Parameter) (span : Span) (balanced : Balanced route)
    (remains : Balanced (outsideOf route))
    (trace : ∀ usage : Usage, usage.frames ≠ [] →
      usage.trace context (outsideOf route) =
        (usage.trace context route).filter fun made => !made.1.inside) :
    Spares context (.outside (.enter params span) :: (route ++ [.outside .leave])) := by
  have outside : outsideOf (.outside (.enter params span) :: (route ++ [.outside .leave])) =
      .outside (.enter params span) :: (outsideOf route ++ [.outside .leave]) :=
    congrArg (List.cons _) (outsideOf_append route _)
  have entered : ∀ usage : Usage, ∃ frame,
      (usage.enter context params span).frames = frame :: usage.frames := fun usage =>
    (enter_frames context params span usage).imp fun _ h => h.1
  have enteredIn : ∀ usage : Usage, (usage.enter context params span).frames ≠ [] := by
    intro usage
    rcases entered usage with ⟨frame, frames⟩
    rw [frames]
    exact List.cons_ne_nil _ _
  have left : ∀ (usage : Usage) {route : List Stop}, Balanced route →
      (usage.follow context (.outside (.enter params span) :: (route ++ [.outside .leave]))).frames =
        usage.frames := by
    intro usage route balanced
    rcases entered usage with ⟨frame, frames⟩
    rcases balanced.grows context _ (enteredIn usage) with ⟨added, grown, -⟩
    rw [Usage.follow_cons, Usage.follow_append]
    exact leave_frames frames grown
  have around : ∀ (usage : Usage) (route : List Stop),
      usage.trace context (.outside (.enter params span) :: (route ++ [.outside .leave])) =
        (usage.enter context params span).trace context route := by
    intro usage route
    have walked := trace_append context (usage.enter context params span) route [.outside .leave]
    exact walked.trans (List.append_nil _)
  constructor
  · exact .function params span false false balanced .nil
  · rw [outside]
    exact .function params span false false remains .nil
  · intro usage inFunction
    rw [outside, left usage remains, left usage balanced]
  · intro usage inFunction
    rw [outside, around, around, trace _ (enteredIn usage)]

/-- What a chosen body holds is not found outside. -/
theorem body (balanced : Balanced route) (still : ∀ usage : Usage, usage.frames ≠ [] →
    (usage.follow context route).frames = usage.frames) : Spares context (bodyRoute true route) where
  balanced := balanced.marked true
  remains := by
    rw [outsideOf_body]
    exact .nil
  frames usage inFunction := by
    have made : usage.follow context (bodyRoute true route) = usage.follow context route := by
      rw [Usage.follow, bodyRoute, if_pos rfl, List.foldl_map]
      rfl
    rw [outsideOf_body, made]
    exact (still usage inFunction).symm
  trace usage inFunction := by
    rw [outsideOf_body, trace_body]
    rfl

/-- The chosen functions can be left out, if no chosen arrow function binds variables in its body. -/
theorem composed (context : UsageContext) {chosen : Expr → Bool}
    (harmless : ∀ params concise body span, chosen (.arrow params concise body span) = true →
      boundNames 0 (stmtsRoute noneChosen body) = []) :
    Composed chosen (Spares context) where
  nil := nil
  stop := stop
  append := append
  function params body span ofParams ofBody := by
    rw [Expr.route]
    cases chosen (.function params body span) with
    | false =>
        have both := ofParams.append ofBody
        exact .function params span both.balanced both.remains both.trace
    | true =>
        apply Spares.function
        · exact ofParams.balanced.append (ofBody.balanced.marked true)
        · rw [outsideOf_append, outsideOf_body, List.append_nil]
          exact ofParams.remains
        · intro usage inFunction
          rw [outsideOf_append, outsideOf_body, List.append_nil, trace_append, List.filter_append,
            trace_body, List.append_nil, ofParams.trace usage inFunction]
  arrow params concise body span ofParams ofBody := by
    rw [Expr.route]
    cases isChosen : chosen (.arrow params concise body span) with
    | false => exact ofParams.append ofBody
    | true =>
        apply ofParams.append (Spares.body ofBody.balanced ?_)
        intro usage inFunction
        have walked : usage.follow context (stmtsRoute chosen body) =
            usage.follow context (stmtsRoute noneChosen body) :=
          (checkStmts_follows context chosen body usage).symm.trans
            (checkStmts_follows context noneChosen body usage)
        rcases ((Balanced.composed noneChosen).stmts body).grows context usage inFunction with
          ⟨added, ⟨top, rest, frames, grown⟩, named⟩
        rw [harmless params concise body span isChosen, List.reverse_nil, List.map_eq_nil_iff] at named
        cases named
        rw [walked, grown, frames]
        rfl

end Spares

end Trace

/-! ## The check of what remains -/

section Program

variable (options : Options) (registry : Registry) (table : TypeTable) (file : Nat)
  (source : String) (program : Program)

/-- What is reported of a program is what its visits find and attach. -/
theorem checkProgram_trace (chosen : Expr → Bool) :
    let context := programContext options registry table file source program
    checkProgram options registry table file source program =
      reportOf context (Usage.start.trace context (stmtsRoute chosen program.body)) := by
  intro context
  have report := follow_report context Usage.start (stmtsRoute chosen program.body)
  rw [checkProgram_follows options registry table file source program chosen, reportOf]
  dsimp only
  rw [report.1, report.2]
  rfl

/-- With the bodies of chosen functions left out, the visits outside report what they did, if no
chosen arrow function binds variables in its body. -/
theorem checkProgram_emptied {chosen : Expr → Bool}
    (harmless : ∀ params concise body span, chosen (.arrow params concise body span) = true →
      boundNames 0 (stmtsRoute noneChosen body) = []) :
    let context := programContext options registry table file source program
    checkProgram options registry table file source (program.emptied chosen) =
      reportOf context ((Usage.start.trace context (stmtsRoute chosen program.body)).filter
        fun made => !made.1.inside) := by
  intro context
  have spares := (Spares.composed context harmless).stmts program.body
  have inFunction : Usage.start.frames ≠ [] := List.cons_ne_nil _ _
  have report := follow_report context Usage.start (outsideOf (stmtsRoute chosen program.body))
  have same : programContext options registry table file source (program.emptied chosen) =
      context := rfl
  rw [checkProgram_follows options registry table file source (program.emptied chosen) noneChosen,
    same, Script.Program.emptied, stmtsRoute_emptied, follow_remaining,
    ← spares.trace Usage.start inFunction, reportOf]
  dsimp only
  rw [report.1, report.2]
  rfl

end Program

end ClassFactory
