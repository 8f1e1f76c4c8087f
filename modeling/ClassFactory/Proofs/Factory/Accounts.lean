/-
Module: ClassFactory.Proofs.Factory.Accounts
Purpose: Every factory call of a compilation is recorded once. A call that is bound is met twice,
  first where it is bound and later as an expression, and is passed over there because it begins
  where a bound call begins. That is right as long as no two factory calls of a program begin in one
  place, which holds of whatever the parser reads.
Main exports: Anticipated, recordedCalls_perm, ParsedFile.factoryCalls, ParsedFile.BeginApart,
  ParsedFile.beginApart_of_parsed, factoryCalls_accounted
-/
import ClassFactory.Proofs.Factory.Recording
import ClassFactory.Proofs.Script.Statements
import Mathlib.Data.List.Nodup
import Mathlib.Data.List.Perm.Subperm

namespace ClassFactory

open Script (Expr Item Property Key Binding Parameter Declarator Attribute Child Stmt Part Node
  Program Tag)

/-! ## Binders and the calls that they bind -/

section Anticipation

variable {unit : SourceUnit}

/-- The factory calls are those of the nodes, one after another. -/
theorem factoryCalls_cons (node : Node) (nodes : List Node) :
    unit.factoryCalls (node :: nodes) =
      (unit.nodeCall? node).toList ++ unit.factoryCalls nodes := by
  rw [SourceUnit.factoryCalls, List.filterMap_cons]
  cases unit.nodeCall? node <;> rfl

theorem boundCalls_cons (node : Node) (nodes : List Node) :
    unit.boundCalls (node :: nodes) =
      (unit.boundCall? node).toList ++ unit.boundCalls nodes := by
  rw [SourceUnit.boundCalls, List.filterMap_cons]
  cases unit.boundCall? node <;> rfl

theorem factoryCalls_append (nodes later : List Node) :
    unit.factoryCalls (nodes ++ later) = unit.factoryCalls nodes ++ unit.factoryCalls later :=
  List.filterMap_append

theorem boundCalls_append (nodes later : List Node) :
    unit.boundCalls (nodes ++ later) = unit.boundCalls nodes ++ unit.boundCalls later :=
  List.filterMap_append

/-- From every place on, the calls that are bound are among the calls that follow, each bound
once. -/
def Anticipated (unit : SourceUnit) (nodes : List Node) : Prop :=
  ∀ later, later <:+ nodes → (unit.boundCalls later).Subperm (unit.factoryCalls later)

namespace Anticipated

variable {nodes later : List Node}

/-- Among the calls of some nodes are those that they bind. -/
theorem subperm (h : Anticipated unit nodes) :
    (unit.boundCalls nodes).Subperm (unit.factoryCalls nodes) :=
  h nodes (List.suffix_refl nodes)

theorem nil : Anticipated unit [] := by
  intro later suffix
  rw [List.suffix_nil.mp suffix]
  exact List.Subperm.refl []

/-- What is anticipated in two parts is anticipated in both together. -/
theorem append (h : Anticipated unit nodes) (h' : Anticipated unit later) :
    Anticipated unit (nodes ++ later) := by
  rintro rest ⟨front, split⟩
  rcases List.append_eq_append_iff.mp split with ⟨part, rfl, whole⟩ | ⟨part, rfl, whole⟩
  · rw [whole, boundCalls_append, factoryCalls_append]
    exact (h part (List.suffix_append front part)).append h'.subperm
  · exact h' rest ⟨part, whole.symm⟩

/-- A node in front adds nothing if all that is bound, by it as well, follows. -/
theorem cons (h : Anticipated unit nodes) (node : Node)
    (bound : (unit.boundCalls (node :: nodes)).Subperm (unit.factoryCalls (node :: nodes))) :
    Anticipated unit (node :: nodes) := by
  intro later suffix
  rcases List.suffix_cons_iff.mp suffix with rfl | within
  · exact bound
  · exact h later within

theorem tail {node : Node} (h : Anticipated unit (node :: nodes)) : Anticipated unit nodes :=
  fun later suffix => h later (suffix.trans (List.suffix_cons node nodes))

/-- A node that binds nothing may stand in front. -/
theorem plain (h : Anticipated unit nodes) (node : Node) (binds : unit.boundCall? node = none) :
    Anticipated unit (node :: nodes) := by
  apply h.cons
  rw [boundCalls_cons, factoryCalls_cons, binds]
  exact h.subperm.trans (List.sublist_append_right _ _).subperm

/-- The call that a value is follows at its own node, besides what is bound within it. -/
theorem value : (e : Expr) → Anticipated unit e.nodes →
    ((unit.factoryCall? e.unparen).toList ++ unit.boundCalls e.nodes).Subperm
      (unit.factoryCalls e.nodes)
  | .paren inner _, h => value inner h.tail
  | .call callee args span, h => by
      rw [Expr.nodes, boundCalls_cons, factoryCalls_cons]
      exact (List.Subperm.refl _).append (tail h).subperm
  | .ident .., h | .this .., h | .string .., h | .number .., h | .bool .., h | .null .., h
  | .regex .., h | .template .., h | .array .., h | .object .., h | .function .., h
  | .arrow .., h | .member .., h | .construct .., h | .unary .., h | .binary .., h
  | .conditional .., h | .assign .., h | .element .., h | .fragment .., h | .other .., h =>
    h.subperm

/-- A node that binds a value may stand in front of nodes that end with those of the value. -/
theorem binder {e : Expr} (h : Anticipated unit nodes) (node : Node) (h' : Anticipated unit e.nodes)
    (binds : unit.boundCall? node = unit.factoryCall? e.unparen)
    (calls : unit.nodeCall? node = none) : Anticipated unit (node :: (nodes ++ e.nodes)) := by
  apply (h.append h').cons
  rw [boundCalls_cons, factoryCalls_cons, binds, calls, boundCalls_append, factoryCalls_append,
    ← List.append_assoc]
  refine (List.perm_append_comm.append_right _).subperm.trans ?_
  rw [List.append_assoc]
  exact h.subperm.append (value e h')

/-- A tag and its parts neither bind a call nor are one. -/
theorem tag : (t : Tag) → Anticipated unit t.nodes
  | .member object _ _ => (tag object).plain _ rfl
  | .plain | .this | .reference .. => nil.plain _ rfl

theorem closing : (closing : Option Tag) → Anticipated unit (Script.closingNodes closing)
  | some t => tag t
  | none => nil

mutual
/-- Whatever is bound within an expression is a call further on. -/
theorem expr : (e : Expr) → Anticipated unit e.nodes
  | .template parts _ => (exprs parts).plain _ rfl
  | .array items _ => (Anticipated.items items).plain _ rfl
  | .object properties _ => (Anticipated.properties properties).plain _ rfl
  | .function params body _ => ((parameters params).append (stmts body)).plain _ rfl
  | .arrow params _ body _ => ((parameters params).append (stmts body)).plain _ rfl
  | .member owner _ _ _ => (expr owner).plain _ rfl
  | .call callee args _ => ((expr callee).append (items args)).plain _ rfl
  | .construct callee args _ => ((expr callee).append (items args)).plain _ rfl
  | .unary _ operand _ => (expr operand).plain _ rfl
  | .binary _ left right _ => ((expr left).append (expr right)).plain _ rfl
  | .conditional test consequent alternate _ =>
    (((expr test).append (expr consequent)).append (expr alternate)).plain _ rfl
  | .assign target value span => by
      have bound := (expr target).binder (.expr (.assign target value span)) (expr value)
      have free := ((expr target).append (expr value)).plain (.expr (.assign target value span))
      cases target with
      | ident name place => exact bound rfl rfl
      | member owner property propertySpan place =>
          by_cases named : owner.qualifiedName?.isSome
          · exact bound (if_pos named) rfl
          · exact free (if_neg named)
      | _ => exact free rfl
  | .paren inner _ => (expr inner).plain _ rfl
  | .element t given inside last _ =>
    ((((tag t).append (attributes given)).append (children inside)).append
      (closing last)).plain _ rfl
  | .fragment inside _ => (children inside).plain _ rfl
  | .other _ inside _ => (parts inside).plain _ rfl
  | .ident .. | .this .. | .string .. | .number .. | .bool .. | .null .. | .regex .. =>
    nil.plain _ rfl

theorem exprs : (es : List Expr) → Anticipated unit (Script.exprNodes es)
  | [] => nil
  | e :: rest => (expr e).append (exprs rest)

theorem item : (item : Item) → Anticipated unit item.nodes
  | .value e => expr e
  | .spread e _ => expr e
  | .hole => nil

theorem items : (items : List Item) → Anticipated unit (Script.itemNodes items)
  | [] => nil
  | first :: rest => (item first).append (items rest)

theorem key : (key : Key) → Anticipated unit key.nodes
  | .named _ _ => nil
  | .computed e => expr e

theorem property : (property : Property) → Anticipated unit property.nodes
  | .entry name value _ => (key name).append (expr value)
  | .spread e _ => expr e

theorem properties : (properties : List Property) →
    Anticipated unit (Script.propertyNodes properties)
  | [] => nil
  | first :: rest => (property first).append (properties rest)

theorem binding : (binding : Binding) → Anticipated unit binding.nodes
  | .name _ _ => nil
  | .pattern inside => exprs inside

theorem parameter : (parameter : Parameter) → Anticipated unit parameter.nodes
  | .plain bound => binding bound
  | .defaulted bound value => (binding bound).append (expr value)
  | .rest bound => binding bound

theorem parameters : (parameters : List Parameter) →
    Anticipated unit (Script.parameterNodes parameters)
  | [] => nil
  | first :: rest => (parameter first).append (parameters rest)

theorem declarator : (declarator : Declarator) → Anticipated unit declarator.nodes
  | .bare bound => (binding bound).plain _ rfl
  | .initialized (.name _ _) value => nil.binder _ (expr value) rfl rfl
  | .initialized (.pattern inside) value => ((exprs inside).append (expr value)).plain _ rfl

theorem declarators : (declarators : List Declarator) →
    Anticipated unit (Script.declaratorNodes declarators)
  | [] => nil
  | first :: rest => (declarator first).append (declarators rest)

theorem given : (given : Attribute) → Anticipated unit given.nodes
  | .named _ value _ => expr value
  | .foreign value => expr value
  | .spread e => expr e

theorem attributes : (givens : List Attribute) → Anticipated unit (Script.attributeNodes givens)
  | [] => nil
  | first :: rest => (given first).append (attributes rest)

theorem child : (child : Child) → Anticipated unit child.nodes
  | .text _ _ => nil
  | .value e _ => expr e
  | .spread e _ => expr e

theorem children : (children : List Child) → Anticipated unit (Script.childNodes children)
  | [] => nil
  | first :: rest => (child first).append (children rest)

theorem stmt : (s : Stmt) → Anticipated unit s.nodes
  | .expression e _ => (expr e).plain _ rfl
  | .variables _ declared _ => (declarators declared).plain _ rfl
  | .returns value => (expr value).plain _ rfl
  | .other inside => (parts inside).plain _ rfl

theorem stmts : (statements : List Stmt) → Anticipated unit (Script.stmtNodes statements)
  | [] => nil
  | first :: rest => (stmt first).append (stmts rest)

theorem part : (part : Part) → Anticipated unit part.nodes
  | .expr e => expr e
  | .stmt s => stmt s

theorem parts : (parts : List Part) → Anticipated unit (Script.partNodes parts)
  | [] => nil
  | first :: rest => (part first).append (parts rest)
end

end Anticipated

/-- A node that binds a call is none itself. -/
theorem nodeCall?_of_binds {node : Node} {call : CallPlace}
    (binds : unit.boundCall? node = some call) : unit.nodeCall? node = none := by
  cases node with
  | expr e =>
      cases e with
      | call => cases binds
      | _ => rfl
  | _ => rfl

/-- Where calls begin. -/
abbrev starts (calls : List CallPlace) : List Nat :=
  calls.map fun call => call.2.start

/-- Calls that are among others which begin apart begin apart themselves. -/
theorem starts_nodup {calls others : List CallPlace} (among : calls.Subperm others)
    (distinct : (starts others).Nodup) : (starts calls).Nodup := by
  obtain ⟨arranged, same, within⟩ := among
  exact (same.map _).nodup_iff.mp (distinct.sublist (within.map _))

/-- A call whose start no other call shares may be taken out of those that begin in some places. -/
theorem filter_perm_cons {calls : List CallPlace} {call : CallPlace} (mem : call ∈ calls)
    (distinct : (starts calls).Nodup) {bound : List Nat} (free : call.2.start ∉ bound) :
    (calls.filter fun other => !bound.contains other.2.start).Perm
      (call :: calls.filter fun other => !(call.2.start :: bound).contains other.2.start) := by
  obtain ⟨before, after, rfl⟩ := List.append_of_mem mem
  have others : ∀ other ∈ before ++ after, other.2.start ≠ call.2.start := by
    rw [starts, List.map_append, List.map_cons, List.nodup_middle, ← List.map_append] at distinct
    exact fun other isOther same =>
      (List.nodup_cons.mp distinct).1 (List.mem_map.mpr ⟨other, isOther, same⟩)
  have kept : (before ++ after).filter (fun other => !bound.contains other.2.start) =
      (before ++ after).filter fun other => !(call.2.start :: bound).contains other.2.start :=
    List.filter_congr fun other isOther => by simp [others other isOther]
  have taken : (!bound.contains call.2.start) = true := by simpa using free
  have left : ¬(!(call.2.start :: bound).contains call.2.start) = true := by simp
  have apart : (before ++ call :: after).filter
      (fun other => !(call.2.start :: bound).contains other.2.start) =
      (before ++ after).filter fun other => !bound.contains other.2.start := by
    rw [kept, List.filter_append, List.filter_cons, if_neg left, ← List.filter_append]
  rw [apart, List.filter_append, List.filter_cons, if_pos taken, List.filter_append]
  exact List.perm_middle

/-- What nodes record is every call among them, as far as it is not bound already. -/
theorem recordedCalls_perm (unit : SourceUnit) (nodes : List Node)
    (anticipated : Anticipated unit nodes)
    (distinct : (starts (unit.factoryCalls nodes)).Nodup) (bound : List Nat)
    (unbound : ∀ call ∈ unit.boundCalls nodes, call.2.start ∉ bound) :
    (Collection.recordedCalls unit bound nodes).Perm
      ((unit.factoryCalls nodes).filter fun call => !bound.contains call.2.start) := by
  induction nodes generalizing bound with
  | nil => exact .refl _
  | cons node rest ih =>
      have first := anticipated.subperm
      rw [boundCalls_cons] at first unbound
      rw [factoryCalls_cons] at first distinct
      have rests := starts_nodup (List.sublist_append_right _ _).subperm distinct
      rw [Collection.recordedCalls, Collection.nodeCalls, Collection.freeCall, factoryCalls_cons,
        List.filter_append]
      cases binds : unit.boundCall? node with
      | none =>
          rw [binds] at unbound
          exact (ih anticipated.tail rests bound unbound).append_left _
      | some call =>
          rw [binds] at first unbound
          rw [nodeCall?_of_binds binds] at first ⊢
          have boundOnce := starts_nodup first rests
          have later := ih anticipated.tail rests (call.2.start :: bound) (by
            intro other isOther
            rw [List.mem_cons, not_or]
            refine ⟨fun same => ?_, unbound other (List.mem_cons_of_mem call isOther)⟩
            exact (List.nodup_cons.mp boundOnce).1 (List.mem_map.mpr ⟨other, isOther, same⟩))
          have taken := filter_perm_cons (first.subset (List.mem_cons_self ..)) rests
            (unbound call (List.mem_cons_self ..))
          exact (later.cons call).trans taken.symm

end Anticipation

/-! ## What a compilation records -/

/-- A factory is called by its name. -/
theorem qualified_of_factoryKind? {unit : SourceUnit} {callee : Expr} {kind : FactoryKind}
    (creates : unit.factoryKind? callee = some kind) : callee.qualifiedName?.isSome := by
  unfold SourceUnit.factoryKind? at creates
  split at creates
  next name named => rw [named]; rfl
  next => cases creates

/-- A factory call starts where its node does. -/
theorem nodeCall?_start {unit : SourceUnit} {node : Node} {call : CallPlace}
    (is : unit.nodeCall? node = some call) : node.callStart? = some call.2.start := by
  cases node with
  | expr e =>
      cases e with
      | call callee args span =>
          obtain ⟨kind, creates, rfl⟩ := Option.map_eq_some_iff.mp is
          exact if_pos (qualified_of_factoryKind? creates)
      | _ => cases is
  | _ => cases is

/-- Factory calls begin where calls of something by its name begin. -/
theorem starts_factoryCalls (unit : SourceUnit) (nodes : List Node) :
    (starts (unit.factoryCalls nodes)).Sublist (Script.callStarts nodes) := by
  induction nodes with
  | nil => exact .slnil
  | cons node rest ih =>
      rw [factoryCalls_cons, starts, List.map_append, Script.callStarts_cons]
      refine List.Sublist.append ?_ ih
      cases is : unit.nodeCall? node with
      | none => exact List.nil_sublist _
      | some call => rw [nodeCall?_start is]; exact .refl _

namespace ParsedFile

/-- The calls in a file of which the callee's qualified name is a factory. -/
def factoryCalls (options : Options) (parsed : ParsedFile) : List (FactoryKind × Site) :=
  (parsed.unit options).places ((parsed.unit options).factoryCalls parsed.program.nodes)

/-- No two factory calls of a file begin in one place. That is the parser's part: each call has a range
of its own in the text, which begins where its callee does. -/
def BeginApart (options : Options) (parsed : ParsedFile) : Prop :=
  (starts ((parsed.unit options).factoryCalls parsed.program.nodes)).Nodup

variable {options : Options} {parsed : ParsedFile}

/-- The factory calls begin apart in whatever program is read from the text of a file. -/
theorem beginApart_of_parsed (options : Options)
    (read : Script.parseProgram? parsed.text = some parsed.program) : parsed.BeginApart options :=
  ((Script.parseProgram?_callStarts read).sublist (starts_factoryCalls _ _)).imp Nat.ne_of_lt

/-- Collecting a file records each of its factory calls once. -/
theorem BeginApart.collects (apart : parsed.BeginApart options) (registry : Registry) :
    (collectProgram options parsed.file parsed.text parsed.program registry).recorded.Perm
      (registry.recorded ++ parsed.factoryCalls options) := by
  have every := recordedCalls_perm (parsed.unit options) parsed.program.nodes
    (Anticipated.stmts parsed.program.body) apart [] (by simp)
  rw [List.filter_eq_self.mpr (by simp)] at every
  exact (Collection.foldl_recorded (parsed.unit options) _ _).trans
    ((every.map _).append_left registry.recorded)

/-- The sites of the factory calls of a file are distinct. -/
theorem BeginApart.sites_nodup (apart : parsed.BeginApart options) :
    ((parsed.factoryCalls options).map Prod.snd).Nodup := by
  rw [factoryCalls, SourceUnit.places, List.map_map]
  refine .of_map Site.start ?_
  rw [List.map_map]
  exact apart

/-- The factory calls of a file stand in that file. -/
theorem file_of_factoryCalls {call : FactoryKind × Site}
    (isCall : call ∈ parsed.factoryCalls options) : call.2.file = parsed.file := by
  obtain ⟨place, -, rfl⟩ := List.mem_map.mp isCall
  rfl

end ParsedFile

section Files

variable {options : Options} {files : List ParsedFile}

/-- Collecting files one after another records each of their factory calls once. -/
theorem collect_recorded (apart : ∀ parsed ∈ files, parsed.BeginApart options)
    (registry : Registry) :
    (files.foldl (fun registry parsed =>
        collectProgram options parsed.file parsed.text parsed.program registry)
      registry).recorded.Perm (registry.recorded ++ files.flatMap (·.factoryCalls options)) := by
  induction files generalizing registry with
  | nil => rw [List.flatMap_nil, List.append_nil]; exact .refl _
  | cons first rest ih =>
      rw [List.foldl_cons, List.flatMap_cons, ← List.append_assoc]
      have here := (apart first (List.mem_cons_self ..)).collects registry
      exact (ih (fun parsed isRest => apart parsed (List.mem_cons_of_mem first isRest)) _).trans
        (here.append_right _)

/-- The sites of the factory calls of files that are numbered apart are distinct. -/
theorem sites_nodup (apart : ∀ parsed ∈ files, parsed.BeginApart options)
    (numbered : (files.map (·.file)).Nodup) :
    ((files.flatMap (·.factoryCalls options)).map Prod.snd).Nodup := by
  rw [List.map_flatMap, List.nodup_flatMap]
  refine ⟨fun parsed isFile => (apart parsed isFile).sites_nodup, ?_⟩
  refine (List.pairwise_map.mp numbered).imp fun {first second} different => ?_
  intro site isFirst isSecond
  obtain ⟨call, isCall, rfl⟩ := List.mem_map.mp isFirst
  obtain ⟨other, isOther, same⟩ := List.mem_map.mp isSecond
  apply different
  rw [← ParsedFile.file_of_factoryCalls isCall, ← same, ParsedFile.file_of_factoryCalls isOther]

/-- Whatever programs are collected, if the factory calls of each begin apart, the calls of class and
mixin factories in them are just what the registry records, each once, as a call or as one left out
of the analysis; and if the files are numbered apart, no two of these records share a site. -/
theorem factoryCalls_accounted (apart : ∀ parsed ∈ files, parsed.BeginApart options) :
    (collectAll options files).recorded.Perm (files.flatMap (·.factoryCalls options)) ∧
    ((files.map (·.file)).Nodup → ((collectAll options files).recorded.map Prod.snd).Nodup) := by
  have every := collect_recorded apart Registry.empty
  rw [← Registry.recorded_finish] at every
  exact ⟨every, fun numbered => (every.map _).nodup_iff.mpr (sites_nodup apart numbered)⟩

end Files

/-- A mixin in the specification of a component that is bound by a declaration; a component with a
dotted name, one that takes the name of the first, and one without a name. -/
def listedText : String :=
  "var a = (React.createClass(\x7b mixins: [React.createMixin(\x7b\x7d)] \x7d)); " ++
    "N.a = React.createClass(\x7b\x7d); a = createReactClass(\x7b\x7d); React.createClass();"

/-- The calls of this text begin apart, and all five of them are recorded, each at its place. -/
theorem factoryCalls_accounted_listed :
    ∃ program, Script.parseProgram? listedText = some program ∧
    (collectAll .standard [⟨0, listedText, program⟩]).recorded.Perm
      [(.component, ⟨0, 9, 63⟩), (.mixin, ⟨0, 38, 59⟩), (.component, ⟨0, 72, 93⟩),
        (.component, ⟨0, 99, 119⟩), (.component, ⟨0, 121, 140⟩)] ∧
    ((collectAll .standard [⟨0, listedText, program⟩]).recorded.map Prod.snd).Nodup := by
  have listed : (Script.parseProgram? listedText).map (fun program =>
      ParsedFile.factoryCalls .standard ⟨0, listedText, program⟩) =
      some [(.component, ⟨0, 9, 63⟩), (.mixin, ⟨0, 38, 59⟩), (.component, ⟨0, 72, 93⟩),
        (.component, ⟨0, 99, 119⟩), (.component, ⟨0, 121, 140⟩)] := by decide +kernel
  obtain ⟨program, parses, calls⟩ := Option.map_eq_some_iff.mp listed
  have apart : ∀ parsed ∈ [(⟨0, listedText, program⟩ : ParsedFile)],
      parsed.BeginApart .standard := fun parsed isFile =>
    ParsedFile.beginApart_of_parsed .standard (List.mem_singleton.mp isFile ▸ parses)
  obtain ⟨every, distinct⟩ := factoryCalls_accounted apart
  rw [List.flatMap_singleton, calls] at every
  exact ⟨program, parses, every, distinct (List.nodup_singleton 0)⟩

end ClassFactory
