/-
Module: ClassFactory.Proofs.Guard.Interfaces
Purpose: The names under which interfaces are declared. The declaration of a type declares its
  interface on the first line that declares anything, and two types declare theirs under one name
  just if their own names differ at most by underscores in place of periods. So the guard, which
  looks components up by such names, finds the one that declares the interface only where no
  component is called like it and no call in front has a name that is alike.
Main exports: AlikeNames, interfaceOf_eq_iff, declaredInterface?, declaredInterface?_declaration,
  componentNamed?_interface_iff, interfaces_shared_iff
-/
import ClassFactory.Component.Declarations
import ClassFactory.Proofs.Guard.Members

namespace ClassFactory

/-! ## Names that are alike -/

/-- Characters that are one in an identifier, where an underscore takes the place of a period. -/
def AlikeCharacters (c d : Char) : Prop :=
  c = d ∨ c = '.' ∧ d = '_' ∨ c = '_' ∧ d = '.'

instance (c d : Char) : Decidable (AlikeCharacters c d) :=
  inferInstanceAs (Decidable (c = d ∨ c = '.' ∧ d = '_' ∨ c = '_' ∧ d = '.'))

/-- Names that differ at most by underscores in place of periods. -/
def AlikeNames (name other : String) : Prop :=
  List.Forall₂ AlikeCharacters name.toList other.toList

instance (name other : String) : Decidable (AlikeNames name other) :=
  inferInstanceAs (Decidable (List.Forall₂ AlikeCharacters name.toList other.toList))

/-- Characters are alike if they are written the same. -/
theorem alikeCharacters_iff {c d : Char} :
    (if c = '.' then '_' else c) = (if d = '.' then '_' else d) ↔ AlikeCharacters c d := by
  unfold AlikeCharacters
  grind

/-- Two types have interfaces of one name just if their names are alike. -/
theorem interfaceOf_eq_iff {name other : String} :
    interfaceOf name = interfaceOf other ↔ AlikeNames name other := by
  have identifiers : identifierOf name = identifierOf other ↔
      List.Forall₂ (fun c d => (if c = '.' then '_' else c) = (if d = '.' then '_' else d))
        name.toList other.toList := by
    rw [← String.toList_inj, identifierOf, identifierOf, Text.replaceChar, Text.replaceChar,
      String.toList_ofList, String.toList_ofList, ← List.forall₂_eq_eq_eq,
      List.forall₂_map_left_iff, List.forall₂_map_right_iff]
  rw [interfaceOf, interfaceOf, ← String.toList_inj, String.toList_append, String.toList_append,
    List.append_left_inj, String.toList_inj, identifiers]
  simp only [alikeCharacters_iff, AlikeNames]

/-! ## Interfaces in declarations -/

/-- The name in a line that declares a function without parameters. -/
def declaredAt? (line : List Char) : Option String := do
  let rest ← Text.dropStart? "function ".toList line
  let name ← Text.dropEnd? "() {}".toList rest
  return String.ofList name

/-- The interface that a declaration is about: the name in the first line that declares one. -/
def declaredInterface? (text : String) : Option String :=
  (Text.splitOnChar (· = '\n') text.toList).findSome? declaredAt?

/-- The line that declares an interface. -/
theorem declaredAt?_function (interface : String) :
    declaredAt? ("function ".toList ++ (interface.toList ++ "() {}".toList)) = some interface := by
  rw [declaredAt?, Text.dropStart?_append]
  dsimp only [Option.bind_eq_bind, Option.bind_some]
  rw [Text.dropEnd?_eq_some_iff.mpr rfl]
  exact congrArg some String.ofList_toList

/-- What a heading says is passed over, up to the line that declares the interface. -/
theorem declaredInterface?_of_heading {text interface : String} {heading : List (List Char)}
    (plain : ∀ line ∈ heading, '\n' ∉ line ∧ declaredAt? line = none)
    (oneLine : '\n' ∉ interface.toList)
    (layout : heading.flatMap (· ++ ['\n']) ++
      ("function ".toList ++ (interface.toList ++ "() {}".toList)) ++ ['\n'] <+: text.toList) :
    declaredInterface? text = some interface := by
  obtain ⟨rest, layout⟩ := layout
  rw [declaredInterface?, ← layout]
  -- The lines of the heading are taken off one by one, so the text no longer is the whole one.
  clear layout
  induction heading with
  | nil =>
      have whole : '\n' ∉ "function ".toList ++ (interface.toList ++ "() {}".toList) := by
        simpa using oneLine
      rw [List.flatMap_nil, List.nil_append, List.append_assoc, List.singleton_append,
        Text.splitOnChar_append (Text.not_lineFeed whole) (by decide), List.findSome?_cons,
        declaredAt?_function]
  | cons line heading ih =>
      obtain ⟨⟨whole, silent⟩, plain⟩ := List.forall_mem_cons.mp plain
      rw [List.flatMap_cons, List.append_assoc, List.append_assoc, List.append_assoc,
        List.append_assoc, List.singleton_append,
        Text.splitOnChar_append (Text.not_lineFeed whole) (by decide), List.findSome?_cons, silent]
      simpa using ih plain

/-- A line of a comment declares nothing. -/
theorem declaredAt?_comment {line : List Char}
    (comment : line.head? = some '/' ∨ line.head? = some ' ') : declaredAt? line = none := by
  cases line with
  | nil => rfl
  | cons c line =>
      have other : 'f' ≠ c := by
        rintro rfl
        simp at comment
      have misses : Text.dropStart? "function ".toList (c :: line) = none := if_neg other
      rw [declaredAt?, misses]
      rfl

/-- The name of an interface is on one line if that of its type is. -/
theorem lineFeed_notMem_interfaceOf {name : String} (oneLine : '\n' ∉ name.toList) :
    '\n' ∉ (interfaceOf name).toList := by
  rw [interfaceOf, identifierOf, Text.replaceChar, String.toList_append, String.toList_ofList,
    List.mem_append, List.mem_map]
  rintro (⟨c, mem, same⟩ | ending)
  · split at same
    · cases same
    · exact oneLine (same ▸ mem)
  · revert ending
    decide

/-- The interface of a component is declared under a line that names the component. -/
theorem exists_componentDeclaration (type : ComponentType) : ∃ rest, componentDeclaration type =
    "// " ++ type.name ++ "\n/**\n * @interface\n * @extends {ReactComponent}\n */\n" ++
      "function " ++ interfaceOf type.name ++ "() {}\n\n" ++ rest := by
  unfold componentDeclaration
  simp only [String.append_assoc]
  exact ⟨_, rfl⟩

/-- The interface of a mixin is declared under a line that names the mixin. -/
theorem exists_mixinDeclaration (type : MixinType) : ∃ rest, mixinDeclaration type =
    "// " ++ type.name ++ " (mixin)\n/** @interface */\nfunction " ++ interfaceOf type.name ++
      "() {}\n" ++ rest := by
  unfold mixinDeclaration
  simp only [String.append_assoc]
  exact ⟨_, rfl⟩

/-- The declaration of a type is about the interface of the type. -/
theorem declaredInterface?_declaration {type : NominalType} (oneLine : '\n' ∉ type.name.toList) :
    declaredInterface? type.declaration = some (interfaceOf type.name) := by
  have ownLine := lineFeed_notMem_interfaceOf oneLine
  cases type with
  | component type =>
      obtain ⟨rest, layout⟩ := exists_componentDeclaration type
      have heading : ∀ line ∈ ["// ".toList ++ type.name.toList, "/**".toList,
          " * @interface".toList, " * @extends {ReactComponent}".toList, " */".toList],
          '\n' ∉ line ∧ declaredAt? line = none := by
        have oneLine : '\n' ∉ type.name.toList := oneLine
        simp [oneLine, declaredAt?_comment]
      exact declaredInterface?_of_heading heading ownLine
        ⟨'\n' :: rest.toList, by simp [NominalType.declaration, NominalType.name, layout]⟩
  | mixin type =>
      obtain ⟨rest, layout⟩ := exists_mixinDeclaration type
      have heading : ∀ line ∈ ["// ".toList ++ type.name.toList ++ " (mixin)".toList,
          "/** @interface */".toList], '\n' ∉ line ∧ declaredAt? line = none := by
        have oneLine : '\n' ∉ type.name.toList := oneLine
        simp [oneLine, declaredAt?_comment]
      exact declaredInterface?_of_heading heading ownLine
        ⟨rest.toList, by simp [NominalType.declaration, NominalType.name, layout]⟩

/-! ## Components that the guard finds -/

section Lookup

variable {compilation : Compilation} {files : List ParsedFile}

/-- By the name of an interface the guard finds the component that is called like it. Without one it
finds that of the first call whose name is alike, provided it is published. -/
theorem componentNamed?_interface_iff {name : String} {found : ComponentType} :
    (analyze compilation files).guard.componentNamed? (interfaceOf name) = some found ↔
      found ∈ (analyze compilation files).synthesis.table.components ∧
        (found.name = interfaceOf name ∨
          (∀ other ∈ (analyze compilation files).synthesis.table.components,
            other.name ≠ interfaceOf name) ∧
          AlikeNames found.name name ∧
          ∀ call ∈ (analyze compilation files).registry.components,
            AlikeNames call.name name → found.id ≤ call.id) := by
  simp only [componentNamed?_eq_some_iff, ← interfaceOf_eq_iff]
  generalize interfaceOf name = interface
  constructor
  · rintro (published | ⟨published, own⟩)
    · exact ⟨published, .inl rfl⟩
    · exact ⟨published, .inr ⟨own.free, rfl, own.first⟩⟩
  · rintro ⟨published, rfl | ⟨free, rfl, first⟩⟩
    · exact .named published
    · exact .interface published ⟨free, first⟩

/-- Two types declare their interfaces under one name just if their own names differ at most by
underscores in place of periods. By the name that a type declares its interface under, the guard
finds the component that is called like it; without one it finds, of all the components whose names
are alike, that of the first call, provided it is published. -/
theorem interfaces_shared_iff :
    (∀ one other : NominalType, '\n' ∉ one.name.toList → '\n' ∉ other.name.toList →
      (declaredInterface? one.declaration = declaredInterface? other.declaration ↔
        AlikeNames one.name other.name)) ∧
    ∀ (type : NominalType) (interface : String), '\n' ∉ type.name.toList →
      declaredInterface? type.declaration = some interface →
        ∀ found, (analyze compilation files).guard.componentNamed? interface = some found ↔
          found ∈ (analyze compilation files).synthesis.table.components ∧
            (found.name = interface ∨
              (∀ other ∈ (analyze compilation files).synthesis.table.components,
                other.name ≠ interface) ∧
              AlikeNames found.name type.name ∧
              ∀ call ∈ (analyze compilation files).registry.components,
                AlikeNames call.name type.name → found.id ≤ call.id) := by
  refine ⟨fun one other oneLine otherLine => ?_, fun type interface oneLine declared found => ?_⟩
  · rw [declaredInterface?_declaration oneLine, declaredInterface?_declaration otherLine,
      Option.some_inj, interfaceOf_eq_iff]
  · rw [declaredInterface?_declaration oneLine] at declared
    obtain rfl := Option.some.inj declared
    exact componentNamed?_interface_iff

end Lookup

section Boxes

/-- A component `ui_Box`, and a component `ui.Box` that can be opened. -/
def boxesFile : ParsedFile :=
  let factory : Script.Expr := .member (.ident "React" default) "createClass" default default
  let method : Script.Expr := .function [] [] default
  let render : Script.Property := .entry (.named "render" default) method default
  let opens : Script.Property := .entry (.named "open" default) method default
  let plain : Script.Expr := .call factory [.value (.object [render] default)] ⟨0, 10⟩
  let openable : Script.Expr := .call factory [.value (.object [opens, render] default)] ⟨20, 30⟩
  { file := 0, text := ""
    program :=
      { comments := []
        body :=
          [.variables false [.initialized (.name "ui_Box" default) plain] default,
           .expression (.assign (.member (.ident "ui" default) "Box" default default) openable
            default) default] } }

/-- Both boxes declare their interface as `ui_BoxInterface`. By that name the guard finds the box
that cannot be opened, also where the other one is meant. -/
theorem interfaces_shared_iff_boxes :
    let analysis := analyze (Compilation.ofOptions .standard) [boxesFile]
    ∃ plain ∈ analysis.synthesis.table.components,
      ∃ openable ∈ analysis.synthesis.table.components,
        plain.name = "ui_Box" ∧ openable.name = "ui.Box" ∧
        plain.hasMember "open" = false ∧ openable.hasMember "open" = true ∧
        declaredInterface? (componentDeclaration plain) =
          declaredInterface? (componentDeclaration openable) ∧
        declaredInterface? (componentDeclaration openable) = some "ui_BoxInterface" ∧
        analysis.guard.componentNamed? "ui_BoxInterface" = some plain := by
  intro analysis
  have published : (analysis.synthesis.table.components.map fun component =>
      (component.id, component.name, component.hasMember "open")) =
        [(0, "ui_Box", false), (1, "ui.Box", true)] := by
    decide +kernel
  obtain ⟨plain, rest, listed, isPlain, more⟩ := List.map_eq_cons_iff.mp published
  obtain ⟨openable, rfl, isOpenable⟩ := List.map_eq_singleton_iff.mp more
  obtain ⟨first, plainName, closed⟩ :
      plain.id = 0 ∧ plain.name = "ui_Box" ∧ plain.hasMember "open" = false := by
    simpa using isPlain
  obtain ⟨-, openableName, opens⟩ :
      openable.id = 1 ∧ openable.name = "ui.Box" ∧ openable.hasMember "open" = true := by
    simpa using isOpenable
  have plainLine : '\n' ∉ (NominalType.component plain).name.toList := by
    rw [NominalType.name, plainName]
    decide
  have openableLine : '\n' ∉ (NominalType.component openable).name.toList := by
    rw [NominalType.name, openableName]
    decide
  obtain ⟨shared, looked⟩ := @interfaces_shared_iff (Compilation.ofOptions .standard) [boxesFile]
  have declared : declaredInterface? (componentDeclaration openable) = some "ui_BoxInterface" := by
    refine (declaredInterface?_declaration openableLine).trans (congrArg some ?_)
    rw [NominalType.name, openableName]
    decide
  have alike : AlikeNames plain.name openable.name := by
    rw [plainName, openableName]
    decide
  have plainMem : plain ∈ analysis.synthesis.table.components := by simp [listed]
  have openableMem : openable ∈ analysis.synthesis.table.components := by simp [listed]
  have free : ∀ other ∈ analysis.synthesis.table.components, other.name ≠ "ui_BoxInterface" := by
    simp [listed, plainName, openableName]
  refine ⟨plain, plainMem, openable, openableMem, plainName, openableName, closed, opens,
    (shared (.component plain) (.component openable) plainLine openableLine).mpr alike, declared,
    ?_⟩
  exact (looked (.component openable) _ openableLine declared plain).mpr
    ⟨plainMem, .inr ⟨free, alike, fun call _ _ => first ▸ Nat.zero_le _⟩⟩

end Boxes

end ClassFactory
