/-
Module: ClassFactory.Proofs.DocBlock.Signatures
Purpose: The two signatures that a documentation block gives: to a method that is declared without a
  definition, and to a function with the documented parameters. They are one, but for a block of
  which nothing is known but a type that is no function type. That one gives no function a
  signature, while a declared method gets that of a function without parameters.
Main exports: DocBlock.HasPlainTag, DocBlock.paramsFor_documented, DocBlock.signatures_agree_iff
-/
import ClassFactory.DocBlock
import Mathlib.Data.List.Nodup

namespace ClassFactory.DocBlock

/-- The block says nothing about parameters and results, and has a type tag which is no function
type. -/
structure HasPlainTag (block : DocBlock) : Prop where
  params : block.params = []
  returns : block.returns = none
  tagged : block.typeTag.isSome = true
  unsigned : block.taggedSignature? = none

variable {block : DocBlock}

/-- Without a rest parameter, each parameter of a function is documented by its own name. -/
theorem paramsFor_false (block : DocBlock) (names : List String) :
    block.paramsFor false names = names.map (block.paramFor · false) := by
  induction names with
  | nil => rfl
  | cons name rest ih =>
      -- The last parameter has a branch of its own, where alone a rest parameter would count.
      cases rest with
      | nil => rfl
      | cons next rest =>
          rw [paramsFor, ih]
          · rfl
          · exact List.cons_ne_nil next rest

/-- Where the documented names differ, a function finds each of its parameters as documented. -/
theorem paramFor_documented (distinct : (block.params.map DocParam.name).Nodup) {param : DocParam}
    (mem : param ∈ block.params) (takesRest : Bool) :
    block.paramFor param.name takesRest =
      .mk param.name param.type param.optional param.rest := by
  have qualifies : ∃ other ∈ block.params, decide (other.name = param.name) = true :=
    ⟨param, mem, decide_eq_true rfl⟩
  obtain ⟨found, looked⟩ := Option.isSome_iff_exists.mp (List.find?_isSome.mpr qualifies)
  have same : found.name = param.name := by simpa using List.find?_some looked
  obtain rfl := List.inj_on_of_nodup_map distinct (List.mem_of_find?_eq_some looked) mem same
  rw [paramFor, looked]

/-- The parameters of a function with the documented names are the documented ones. -/
theorem paramsFor_documented (distinct : (block.params.map DocParam.name).Nodup) :
    block.paramsFor false (block.params.map DocParam.name) =
      block.params.map fun p => .mk p.name p.type p.optional p.rest := by
  rw [paramsFor_false, List.map_map]
  exact List.map_congr_left fun param mem => paramFor_documented distinct mem false

/-- A block that tags a plain type makes a declared method a function without parameters. -/
theorem HasPlainTag.abstractSignature (plain : block.HasPlainTag) :
    block.abstractSignature = some { params := [], returns := .unknown } := by
  simp [DocBlock.abstractSignature, hasTypes, plain.params, plain.returns, plain.tagged,
    plain.unsigned]

/-- A block that tags a plain type gives no function a signature. -/
theorem HasPlainTag.signatureFor (plain : block.HasPlainTag) (names : List String)
    (hasRest : Bool) : block.signatureFor names hasRest = none := by
  simp [DocBlock.signatureFor, plain.params, plain.returns, plain.unsigned]

/-- Any other block gives a declared method what it gives a function with the documented
parameters. -/
theorem abstractSignature_eq (distinct : (block.params.map DocParam.name).Nodup)
    (other : ¬ block.HasPlainTag) :
    block.abstractSignature = block.signatureFor (block.params.map DocParam.name) false := by
  rw [abstractSignature, signatureFor]
  cases unsigned : block.taggedSignature? with
  | some signature =>
      obtain ⟨tag, found, -⟩ := Option.bind_eq_some_iff.mp unsigned
      exact if_pos (by simp [hasTypes, found])
  | none =>
      dsimp only
      cases silent : block.params.isEmpty && block.returns.isNone with
      | true =>
          obtain ⟨params, returns⟩ : block.params = [] ∧ block.returns = none := by
            simpa using silent
          have untagged : block.typeTag = none :=
            Option.not_isSome_iff_eq_none.mp fun tagged =>
              other ⟨params, returns, tagged, unsigned⟩
          simp [hasTypes, params, returns, untagged]
      | false =>
          have typed : block.hasTypes = true := by
            rcases Bool.and_eq_false_iff.mp silent with params | returns
            · simp [hasTypes, params]
            · simp [hasTypes, Option.isNone_eq_false_iff.mp returns]
          rw [if_pos typed, if_neg Bool.false_ne_true, paramsFor_documented distinct]

/-- The signature that a block gives a method which is declared without a definition is the one that
it gives a function with the documented parameters, just if the block does not merely tag a plain
type. If it does, the former is there and the latter is not. -/
theorem signatures_agree_iff (distinct : (block.params.map DocParam.name).Nodup) :
    let declared := block.abstractSignature
    let defined := block.signatureFor (block.params.map DocParam.name) false
    (declared = defined ↔ ¬ block.HasPlainTag) ∧
    ((declared = none ↔ defined = none) ↔ ¬ block.HasPlainTag) ∧
    (block.HasPlainTag →
      declared = some { params := [], returns := .unknown } ∧ defined = none) := by
  intro declared defined
  have apart : block.HasPlainTag →
      declared = some { params := [], returns := .unknown } ∧ defined = none :=
    fun plain => ⟨plain.abstractSignature, plain.signatureFor _ _⟩
  have same : ¬ block.HasPlainTag → declared = defined := abstractSignature_eq distinct
  refine ⟨⟨fun agree plain => ?_, same⟩, ⟨fun agree plain => ?_, fun other => ?_⟩, apart⟩
  · obtain ⟨signed, unsigned⟩ := apart plain
    cases (signed.symm.trans agree).trans unsigned
  · obtain ⟨signed, unsigned⟩ := apart plain
    cases signed.symm.trans (agree.mpr unsigned)
  · rw [same other]

/-- A type tag that says no more than that there is a function leaves one without a signature, while
a declared method then takes no arguments. Beside a parameter it makes no difference. -/
theorem signatures_agree_iff_function :
    let plain := ofContent "@type {!Function}"
    let documented := ofContent "@type {!Function} @param {number} size"
    (plain.abstractSignature = some { params := [], returns := .unknown } ∧
        plain.signatureFor [] false = none) ∧
      documented.abstractSignature = documented.signatureFor ["size"] false ∧
      documented.abstractSignature.isSome = true := by
  intro plain documented
  have tagsPlain : plain.HasPlainTag :=
    { params := List.isEmpty_iff.mp (by decide +kernel)
      returns := Option.isNone_iff_eq_none.mp (by decide +kernel)
      tagged := by decide +kernel
      unsigned := Option.isNone_iff_eq_none.mp (by decide +kernel) }
  have names : documented.params.map DocParam.name = ["size"] := by decide +kernel
  have speaks : ¬ documented.HasPlainTag := by
    rintro ⟨nothing, -, -, -⟩
    cases names.symm.trans (congrArg (List.map DocParam.name) nothing)
  have nameless : plain.params.map DocParam.name = [] := by rw [tagsPlain.params, List.map_nil]
  obtain ⟨-, -, apart⟩ := @signatures_agree_iff plain (nameless ▸ List.nodup_nil)
  obtain ⟨agree, -, -⟩ := @signatures_agree_iff documented (names ▸ List.nodup_singleton "size")
  rw [nameless] at apart
  rw [names] at agree
  exact ⟨apart tagsPlain, agree.mpr speaks, by decide +kernel⟩

end ClassFactory.DocBlock
