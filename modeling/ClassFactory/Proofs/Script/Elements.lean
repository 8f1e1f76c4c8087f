/-
Module: ClassFactory.Proofs.Script.Elements
Purpose: Elements and fragments read the calls in their attributes and children in order.
Main exports: attributes_reads, childList_reads, elementExpression_reads
-/
import ClassFactory.Proofs.Script.Bindings
import ClassFactory.Script.Elements

namespace ClassFactory.Script

theorem hyphenatedName_moves : Moves hyphenatedName := by
  refine .getPlace fun state _ _ => ?_
  split
  · exact .resumed (Cursor.offset_takeWhile ..) trivial (.pure fun _ => id)
  · exact .failure

theorem tagMembers_moves (start : Nat) (first : Tag × String) : Moves (tagMembers start first) := by
  refine Keeps.loop (fun _ _ => True) (fun tag => ?_) first
  refine .test (eat_moves _) ?_ (.ends (.pure fun _ => id))
  exact .after hyphenatedName_moves fun property => .again (.pure fun _ => id)

/-- A tag name calls nothing, and reading it goes forward. -/
theorem tagName_moves : Moves tagName := by
  refine .after hyphenatedName_moves fun name => .test (atChar_moves _) ?_
    (.test (atPunct_moves _) (tagMembers_moves _ _) (.ite ?_ (.ite ?_ ?_)))
  · exact .after (takeChar_moves _) fun _ => .after settle_moves fun _ =>
      .after hyphenatedName_moves fun inner => .pure fun _ => id
  all_goals exact .pure fun _ => id

theorem quotedValue_reads (quote : Char) : ReadsExpr (quotedValue quote) := by
  intro done
  refine .getPlace fun state _ below => ?_
  dsimp only
  split
  · refine .resumed ?_ below (.after (spanFrom_moves _) fun span => .givesExpr (by simp) rfl)
    exact Nat.le_trans (Cursor.offset_skip ..)
      (Nat.le_trans (Cursor.offset_takeWhile ..) (Cursor.offset_skip ..))
  · exact .failure

theorem atClosingTag_moves : Moves atClosingTag := by
  refine .get fun state => ?_
  split <;> exact .pure fun _ => id

theorem closingTagStart_moves : Moves closingTagStart :=
  .after (takeChar_moves _) fun _ => .after settle_moves fun _ =>
    .after (takeChar_moves _) fun _ => settle_moves

theorem elementEnd_moves (nested : Bool) : Moves (elementEnd nested) :=
  .after (takeChar_moves _) fun _ => .ite (.pure fun _ => id) settle_moves

section Elements

variable {parse : Grammar} (regular : parse.Regular)

include regular

/-- The value of an attribute is quoted, or braced, or an element again. -/
theorem attributeValue_reads : ReadsExpr (attributeValue parse) := by
  intro done
  refine .after startOffset_moves fun start => .get fun state => ?_
  split
  · exact quotedValue_reads _ done
  · exact quotedValue_reads _ done
  · refine .after advance_moves fun _ => .test (eat_moves _) ?_ ?_
    · exact .after (spanFrom_moves _) fun span => .givesExpr (by simp) rfl
    · refine (regular.assignment true done).bind fun e => ?_
      exact .after (expect_moves _) fun _ => .pure fun _ => id
  · exact regular.element false done
  · exact .failure

/-- An attribute is read with the calls in its value. -/
theorem givenAttribute_reads : Reads (givenAttribute parse) Attribute.nodes := by
  intro done
  refine .after startOffset_moves fun start => .test (eat_moves _) ?_
    (.after hyphenatedName_moves fun name => .after (atChar_moves _) fun isSpaced => ?_)
  · refine .after (expect_moves _) fun _ => (regular.assignment true).then fun e => ?_
    exact .after (expect_moves _) fun _ => .gives (by simp)
  extract_lets behindName
  have named : ∀ foreign, Keeps (Below done) (behindName foreign)
      (Behind done Attribute.nodes) := by
    intro foreign
    refine .after (atChar_moves _) fun isGiven => ?_
    extract_lets behindValue
    have valued : ∀ value, Keeps (Behind done Expr.nodes value) (behindValue value)
        (Behind done Attribute.nodes) := fun value =>
      .ite (.gives (by simp)) (.after (spanFrom_moves _) fun span => .gives (by simp))
    refine .ite ?_ (.given (by simp) valued)
    exact .after (takeChar_moves _) fun _ => .after settle_moves fun _ =>
      (attributeValue_reads regular).then valued
  refine .ite ?_ (.after (.pure fun _ => id) named)
  exact .after (takeChar_moves _) fun _ => .after settle_moves fun _ =>
    .after hyphenatedName_moves fun inner => .after (.pure fun _ => id) named

/-- Attributes are read with the calls in them, in order. -/
theorem attributes_reads : Reads (attributes parse) attributeNodes := by
  intro done
  refine (Keeps.loop (fun read => Behind done attributeNodes read.reverse)
    (fun read => .get fun state => ?_) []).weaken (by simp)
  split
  · exact .ends (.gives rfl)
  · exact .ends (.gives rfl)
  · exact (givenAttribute_reads regular).then fun next => .again (.gives (by simp))

/-- What stands in braces is read with its calls, and empty braces have none. -/
theorem bracedChild_reads (start : Nat) :
    Reads (bracedChild parse start) fun child => childNodes child.toList := by
  intro done
  refine .after (takeChar_moves _) fun _ => .after settle_moves fun _ =>
    .test (atPunct_moves _) ?_ (.test (eat_moves _) ?_ ?_)
  · exact .after (takeChar_moves _) fun _ => .gives (by simp)
  · refine (regular.assignment true).then fun e => .after (takeChar_moves _) fun _ => ?_
    exact .after (spanFrom_moves _) fun span => .gives (by simp)
  · refine (regular.expression true).then fun e => .after (takeChar_moves _) fun _ => ?_
    exact .after (spanFrom_moves _) fun span => .gives (by simp)

/-- Children are read with the calls in them, in order. -/
theorem childList_reads : Reads (childList parse) childNodes := by
  intro done
  refine (Keeps.loop (fun read => Behind done childNodes read.reverse)
    (fun read => .getPlace fun state _ below => ?_) []).weaken (by simp)
  have still : ∀ n, n = state.place → Below (done ++ callStarts (childNodes read.reverse)) n :=
    fun n here => here ▸ below
  dsimp only
  split
  · exact .failure
  · refine .weaken still (.test atClosingTag_moves (.ends (.gives rfl)) ?_)
    exact (regular.element true).then fun e => .again (.gives (by simp))
  · refine .weaken still ((bracedChild_reads regular _).then fun child => ?_)
    cases child with
    | some child => exact .again (.gives (by simp))
    | none => exact .again (.gives (by simp))
  · refine .moved (Cursor.offset_takeWhile ..) below (.after (spanFrom_moves _) fun span => ?_)
    exact .again (.gives (by simp))

/-- A fragment is read with the calls in its children. -/
theorem fragmentRest_reads (nested : Bool) (start : Nat) :
    ReadsExpr (fragmentRest parse nested start) := by
  intro done
  refine .after (takeChar_moves _) fun _ => (childList_reads regular).then fun children => ?_
  exact .after closingTagStart_moves fun _ => .after (elementEnd_moves nested) fun _ =>
    .after (spanFrom_moves _) fun span => .givesExpr (by simp) rfl

/-- An element is read with the calls in its attributes before those in its children. -/
theorem elementExpression_reads (nested : Bool) : ReadsExpr (elementExpression parse nested) := by
  intro done
  refine .after startOffset_moves fun start => .after (takeChar_moves _) fun _ =>
    .after settle_moves fun _ =>
      .test (atChar_moves _) (fragmentRest_reads regular nested start done) ?_
  refine .after tagName_moves fun tag => (attributes_reads regular).then fun given =>
    .test (atChar_moves _) ?_ ?_
  · exact .after (takeChar_moves _) fun _ => .after settle_moves fun _ =>
      .after (elementEnd_moves nested) fun _ => .after (spanFrom_moves _) fun span =>
        .givesExpr (by simp [closingNodes]) rfl
  · refine .after (takeChar_moves _) fun _ => (childList_reads regular).then fun children => ?_
    refine .after closingTagStart_moves fun _ => .after tagName_moves fun closing =>
      .ite ?_ .failure
    exact .after (elementEnd_moves nested) fun _ => .after (spanFrom_moves _) fun span =>
      .givesExpr (by simp) rfl

end Elements

end ClassFactory.Script
