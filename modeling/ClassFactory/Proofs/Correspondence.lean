/-
Module: ClassFactory.Proofs.Correspondence
Purpose: Lists whose elements correspond place by place: what one of them has an element of, or makes
  of its elements, the other has or makes too.
Main exports: exists_right_of_forall₂, exists_left_of_forall₂, any_eq_of_forall₂,
  filterMap_eq_of_forall₂, exists_forall₂, forall₂_iff_of_mem, forall₂_of_mapM, mapM_of_forall₂
-/
import Mathlib.Data.List.Forall2

namespace ClassFactory

variable {α β γ δ : Type} {alike : α → β → Prop} {xs : List α} {ys : List β}

/-- Every item on the left has a counterpart on the right. -/
theorem exists_right_of_forall₂ (lists : List.Forall₂ alike xs ys) {x : α} (mem : x ∈ xs) :
    ∃ y ∈ ys, alike x y := by
  induction lists with
  | nil => cases mem
  | cons here _ ih =>
      rcases List.mem_cons.mp mem with rfl | later
      · exact ⟨_, List.mem_cons_self, here⟩
      · obtain ⟨y, listed, same⟩ := ih later
        exact ⟨y, List.mem_cons_of_mem _ listed, same⟩

/-- Every item on the right has a counterpart on the left. -/
theorem exists_left_of_forall₂ (lists : List.Forall₂ alike xs ys) {y : β} (mem : y ∈ ys) :
    ∃ x ∈ xs, alike x y :=
  exists_right_of_forall₂ lists.flip mem

/-- What holds alike of counterparts holds of some item on either side. -/
theorem any_eq_of_forall₂ (lists : List.Forall₂ alike xs ys) {p : α → Bool} {q : β → Bool}
    (same : ∀ x y, alike x y → q y = p x) : ys.any q = xs.any p := by
  induction lists with
  | nil => rfl
  | cons here _ ih => rw [List.any_cons, List.any_cons, same _ _ here, ih]

/-- Counterparts that yield alike make the lists yield alike. -/
theorem filterMap_eq_of_forall₂ (lists : List.Forall₂ alike xs ys) {f : α → Option γ}
    {g : β → Option δ} (change : γ → δ)
    (same : ∀ x ∈ xs, ∀ y, alike x y → g y = (f x).map change) :
    ys.filterMap g = (xs.filterMap f).map change := by
  induction lists with
  | nil => rfl
  | @cons x y _ _ here _ ih =>
      have rest := ih fun later mem => same later (List.mem_cons_of_mem _ mem)
      rw [List.filterMap_cons, List.filterMap_cons, same x List.mem_cons_self y here, rest]
      cases f x <;> rfl

/-- If every item has a counterpart, the list has one. -/
theorem exists_forall₂ (each : ∀ x ∈ xs, ∃ y, alike x y) : ∃ ys, List.Forall₂ alike xs ys := by
  induction xs with
  | nil => exact ⟨[], .nil⟩
  | cons x rest ih =>
      rw [List.forall_mem_cons] at each
      obtain ⟨y, here⟩ := each.1
      obtain ⟨ys, later⟩ := ih each.2
      exact ⟨y :: ys, .cons here later⟩

/-- Only the counterparts of items in the list matter. -/
theorem forall₂_iff_of_mem {other : α → β → Prop}
    (same : ∀ x ∈ xs, ∀ y, alike x y ↔ other x y) :
    List.Forall₂ alike xs ys ↔ List.Forall₂ other xs ys := by
  constructor
  · intro lists
    exact ((List.forall₂_and_left ..).mpr ⟨same, lists⟩).imp fun _ y h => (h.1 y).mp h.2
  · intro lists
    exact ((List.forall₂_and_left ..).mpr ⟨same, lists⟩).imp fun _ y h => (h.1 y).mpr h.2

/-- The results of a reading that may fail correspond to what was read. -/
theorem forall₂_of_mapM {read : α → Option β} (run : xs.mapM read = some ys) :
    List.Forall₂ (fun x y => read x = some y) xs ys := by
  induction xs generalizing ys with
  | nil =>
      rw [List.mapM_nil] at run
      cases run
      exact .nil
  | cons x rest ih =>
      rw [List.mapM_cons] at run
      obtain ⟨y, first, run⟩ := Option.bind_eq_some_iff.mp run
      obtain ⟨later, others, same⟩ := Option.bind_eq_some_iff.mp run
      cases same
      exact .cons first (ih others)

/-- Counterparts that are what is read are what the list reads as. -/
theorem mapM_of_forall₂ {read : α → Option β}
    (lists : List.Forall₂ (fun x y => read x = some y) xs ys) : xs.mapM read = some ys := by
  induction lists with
  | nil => rfl
  | cons here _ ih =>
      rw [List.mapM_cons, here, ih]
      rfl

end ClassFactory
