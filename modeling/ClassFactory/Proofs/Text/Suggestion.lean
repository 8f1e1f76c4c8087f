/-
Module: ClassFactory.Proofs.Text.Suggestion
Purpose: The table that is filled row by row holds the edit distances of the recursion on first
  characters, and the candidate that is suggested is the first of the nearest ones.
Main exports: distance, Edits, distance_reverse, editDistance_eq, FirstNearest,
  closestMatch_first_nearest
-/
import ClassFactory.Text.Suggestion
import Mathlib.Data.List.Infix

namespace ClassFactory.Text

/-! ## The edit distance -/

/-- The edit distance of two texts by recursion on their first characters: one is replaced by the
other, deleted or inserted, whichever leads to the fewest edits. -/
def distance : List Char → List Char → Nat
  | [], target => target.length
  | source, [] => source.length
  | c :: source, t :: target =>
      min
        (min (distance source target + if c = t then 0 else 1) (distance source (t :: target) + 1))
        (distance (c :: source) target + 1)
termination_by source target => source.length + target.length

theorem distance_nil_left (target : List Char) : distance [] target = target.length := by
  rw [distance]

theorem distance_nil_right (source : List Char) : distance source [] = source.length := by
  cases source with
  | nil => rw [distance]
  | cons c source =>
      rw [distance]
      exact nofun

/-- The distance is that of the cheapest first edit: replacing, deleting or inserting. -/
theorem distance_cons (c t : Char) (source target : List Char) :
    distance (c :: source) (t :: target) =
      min
        (min (distance source target + if c = t then 0 else 1) (distance source (t :: target) + 1))
        (distance (c :: source) target + 1) := by
  rw [distance]

/-- A further letter in the source costs one at most. -/
theorem distance_cons_left_le (c : Char) (source target : List Char) :
    distance (c :: source) target ≤ distance source target + 1 := by
  cases target with
  | nil => simp [distance_nil_right]
  | cons t target =>
      rw [distance_cons]
      exact Nat.le_trans (Nat.min_le_left _ _) (Nat.min_le_right _ _)

/-- A further letter in the target costs one at most. -/
theorem distance_cons_right_le (t : Char) (source target : List Char) :
    distance source (t :: target) ≤ distance source target + 1 := by
  cases source with
  | nil => simp [distance_nil_left]
  | cons c source =>
      rw [distance_cons]
      exact Nat.min_le_right _ _

/-- `count` edits of single characters, read from the front, turn the one text into the other. -/
inductive Edits : List Char → List Char → Nat → Prop where
  | done : Edits [] [] 0
  | keep (c : Char) {source target : List Char} {count : Nat} (rest : Edits source target count) :
      Edits (c :: source) (c :: target) count
  | replace (c t : Char) {source target : List Char} {count : Nat}
      (rest : Edits source target count) : Edits (c :: source) (t :: target) (count + 1)
  | delete (c : Char) {source target : List Char} {count : Nat}
      (rest : Edits source target count) : Edits (c :: source) target (count + 1)
  | insert (t : Char) {source target : List Char} {count : Nat}
      (rest : Edits source target count) : Edits source (t :: target) (count + 1)

namespace Edits

variable {source target : List Char} {count : Nat}

/-- No edits do with less than the distance. -/
theorem distance_le (edits : Edits source target count) : distance source target ≤ count := by
  induction edits with
  | done => rw [distance_nil_left, List.length_nil]
  | keep c _ ih =>
      rw [distance_cons, if_pos rfl]
      exact Nat.le_trans (Nat.min_le_left _ _) (Nat.le_trans (Nat.min_le_left _ _) ih)
  | @replace c t source target count _ ih =>
      have replaced : distance source target + (if c = t then 0 else 1) ≤ count + 1 := by
        split <;> omega
      rw [distance_cons]
      exact Nat.le_trans (Nat.min_le_left _ _) (Nat.le_trans (Nat.min_le_left _ _) replaced)
  | delete c _ ih => exact Nat.le_trans (distance_cons_left_le c _ _) (Nat.succ_le_succ ih)
  | insert t _ ih => exact Nat.le_trans (distance_cons_right_le t _ _) (Nat.succ_le_succ ih)

theorem deletions : (source : List Char) → Edits source [] source.length
  | [] => .done
  | c :: source => .delete c (deletions source)

theorem insertions : (target : List Char) → Edits [] target target.length
  | [] => .done
  | t :: target => .insert t (insertions target)

/-- The distance is the number of some edits. -/
theorem of_distance (source target : List Char) : Edits source target (distance source target) := by
  fun_induction distance source target with
  | case1 target => exact insertions target
  | case2 source => exact deletions source
  | case3 c source t target replaced deleted inserted =>
      -- The least of the three numbers is one of them.
      rcases Nat.le_total
        (min (distance source target + if c = t then 0 else 1) (distance source (t :: target) + 1))
        (distance (c :: source) target + 1) with outer | outer
      · rw [Nat.min_eq_left outer]
        rcases Nat.le_total (distance source target + if c = t then 0 else 1)
          (distance source (t :: target) + 1) with inner | inner
        · rw [Nat.min_eq_left inner]
          by_cases same : c = t
          · subst same
            rw [if_pos rfl]
            exact .keep c replaced
          · rw [if_neg same]
            exact .replace c t replaced
        · rw [Nat.min_eq_right inner]
          exact .delete c deleted
      · rw [Nat.min_eq_right outer]
        exact .insert t inserted

/-- Edits may be made in one part after the other. -/
theorem append {more others : List Char} {later : Nat} (first : Edits source target count)
    (next : Edits more others later) :
    Edits (source ++ more) (target ++ others) (count + later) := by
  induction first with
  | done => simpa using next
  | keep c _ ih => exact .keep c ih
  | replace c t _ ih =>
      rw [Nat.succ_add]
      exact .replace c t ih
  | delete c _ ih =>
      rw [Nat.succ_add]
      exact .delete c ih
  | insert t _ ih =>
      rw [Nat.succ_add]
      exact .insert t ih

/-- Edits may be made from the end. -/
theorem reverse (edits : Edits source target count) :
    Edits source.reverse target.reverse count := by
  induction edits with
  | done => exact .done
  | keep c _ ih => simpa using ih.append (.keep c .done)
  | replace c t _ ih => simpa using ih.append (.replace c t .done)
  | delete c _ ih => simpa using ih.append (.delete c .done)
  | insert t _ ih => simpa using ih.append (.insert t .done)

end Edits

/-- The distance is the same read from behind. -/
theorem distance_reverse (source target : List Char) :
    distance source.reverse target.reverse = distance source target := by
  apply Nat.le_antisymm
  · exact (Edits.of_distance source target).reverse.distance_le
  · simpa using (Edits.of_distance source.reverse target.reverse).reverse.distance_le

/-- The recursion on last characters. -/
theorem distance_concat (c t : Char) (source target : List Char) :
    distance (source ++ [c]) (target ++ [t]) =
      min
        (min (distance source target + if c = t then 0 else 1)
          (distance source (target ++ [t]) + 1))
        (distance (source ++ [c]) target + 1) := by
  have whole := distance_cons c t source.reverse target.reverse
  have deleted := distance_reverse source (target ++ [t])
  have inserted := distance_reverse (source ++ [c]) target
  simp only [List.reverse_append, List.reverse_cons, List.reverse_nil, List.nil_append,
    List.singleton_append] at deleted inserted
  rw [distance_reverse, deleted, inserted] at whole
  rw [← whole, ← distance_reverse]
  simp

/-! ## The table -/

/-- The row of the table for what has been read of the source, from a place of the target on: the
distances to the part of the target before that place and to every longer initial part. -/
def distanceRow (source before target : List Char) : List Nat :=
  target.inits.map fun initial => distance source (before ++ initial)

/-- A row of no further letters is one distance. -/
theorem distanceRow_nil (source before : List Char) :
    distanceRow source before [] = [distance source before] := by
  simp [distanceRow]

/-- A row goes on with the distances to longer targets. -/
theorem distanceRow_cons (source before : List Char) (t : Char) (target : List Char) :
    distanceRow source before (t :: target) =
      distance source before :: distanceRow source (before ++ [t]) target := by
  simp [distanceRow, Function.comp_def]

theorem distanceRow_eq_cons (source before target : List Char) :
    distanceRow source before target =
      distance source before :: (distanceRow source before target).tail := by
  cases target with
  | nil => rw [distanceRow_nil, List.tail_cons]
  | cons t target => rw [distanceRow_cons, List.tail_cons]

/-- A row with its first entry gives the rest of the next one. -/
theorem nextRow_distanceRow (c : Char) (source before target : List Char) :
    nextRow c target (distanceRow source before target) (distance (source ++ [c]) before) =
      (distanceRow (source ++ [c]) before target).tail := by
  induction target generalizing before with
  | nil => rw [distanceRow_nil, distanceRow_nil, nextRow, List.tail_cons]; exact nofun
  | cons t target ih =>
      have rest := ih (before ++ [t])
      rw [distanceRow_cons, distanceRow_cons, List.tail_cons, distanceRow_eq_cons, nextRow,
        ← distanceRow_eq_cons, ← distance_concat, rest, ← distanceRow_eq_cons]

/-- Reading on in the source leads from the row of what has been read to that of the whole. -/
theorem finalRow_distanceRow (target done source : List Char) :
    finalRow target source (distanceRow done [] target) = distanceRow (done ++ source) [] target := by
  induction source generalizing done with
  | nil => rw [finalRow, List.append_nil]
  | cons c source ih =>
      have first : (distanceRow done [] target).headD 0 + 1 = distance (done ++ [c]) [] := by
        rw [distanceRow_eq_cons, List.headD_cons, distance_nil_right, distance_nil_right,
          List.length_append, List.length_singleton]
      rw [finalRow, first, nextRow_distanceRow, ← distanceRow_eq_cons, ih, List.append_assoc,
        List.singleton_append]

/-- The first row counts the insertions. -/
theorem distanceRow_start (target : List Char) :
    distanceRow [] [] target = List.range (target.length + 1) := by
  have lengths : target.inits.map List.length = List.range (target.length + 1) := by
    induction target with
    | nil => rfl
    | cons t target ih =>
        have later : (target.inits.map (t :: ·)).map List.length =
            (List.range (target.length + 1)).map Nat.succ := by
          rw [← ih, List.map_map, List.map_map]
          rfl
        rw [List.inits_cons, List.map_cons, later, List.length_cons, List.length_nil,
          ← List.range_succ_eq_map]
  rw [← lengths, distanceRow]
  refine List.map_congr_left fun initial _ => ?_
  rw [List.nil_append, distance_nil_left]

/-- The last of a row is the distance to the whole target. -/
theorem distanceRow_getLastD (source before target : List Char) :
    (distanceRow source before target).getLastD 0 = distance source (before ++ target) := by
  induction target generalizing before with
  | nil => simp [distanceRow_nil]
  | cons t target ih =>
      have rest := ih (before ++ [t])
      rw [distanceRow_eq_cons, List.getLastD_cons] at rest
      rw [distanceRow_cons, List.getLastD_cons, distanceRow_eq_cons, List.getLastD_cons, rest,
        List.append_assoc, List.singleton_append]

/-- The table ends with the distance. -/
theorem editDistance_eq (source target : List Char) :
    editDistance source target = distance source target := by
  rw [editDistance, ← distanceRow_start, finalRow_distanceRow, distanceRow_getLastD,
    List.nil_append, List.nil_append]

example : distance "kitten".toList "sitting".toList = 3 := by
  rw [← editDistance_eq]
  decide

/-! ## The closest of several names -/

/-- How far a candidate is from a name, letters compared without regard to ASCII case. -/
def remoteness (name candidate : String) : Nat :=
  distance (lowerAscii name) (lowerAscii candidate)

/-- The chosen text is the first among the candidates other than the name that none of them is nearer
to the name than. -/
def FirstNearest (name : String) (candidates : List String) (chosen : String) : Prop :=
  ∃ before after, candidates = before ++ chosen :: after ∧ chosen ≠ name ∧
    (∀ other ∈ before, other ≠ name → remoteness name chosen < remoteness name other) ∧
    ∀ other ∈ after, other ≠ name → remoteness name chosen ≤ remoteness name other

namespace FirstNearest

variable {name chosen candidate : String} {seen candidates : List String}

/-- There is one first nearest candidate at most. -/
theorem unique {other : String} (one : FirstNearest name candidates chosen)
    (two : FirstNearest name candidates other) : chosen = other := by
  obtain ⟨before, after, rfl, counts, nearer, noneNearer⟩ := one
  obtain ⟨before', after', same, counts', nearer', noneNearer'⟩ := two
  rcases List.append_eq_append_iff.mp same with ⟨middle, rfl, split⟩ | ⟨middle, rfl, split⟩
  · cases middle with
    | nil => exact (List.cons.inj split).1
    | cons first middle =>
        -- The one stands in front of the other, so that it is nearer, and the other no farther.
        obtain ⟨rfl, rfl⟩ := List.cons.inj split
        have less := nearer' chosen (by simp) counts
        exact absurd (noneNearer other (by simp) counts') (Nat.not_le_of_lt less)
  · cases middle with
    | nil => exact (List.cons.inj split).1.symm
    | cons first middle =>
        obtain ⟨rfl, rfl⟩ := List.cons.inj split
        have less := nearer other (by simp) counts'
        exact absurd (noneNearer' chosen (by simp) counts) (Nat.not_le_of_lt less)

/-- One more candidate that does not come nearer changes nothing. -/
theorem concat (first : FirstNearest name seen chosen)
    (noNearer : candidate ≠ name → remoteness name chosen ≤ remoteness name candidate) :
    FirstNearest name (seen ++ [candidate]) chosen := by
  obtain ⟨before, after, rfl, counts, nearer, noneNearer⟩ := first
  refine ⟨before, after ++ [candidate], by simp, counts, nearer, fun other mem differs => ?_⟩
  rcases List.mem_append.mp mem with earlier | last
  · exact noneNearer other earlier differs
  · obtain rfl := List.mem_singleton.mp last
    exact noNearer differs

/-- A candidate that comes nearer than all before it is chosen. -/
theorem last (counts : candidate ≠ name)
    (nearest : ∀ other ∈ seen, other ≠ name → remoteness name candidate < remoteness name other) :
    FirstNearest name (seen ++ [candidate]) candidate :=
  ⟨seen, [], rfl, counts, nearest, nofun⟩

/-- All candidates are at least as far away as the chosen one. -/
theorem le (first : FirstNearest name candidates chosen) {other : String}
    (mem : other ∈ candidates) (differs : other ≠ name) :
    remoteness name chosen ≤ remoteness name other := by
  obtain ⟨before, after, rfl, -, nearer, noneNearer⟩ := first
  rcases List.mem_append.mp mem with earlier | later
  · exact Nat.le_of_lt (nearer other earlier differs)
  · rcases List.mem_cons.mp later with rfl | later
    · exact Nat.le_refl _
    · exact noneNearer other later differs

theorem mem (first : FirstNearest name candidates chosen) : chosen ∈ candidates ∧ chosen ≠ name := by
  obtain ⟨before, after, rfl, counts, -, -⟩ := first
  exact ⟨by simp, counts⟩

end FirstNearest

/-- What is kept while candidates are looked at: nothing as long as all of them are too far away, and
then the first of the nearest ones with its distance. -/
def Kept (name : String) (seen : List String) : Option (Nat × String) → Prop
  | none => ∀ candidate ∈ seen, candidate ≠ name → suggestionLimit name < remoteness name candidate
  | some (found, chosen) =>
      found = remoteness name chosen ∧ found ≤ suggestionLimit name ∧ FirstNearest name seen chosen

section Kept

variable {name : String} {seen : List String} {best : Option (Nat × String)}

/-- A candidate that is the name itself, or too far away from it, changes nothing. -/
theorem Kept.skip (kept : Kept name seen best) {candidate : String}
    (far : candidate ≠ name → suggestionLimit name < remoteness name candidate) :
    Kept name (seen ++ [candidate]) best := by
  cases best with
  | none =>
      intro other mem differs
      rcases List.mem_append.mp mem with earlier | last
      · exact kept other earlier differs
      · obtain rfl := List.mem_singleton.mp last
        exact far differs
  | some best =>
      obtain ⟨found, chosen⟩ := best
      obtain ⟨rfl, near, first⟩ := kept
      exact ⟨rfl, near, first.concat fun differs => Nat.le_trans near (Nat.le_of_lt (far differs))⟩

/-- A further candidate is kept only if it is nearer than all before. -/
theorem Kept.nearer (kept : Kept name seen best) (candidate : String) :
    Kept name (seen ++ [candidate]) (nearer name best candidate) := by
  unfold Text.nearer
  rw [editDistance_eq]
  change Kept name _ (if candidate = name then best else
    if suggestionLimit name < remoteness name candidate then best else _)
  split
  next same => exact kept.skip fun differs => absurd same differs
  next differs =>
    split
    next tooFar => exact kept.skip fun _ => tooFar
    next near =>
      have near : remoteness name candidate ≤ suggestionLimit name := Nat.le_of_not_lt near
      cases best with
      | none =>
          exact ⟨rfl, near, .last differs fun other mem others =>
            Nat.lt_of_le_of_lt near (kept other mem others)⟩
      | some best =>
          obtain ⟨found, chosen⟩ := best
          obtain ⟨rfl, nearBefore, first⟩ := kept
          dsimp only
          split
          next nearer =>
            exact ⟨rfl, near, .last differs fun other mem others =>
              Nat.lt_of_lt_of_le nearer (first.le mem others)⟩
          next noNearer =>
            exact ⟨rfl, nearBefore, first.concat fun _ => Nat.le_of_not_lt noNearer⟩

/-- Going through the candidates keeps the first nearest. -/
theorem Kept.foldl (kept : Kept name seen best) (candidates : List String) :
    Kept name (seen ++ candidates) (candidates.foldl (Text.nearer name) best) := by
  induction candidates generalizing seen best with
  | nil => simpa using kept
  | cons candidate rest ih => simpa using ih (kept.nearer candidate)

end Kept

/-- A candidate is suggested just if it is the first of the nearest ones, the name itself not
counted, and at most a third of the length of the name away from it, or at most two edits. Nothing is
suggested just if all candidates but the name itself are farther away. -/
theorem closestMatch_first_nearest (name : String) (candidates : List String) :
    (∀ chosen, closestMatch name candidates = some chosen ↔
      FirstNearest name candidates chosen ∧
        remoteness name chosen ≤ max 2 (name.length / 3)) ∧
    (closestMatch name candidates = none ↔
      ∀ candidate ∈ candidates, candidate ≠ name →
        max 2 (name.length / 3) < remoteness name candidate) := by
  have start : Kept name [] none := fun _ mem => absurd mem List.not_mem_nil
  have kept : Kept name candidates (candidates.foldl (nearer name) none) := start.foldl candidates
  have limit : suggestionLimit name = max 2 (name.length / 3) := Nat.max_comm _ _
  rw [closestMatch]
  cases found : candidates.foldl (nearer name) none with
  | none =>
      rw [found] at kept
      refine ⟨fun chosen => ⟨nofun, ?_⟩, fun _ => limit ▸ kept, fun _ => rfl⟩
      rintro ⟨first, near⟩
      have tooFar := kept chosen first.mem.1 first.mem.2
      omega
  | some best =>
      obtain ⟨away, chosen⟩ := best
      rw [found] at kept
      obtain ⟨rfl, near, first⟩ := kept
      rw [Option.map_some]
      refine ⟨fun other => ⟨?_, ?_⟩, nofun, fun tooFar => ?_⟩
      · intro same
        cases same
        exact ⟨first, limit ▸ near⟩
      · rintro ⟨otherFirst, -⟩
        exact congrArg some (first.unique otherFirst)
      · have beyond := tooFar chosen first.mem.1 first.mem.2
        omega

end ClassFactory.Text
