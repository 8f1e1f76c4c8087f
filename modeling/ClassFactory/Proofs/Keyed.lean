/-
Module: ClassFactory.Proofs.Keyed
Purpose: Maps from names whose names differ, and what going through such a map comes to for one
  name: only the entry of that name counts.
Main exports: Keyed.Sound, Keyed.Sound.insert, Keyed.get?_eq_some_iff, Keyed.mapValues, foldl_keyed
-/
import ClassFactory.Keyed
import Mathlib.Data.List.Nodup

namespace ClassFactory

/-- What no step of a run changes is as it was at the start. -/
theorem foldl_view_eq {σ τ ι : Type} {step : σ → ι → σ} {items : List ι} (view : σ → τ)
    (same : ∀ state, ∀ item ∈ items, view (step state item) = view state) (state : σ) :
    view (items.foldl step state) = view state := by
  induction items generalizing state with
  | nil => rfl
  | cons item rest ih =>
      rw [List.foldl_cons, ih fun s i mem => same s i (List.mem_cons_of_mem _ mem)]
      exact same state item List.mem_cons_self

namespace Keyed

variable {α σ τ : Type}

/-- The names of a map differ, and each value fits its name. -/
structure Sound (fits : String → α → Prop) (map : Keyed α) : Prop where
  distinct : map.keys.Nodup
  values : ∀ entry ∈ map.entries, fits entry.1 entry.2

/-- What is found under a name is an entry. -/
theorem mem_of_lookup {name : String} {value : α} {entries : List (String × α)}
    (h : lookup name entries = some value) : (name, value) ∈ entries := by
  induction entries with
  | nil => simp [lookup] at h
  | cons entry rest ih =>
      obtain ⟨key, old⟩ := entry
      by_cases same : key = name
      · subst same
        simp only [lookup, if_true, Option.some.injEq] at h
        simp [h]
      · exact List.mem_cons_of_mem _ (ih (by simpa [lookup, same] using h))

/-- Every entry of a map without repetitions is found under its name. -/
theorem lookup_of_mem {name : String} {value : α} {entries : List (String × α)}
    (distinct : (entries.map Prod.fst).Nodup) (mem : (name, value) ∈ entries) :
    lookup name entries = some value := by
  induction entries with
  | nil => cases mem
  | cons entry rest ih =>
      obtain ⟨fresh, distinct⟩ := List.nodup_cons.mp distinct
      rcases List.mem_cons.mp mem with rfl | later
      · simp [lookup]
      · have other : entry.1 ≠ name := by
          intro same
          rw [same] at fresh
          exact fresh (List.mem_map_of_mem later)
        simpa [lookup, other] using ih distinct later

/-- In a map whose names differ, the value of a name is that of its only entry. -/
theorem get?_eq_some_iff {fits : String → α → Prop} {map : Keyed α} (sound : map.Sound fits)
    {name : String} {value : α} : map.get? name = some value ↔ (name, value) ∈ map.entries :=
  ⟨mem_of_lookup, lookup_of_mem sound.distinct⟩

/-- A value that is found fits the name it was looked up by. -/
theorem Sound.of_get? {fits : String → α → Prop} {map : Keyed α} (sound : map.Sound fits)
    {name : String} {value : α} (found : map.get? name = some value) : fits name value :=
  sound.values _ (mem_of_lookup found)

theorem Sound.empty {fits : String → α → Prop} : (Keyed.empty : Keyed α).Sound fits :=
  ⟨List.nodup_nil, by simp [Keyed.empty]⟩

/-- Writing keeps the names in order and puts a new one last. -/
theorem map_fst_write (name : String) (value : α) (entries : List (String × α)) :
    (write name value entries).map Prod.fst =
      if name ∈ entries.map Prod.fst then entries.map Prod.fst
      else entries.map Prod.fst ++ [name] := by
  induction entries with
  | nil => simp [write]
  | cons entry rest ih =>
      obtain ⟨key, old⟩ := entry
      by_cases same : key = name
      · simp [write, same]
      · simp only [write, same, if_false, List.map_cons, ih, List.mem_cons, Ne.symm same,
          false_or]
        split <;> simp

/-- A name that is not there yet goes last. -/
theorem write_of_notMem {name : String} {entries : List (String × α)}
    (fresh : name ∉ entries.map Prod.fst) (value : α) :
    write name value entries = entries ++ [(name, value)] := by
  induction entries with
  | nil => rfl
  | cons entry rest ih =>
      rw [List.map_cons, List.mem_cons, not_or] at fresh
      rw [write, if_neg (Ne.symm fresh.1), ih fresh.2, List.cons_append]

/-- Nothing is found under a name that is not a key. -/
theorem get?_eq_none_of_notMem {name : String} {map : Keyed α} (fresh : name ∉ map.keys) :
    map.get? name = none := by
  cases found : map.get? name with
  | none => rfl
  | some value => exact absurd (List.mem_map_of_mem (mem_of_lookup found)) fresh

/-- Something is found just if the name is a key. -/
theorem lookup_ne_none_iff {name : String} {entries : List (String × α)} :
    lookup name entries ≠ none ↔ name ∈ entries.map Prod.fst := by
  induction entries with
  | nil => simp [lookup]
  | cons entry rest ih =>
      obtain ⟨key, value⟩ := entry
      by_cases same : key = name
      · simp [lookup, same]
      · simpa [lookup, same, Ne.symm same] using ih

/-- The front part of a list of entries counts first. -/
theorem lookup_append (name : String) (front back : List (String × α)) :
    lookup name (front ++ back) = (lookup name front).or (lookup name back) := by
  induction front with
  | nil => rfl
  | cons entry rest ih =>
      obtain ⟨key, value⟩ := entry
      rw [List.cons_append, lookup, lookup, ih]
      split
      · rfl
      · rfl

/-- The names of a map are those that it has a value for. -/
theorem mem_keys_iff {name : String} {map : Keyed α} :
    name ∈ map.keys ↔ ∃ value, map.get? name = some value :=
  lookup_ne_none_iff.symm.trans Option.ne_none_iff_exists'

/-- What stands in a list after writing was written or stood there before. -/
theorem mem_write {name : String} {value : α} {entries : List (String × α)}
    {entry : String × α} (mem : entry ∈ write name value entries) :
    entry = (name, value) ∨ entry ∈ entries := by
  induction entries with
  | nil => exact .inl (by simpa [write] using mem)
  | cons head rest ih =>
      obtain ⟨key, old⟩ := head
      by_cases same : key = name
      · subst same
        simp only [write, if_true, List.mem_cons] at mem
        exact mem.imp_right (List.mem_cons_of_mem _)
      · simp only [write, same, if_false, List.mem_cons] at mem
        rcases mem with rfl | later
        · exact .inr List.mem_cons_self
        · exact (ih later).imp_right (List.mem_cons_of_mem _)

/-- Writing a value that fits keeps a map sound. -/
theorem Sound.insert {fits : String → α → Prop} {map : Keyed α} (sound : map.Sound fits)
    {name : String} {value : α} (fit : fits name value) : (map.insert name value).Sound fits where
  distinct := by
    have distinct : (map.entries.map Prod.fst).Nodup := sound.distinct
    change ((write name value map.entries).map Prod.fst).Nodup
    rw [map_fst_write]
    split
    · exact distinct
    · rename_i fresh
      rw [List.nodup_append]
      refine ⟨distinct, by simp, ?_⟩
      rintro key mem _ here rfl
      exact fresh (List.mem_singleton.mp here ▸ mem)
  values := by
    intro entry mem
    rcases mem_write mem with rfl | earlier
    · exact fit
    · exact sound.values entry earlier

/-- A value that is set only where there is none is found where none is. -/
theorem get?_insertNew (map : Keyed α) (key : String) (value : α) (name : String) :
    (map.insertNew key value).get? name =
      (map.get? name).or (if key = name then some value else none) := by
  unfold insertNew
  split
  next present =>
    by_cases same : key = name
    · subst same
      obtain ⟨found, has⟩ := Option.isSome_iff_exists.mp present
      rw [has, Option.some_or]
    · rw [if_neg same, Option.or_none]
  next absent =>
    by_cases same : key = name
    · subst same
      have none : map.get? key = none := Option.not_isSome_iff_eq_none.mp absent
      rw [get?_insert_self, none, if_pos rfl, Option.none_or]
    · rw [get?_insert_other map (Ne.symm same), if_neg same, Option.or_none]

/-- Adding an entry that is new at most adds that one. -/
theorem mem_insertNew {map : Keyed α} {name : String} {value : α} {entry : String × α}
    (listed : entry ∈ (map.insertNew name value).entries) :
    entry = (name, value) ∨ entry ∈ map.entries := by
  unfold insertNew at listed
  split at listed
  · exact .inr listed
  · exact mem_write listed

/-- Adding an entry repeats no key. -/
theorem distinct_insertNew {map : Keyed α} (distinct : map.keys.Nodup) (name : String)
    (value : α) : (map.insertNew name value).keys.Nodup := by
  unfold insertNew
  split
  · exact distinct
  · have sound : map.Sound fun _ _ => True := ⟨distinct, fun _ _ => trivial⟩
    have entered : (map.insert name value).Sound fun _ _ => True := sound.insert trivial
    exact entered.distinct

/-- Where names differ, entries may be changed or left out before or after the lookup. -/
theorem lookup_filterMap {β : Type} {name : String} {change : String → α → Option β}
    {entries : List (String × α)} (distinct : (entries.map Prod.fst).Nodup) :
    lookup name (entries.filterMap fun entry =>
        (change entry.1 entry.2).map fun value => (entry.1, value)) =
      (lookup name entries).bind (change name) := by
  induction entries with
  | nil => rfl
  | cons entry rest ih =>
      obtain ⟨fresh, distinct⟩ := List.nodup_cons.mp distinct
      have later := ih distinct
      rw [List.filterMap_cons, lookup]
      by_cases same : entry.1 = name
      · subst same
        have absent : lookup entry.1 rest = none := by
          by_contra present
          exact fresh (lookup_ne_none_iff.mp present)
        rw [absent] at later
        cases changed : change entry.1 entry.2 with
        | none => simpa [changed] using later
        | some value => simp [lookup, changed]
      · rw [if_neg same]
        cases change entry.1 entry.2 with
        | none => exact later
        | some value => simpa [lookup, same] using later

/-! ## Changing every value -/

/-- The map with every value changed in the same way. -/
def mapValues {β : Type} (change : α → β) (map : Keyed α) : Keyed β :=
  { entries := map.entries.map fun entry => (entry.1, change entry.2) }

section MapValues

variable {β : Type} (change : α → β)

/-- Changing the values changes what is found and not where. -/
theorem lookup_map (name : String) (entries : List (String × α)) :
    lookup name (entries.map fun entry => (entry.1, change entry.2)) =
      (lookup name entries).map change := by
  induction entries with
  | nil => rfl
  | cons entry rest ih =>
      by_cases same : entry.1 = name
      · simp [lookup, same]
      · simp [lookup, same, ih]

/-- Changing the values may come before writing as well as after. -/
theorem write_map (name : String) (value : α) (entries : List (String × α)) :
    (write name value entries).map (fun entry => (entry.1, change entry.2)) =
      write name (change value) (entries.map fun entry => (entry.1, change entry.2)) := by
  induction entries with
  | nil => rfl
  | cons entry rest ih =>
      by_cases same : entry.1 = name
      · simp [write, same]
      · simp [write, same, ih]

/-- Under each name there is the changed value. -/
@[simp]
theorem get?_mapValues (map : Keyed α) (name : String) :
    (map.mapValues change).get? name = (map.get? name).map change :=
  lookup_map change name map.entries

@[simp]
theorem mapValues_insert (map : Keyed α) (name : String) (value : α) :
    (map.insert name value).mapValues change =
      (map.mapValues change).insert name (change value) :=
  congrArg Keyed.mk (write_map change name value map.entries)

@[simp]
theorem values_mapValues (map : Keyed α) :
    (map.mapValues change).values = map.values.map change := by
  simp [values, mapValues]

end MapValues

/-- Going through entries whose names differ: what is seen of one name changes only at the entry of
that name. -/
theorem foldl_keyed {step : σ → String × α → σ} {state : σ} (view : σ → τ)
    (acts : Option α → τ → Prop) {name : String} {entries : List (String × α)}
    (others : ∀ state, ∀ entry ∈ entries, entry.1 ≠ name → view (step state entry) = view state)
    (own : ∀ other value, (name, value) ∈ entries → view other = view state →
      acts (some value) (view (step other (name, value))))
    (absent : acts none (view state)) (distinct : (entries.map Prod.fst).Nodup) :
    acts (lookup name entries) (view (entries.foldl step state)) := by
  induction entries generalizing state with
  | nil => exact absent
  | cons entry rest ih =>
      obtain ⟨key, value⟩ := entry
      obtain ⟨fresh, restDistinct⟩ := List.nodup_cons.mp distinct
      rw [List.foldl_cons]
      by_cases same : key = name
      · subst same
        -- nothing after the entry of the name is seen
        have differ : ∀ later ∈ rest, later.1 ≠ key := by
          rintro later mem rfl
          exact fresh (List.mem_map.mpr ⟨later, mem, rfl⟩)
        have unseen : view (rest.foldl step (step state (key, value))) =
            view (step state (key, value)) :=
          foldl_view_eq view (fun s e mem =>
            others s e (List.mem_cons_of_mem _ mem) (differ e mem)) _
        simp only [lookup, if_true, unseen]
        exact own state value List.mem_cons_self rfl
      · have unchanged := others state (key, value) List.mem_cons_self same
        simp only [lookup, same, if_false]
        refine ih (fun s e mem => others s e (List.mem_cons_of_mem _ mem)) ?_ ?_ restDistinct
        · rw [unchanged]
          exact fun s v mem => own s v (List.mem_cons_of_mem _ mem)
        · rwa [unchanged]

end Keyed

end ClassFactory
