/-
Module: ClassFactory.Proofs.Mixins.Walk
Purpose: What the depth-first walk over the mixins guarantees, whatever the inclusions are. It
  finishes each mixin once, after all that the mixin includes itself unless both are noted as lying on
  a cycle; what is noted so does lie on one, and a cycle that passes it is reported.
Main exports: Traversal.Sound, takeEntry_cases, takeEntry_sound, visit_sound, traverse_sound
-/
import ClassFactory.Proofs.Mixins.Paths
import Mathlib.Data.List.Nodup
import Mathlib.Data.List.Perm.Subperm

namespace ClassFactory

/-- What holds of a walk over the given mixins at any time. `active` are the mixins whose
inclusions are being visited. -/
structure Traversal.Sound (edges : Nat → List (Nat × Site)) (nodes active : List Nat)
    (walk : Traversal) : Prop where
  distinct : walk.order.Nodup
  known : ∀ id ∈ walk.order, id ∈ nodes
  finished : ∀ id ∈ walk.order, id ∉ active
  /-- A finished mixin comes after what it includes, or both were seen to lie on a cycle. -/
  settled : ∀ id ∈ walk.order, ∀ inner, Leads edges id inner →
    Precedes walk.order inner id ∨ (id ∈ walk.cyclic ∧ inner ∈ walk.cyclic)
  genuine : ∀ id ∈ walk.cyclic, ∃ cycle, ClosesCycle edges cycle ∧ id ∈ cycle.map Prod.fst
  reported : ∀ cycle ∈ walk.cycles, ClosesCycle edges cycle
  /-- Of what lies on a cycle some such cycle is reported. -/
  named : ∀ id ∈ walk.cyclic, ∃ cycle ∈ walk.cycles, id ∈ cycle.map Prod.fst
  /-- The walk has come to whatever it notes as lying on a cycle. -/
  noted : ∀ id ∈ walk.cyclic, id ∈ walk.order ∨ id ∈ active
  listed : ∀ cycle ∈ walk.cycles, ∀ id ∈ cycle.map Prod.fst, id ∈ walk.cyclic

/-- The second walk goes on from the first: it finishes more mixins and notes more as lying on a
cycle, but none of those that were finished. -/
structure Traversal.Continues (walk later : Traversal) : Prop where
  order : ∃ more, later.order = walk.order ++ more
  cyclic : ∀ id ∈ walk.cyclic, id ∈ later.cyclic
  decided : ∀ id ∈ walk.order, id ∈ later.cyclic → id ∈ walk.cyclic

section Walk

variable {edges : Nat → List (Nat × Site)} {nodes active : List Nat} {walk later : Traversal}

namespace Traversal

theorem Continues.refl (walk : Traversal) : walk.Continues walk :=
  ⟨⟨[], by simp⟩, fun _ mem => mem, fun _ _ mem => mem⟩

/-- What is finished stays finished. -/
theorem Continues.mem_order (first : walk.Continues later) {id : Nat} (mem : id ∈ walk.order) :
    id ∈ later.order := by
  obtain ⟨more, order⟩ := first.order
  rw [order]
  exact List.mem_append_left more mem

theorem Continues.trans {last : Traversal} (first : walk.Continues later)
    (second : later.Continues last) : walk.Continues last := by
  obtain ⟨more, order⟩ := first.order
  obtain ⟨further, order'⟩ := second.order
  exact ⟨⟨more ++ further, by rw [order', order, List.append_assoc]⟩,
    fun id mem => second.cyclic id (first.cyclic id mem),
    fun id mem cyclic => first.decided id mem (second.decided id (first.mem_order mem) cyclic)⟩

/-- The walk is done with a mixin just if it has finished it. -/
theorem isDone_iff {id : Nat} : walk.isDone id = true ↔ id ∈ walk.order := by
  simp [isDone]

theorem Sound.start : Sound edges nodes active start :=
  { distinct := List.nodup_nil
    known := by simp [Traversal.start]
    finished := by simp [Traversal.start]
    settled := by simp [Traversal.start]
    genuine := by simp [Traversal.start]
    reported := by simp [Traversal.start]
    named := by simp [Traversal.start]
    noted := by simp [Traversal.start]
    listed := by simp [Traversal.start] }

/-- A walk that reports nothing notes nothing. -/
theorem Sound.complete (sound : walk.Sound edges nodes active) (none : walk.cycles = []) :
    walk.cyclic = [] := by
  apply List.eq_nil_iff_forall_not_mem.mpr
  intro id mem
  obtain ⟨cycle, reported, -⟩ := sound.named id mem
  rw [none] at reported
  cases reported

/-- One more mixin may be taken to be active as long as it is not finished. -/
theorem Sound.activate (sound : walk.Sound edges nodes active) {id : Nat}
    (fresh : id ∉ walk.order) : walk.Sound edges nodes (active ++ [id]) :=
  { sound with
    finished := by
      intro other mem isActive
      rcases List.mem_append.mp isActive with earlier | here
      · exact sound.finished other mem earlier
      · obtain rfl := List.mem_singleton.mp here
        exact fresh mem
    noted := fun other cyclic =>
      (sound.noted other cyclic).imp_right fun isActive => List.mem_append_left _ isActive }

/-- Noting a cycle of active mixins keeps the walk sound. -/
theorem Sound.close (sound : walk.Sound edges nodes active) {cycle : InclusionPath}
    (closed : ClosesCycle edges cycle) (passes : ∀ id ∈ cycle.map Prod.fst, id ∈ active) :
    (walk.close cycle).Sound edges nodes active where
  distinct := sound.distinct
  known := sound.known
  finished := sound.finished
  settled := by
    intro id mem inner leads
    rcases sound.settled id mem inner leads with earlier | ⟨cyclic, innerCyclic⟩
    · exact .inl earlier
    · exact .inr ⟨List.mem_append_left _ cyclic, List.mem_append_left _ innerCyclic⟩
  genuine := by
    intro id mem
    rcases List.mem_append.mp mem with earlier | here
    · exact sound.genuine id earlier
    · exact ⟨cycle, closed, here⟩
  reported := by
    intro other mem
    simp only [Traversal.close] at mem
    split at mem
    · exact sound.reported other mem
    · rcases List.mem_append.mp mem with earlier | here
      · exact sound.reported other earlier
      · obtain rfl := List.mem_singleton.mp here
        exact closed
  named := by
    intro id mem
    have kept : ∀ known ∈ walk.cyclic, ∃ reported ∈ (walk.close cycle).cycles,
        known ∈ reported.map Prod.fst := by
      intro known knownMem
      obtain ⟨reported, isReported, passes⟩ := sound.named known knownMem
      refine ⟨reported, ?_, passes⟩
      simp only [Traversal.close]
      split
      · exact isReported
      · exact List.mem_append_left _ isReported
    rcases List.mem_append.mp mem with earlier | here
    · exact kept id earlier
    · -- a cycle that goes unreported has only mixins that were reported before
      by_cases all : (cycle.map Prod.fst).all walk.cyclic.contains = true
      · have known := List.all_eq_true.mp all id here
        exact kept id (by simpa using known)
      · refine ⟨cycle, ?_, here⟩
        simp only [Traversal.close, all]
        simp
  noted := by
    intro id mem
    rcases List.mem_append.mp mem with earlier | here
    · exact sound.noted id earlier
    · exact .inr (passes id here)
  listed := by
    intro other mem id passed
    simp only [Traversal.close] at mem
    split at mem
    · exact List.mem_append_left _ (sound.listed other mem id passed)
    · rcases List.mem_append.mp mem with earlier | here
      · exact List.mem_append_left _ (sound.listed other earlier id passed)
      · obtain rfl := List.mem_singleton.mp here
        exact List.mem_append_right _ passed

/-- Noting a cycle of active mixins touches nothing that is finished. -/
theorem Sound.continues_close (sound : walk.Sound edges nodes active) {cycle : InclusionPath}
    (passes : ∀ id ∈ cycle.map Prod.fst, id ∈ active) : walk.Continues (walk.close cycle) where
  order := ⟨[], by simp [Traversal.close]⟩
  cyclic := fun _ mem => List.mem_append_left _ mem
  decided := by
    intro id finished mem
    rcases List.mem_append.mp mem with earlier | here
    · exact earlier
    · exact absurd (passes id here) (sound.finished id finished)

/-- Finishing the active mixin keeps the walk sound if its inclusions are dealt with. -/
theorem Sound.leave {id : Nat} (sound : walk.Sound edges nodes (active ++ [id]))
    (node : id ∈ nodes) (fresh : id ∉ active)
    (dealt : ∀ inner, Leads edges id inner →
      inner ∈ walk.order ∨ (id ∈ walk.cyclic ∧ inner ∈ walk.cyclic)) :
    (walk.leave id).Sound edges nodes active where
  distinct := by
    have unfinished : id ∉ walk.order := fun mem => sound.finished id mem (by simp)
    simpa [Traversal.leave, List.nodup_append] using
      ⟨sound.distinct, fun other mem same => unfinished (same ▸ mem)⟩
  known := by
    intro other mem
    rcases List.mem_append.mp mem with earlier | here
    · exact sound.known other earlier
    · obtain rfl := List.mem_singleton.mp here
      exact node
  finished := by
    intro other mem isActive
    rcases List.mem_append.mp mem with earlier | here
    · exact sound.finished other earlier (List.mem_append_left _ isActive)
    · obtain rfl := List.mem_singleton.mp here
      exact fresh isActive
  settled := by
    intro other mem inner leads
    rcases List.mem_append.mp mem with earlier | here
    · exact (sound.settled other earlier inner leads).imp (fun h => h.append [id]) fun h => h
    · obtain rfl := List.mem_singleton.mp here
      exact (dealt inner leads).imp (fun h => Precedes.concat h other) fun h => h
  genuine := sound.genuine
  reported := sound.reported
  named := sound.named
  noted := by
    intro other cyclic
    rcases sound.noted other cyclic with finished | isActive
    · exact .inl (List.mem_append_left _ finished)
    · rcases List.mem_append.mp isActive with above | here
      · exact .inr above
      · exact .inl (List.mem_append_right _ here)
  listed := sound.listed

theorem continues_leave (walk : Traversal) (id : Nat) : walk.Continues (walk.leave id) :=
  ⟨⟨[id], rfl⟩, fun _ mem => mem, fun _ _ mem => mem⟩

end Traversal

open Traversal

/-- What a walk does with one entry of the mixin it visits. -/
def takeEntry (edges : Nat → List (Nat × Site)) (depth : Nat) (path : InclusionPath) (id : Nat)
    (walk : Traversal) (step : Nat × Site) : Traversal :=
  if walk.isDone step.1 then walk
  else if (path ++ [(id, step.2)]).any fun place => place.1 = step.1 then
    walk.close ((path ++ [(id, step.2)]).dropWhile fun place => place.1 ≠ step.1)
  else visit edges depth (path ++ [(id, step.2)]) step.1 walk

/-- A visit takes the entries of its mixin and then finishes it. -/
theorem visit_succ (edges : Nat → List (Nat × Site)) (depth : Nat) (path : InclusionPath)
    (id : Nat) (walk : Traversal) :
    visit edges (depth + 1) path id walk =
      ((edges id).foldl (takeEntry edges depth path id) walk).leave id :=
  rfl

/-- The path of a visit: it leads to the mixin visited, and the mixins on it differ. -/
structure OnPath (edges : Nat → List (Nat × Site)) (nodes : List Nat) (path : InclusionPath)
    (id : Nat) : Prop where
  way : LeadsTo edges path id
  distinct : (path.map Prod.fst ++ [id]).Nodup
  known : ∀ other ∈ path.map Prod.fst ++ [id], other ∈ nodes

/-- A visit of that depth keeps walks sound and finishes the mixin visited. The mixins on a path
differ, so the depth suffices as long as it exceeds the number of those that are not on it. -/
def VisitsSoundly (edges : Nat → List (Nat × Site)) (nodes : List Nat) (depth : Nat) : Prop :=
  ∀ (path : InclusionPath) (id : Nat) (walk : Traversal), nodes.length < path.length + depth →
    OnPath edges nodes path id → id ∉ walk.order →
    walk.Sound edges nodes (path.map Prod.fst) →
    (visit edges depth path id walk).Sound edges nodes (path.map Prod.fst) ∧
      walk.Continues (visit edges depth path id walk) ∧
      id ∈ (visit edges depth path id walk).order

/-- The mixins that the nodes include are nodes. -/
def Closed (edges : Nat → List (Nat × Site)) (nodes : List Nat) : Prop :=
  ∀ id ∈ nodes, ∀ inner, Leads edges id inner → inner ∈ nodes

/-- The entry of a visited mixin is dealt with: what it names is finished, or was seen to lie on a
cycle like the mixin itself. -/
def Dealt (walk : Traversal) (id inner : Nat) : Prop :=
  inner ∈ walk.order ∨ (id ∈ walk.cyclic ∧ inner ∈ walk.cyclic)

theorem Dealt.of_continues {id inner : Nat} (dealt : Dealt walk id inner)
    (continues : walk.Continues later) : Dealt later id inner :=
  dealt.imp continues.mem_order fun h => ⟨continues.cyclic id h.1, continues.cyclic inner h.2⟩

/-- A mixin that is visited is not on the way to itself. -/
theorem OnPath.offPath {path : InclusionPath} {id : Nat} (onPath : OnPath edges nodes path id) :
    id ∉ path.map Prod.fst := fun mem =>
  (List.nodup_append.mp onPath.distinct).2.2 id mem id List.mem_cons_self rfl

/-- There are fewer mixins on a path than there are in all. -/
theorem OnPath.length_lt {path : InclusionPath} {id : Nat} (onPath : OnPath edges nodes path id) :
    path.length < nodes.length := by
  have short := (onPath.distinct.subperm fun other mem => onPath.known other mem).length_le
  simp only [List.length_append, List.length_map, List.length_singleton] at short
  omega

/-- A path goes on along an entry to a mixin it has not visited. -/
theorem OnPath.extend {path : InclusionPath} {id target : Nat} {site : Site}
    (closed : Closed edges nodes) (onPath : OnPath edges nodes path id)
    (entry : (target, site) ∈ edges id)
    (unvisited : target ∉ (path ++ [(id, site)]).map Prod.fst) :
    OnPath edges nodes (path ++ [(id, site)]) target where
  way := onPath.way.step entry
  distinct := by
    have distinct := onPath.distinct
    simp only [List.map_append, List.map_cons, List.map_nil] at unvisited ⊢
    refine List.nodup_append.mpr ⟨distinct, List.nodup_singleton target, ?_⟩
    rintro other mem _ here rfl
    exact unvisited (List.mem_singleton.mp here ▸ mem)
  known := by
    intro other mem
    rcases List.mem_append.mp mem with earlier | here
    · exact onPath.known other (by simpa using earlier)
    · obtain rfl := List.mem_singleton.mp here
      exact closed id (onPath.known id (by simp)) other ⟨site, entry⟩

/-- The mixin that an entry names is finished already, or it is active and a cycle is closed, or it
is visited now. -/
theorem takeEntry_cases (closed : Closed edges nodes) {path : InclusionPath} {id : Nat}
    {step : Nat × Site} (onPath : OnPath edges nodes path id) (entry : step ∈ edges id)
    (depth : Nat) (walk : Traversal) :
    (step.1 ∈ walk.order ∧ takeEntry edges depth path id walk step = walk) ∨
    (step.1 ∉ walk.order ∧ step.1 ∈ (path ++ [(id, step.2)]).map Prod.fst ∧
      takeEntry edges depth path id walk step =
        walk.close ((path ++ [(id, step.2)]).dropWhile fun place => place.1 ≠ step.1)) ∨
    (step.1 ∉ walk.order ∧ OnPath edges nodes (path ++ [(id, step.2)]) step.1 ∧
      takeEntry edges depth path id walk step =
        visit edges depth (path ++ [(id, step.2)]) step.1 walk) := by
  unfold takeEntry
  split
  · rename_i isDone
    exact .inl ⟨isDone_iff.mp isDone, rfl⟩
  · rename_i notDone
    rw [isDone_iff] at notDone
    split
    · rename_i active
      obtain ⟨place, mem, same⟩ := List.any_eq_true.mp active
      exact .inr (.inl ⟨notDone, List.mem_map.mpr ⟨place, mem, by simpa using same⟩, rfl⟩)
    · rename_i inactive
      have unvisited : step.1 ∉ (path ++ [(id, step.2)]).map Prod.fst := by
        intro mem
        obtain ⟨place, placeMem, same⟩ := List.mem_map.mp mem
        exact inactive (List.any_eq_true.mpr ⟨place, placeMem, by simpa using same⟩)
      exact .inr (.inr ⟨notDone, onPath.extend closed entry unvisited, rfl⟩)

/-- Taking one entry keeps a walk sound and deals with the entry. -/
theorem takeEntry_sound {depth : Nat} {path : InclusionPath} {id : Nat} {step : Nat × Site}
    (closed : Closed edges nodes) (deeper : VisitsSoundly edges nodes depth)
    (enough : nodes.length < path.length + (depth + 1)) (onPath : OnPath edges nodes path id)
    (entry : step ∈ edges id) (sound : walk.Sound edges nodes (path.map Prod.fst ++ [id])) :
    (takeEntry edges depth path id walk step).Sound edges nodes (path.map Prod.fst ++ [id]) ∧
      walk.Continues (takeEntry edges depth path id walk step) ∧
      Dealt (takeEntry edges depth path id walk step) id step.1 := by
  have ids : (path ++ [(id, step.2)]).map Prod.fst = path.map Prod.fst ++ [id] := by simp
  rw [← ids] at sound ⊢
  obtain ⟨isDone, taken⟩ | ⟨-, visited, taken⟩ | ⟨notDone, onward, taken⟩ :=
    takeEntry_cases closed onPath entry depth walk <;> rw [taken]
  · exact ⟨sound, .refl walk, .inl isDone⟩
  · obtain ⟨cycle, memId, memTarget⟩ :=
      closesCycle_dropWhile (onPath.way.step entry) (ids ▸ onPath.distinct) visited
    have passes := ((List.dropWhile_suffix (fun place : Nat × Site => place.1 ≠ step.1)
      (l := path ++ [(id, step.2)])).map Prod.fst).subset
    exact ⟨sound.close cycle passes, sound.continues_close passes,
      .inr ⟨List.mem_append_right _ memId, List.mem_append_right _ memTarget⟩⟩
  · have longer : nodes.length < (path ++ [(id, step.2)]).length + depth := by
      simp only [List.length_append, List.length_singleton]
      omega
    obtain ⟨nextSound, continues, finished⟩ := deeper _ step.1 walk longer onward notDone sound
    exact ⟨nextSound, continues, .inl finished⟩

/-- Taking entries one after another deals with all of them. -/
theorem takeEntries_sound {depth : Nat} {path : InclusionPath} {id : Nat}
    (closed : Closed edges nodes) (deeper : VisitsSoundly edges nodes depth)
    (enough : nodes.length < path.length + (depth + 1)) (onPath : OnPath edges nodes path id)
    (steps : List (Nat × Site)) (entries : ∀ step ∈ steps, step ∈ edges id)
    (sound : walk.Sound edges nodes (path.map Prod.fst ++ [id])) :
    (steps.foldl (takeEntry edges depth path id) walk).Sound edges nodes
        (path.map Prod.fst ++ [id]) ∧
      walk.Continues (steps.foldl (takeEntry edges depth path id) walk) ∧
      ∀ step ∈ steps,
        Dealt (steps.foldl (takeEntry edges depth path id) walk) id step.1 := by
  induction steps generalizing walk with
  | nil => exact ⟨sound, .refl walk, by simp⟩
  | cons step steps ih =>
      obtain ⟨nextSound, continues, dealt⟩ :=
        takeEntry_sound closed deeper enough onPath (entries step List.mem_cons_self) sound
      obtain ⟨doneSound, continues', dealt'⟩ :=
        ih (fun other mem => entries other (List.mem_cons_of_mem _ mem)) nextSound
      refine ⟨doneSound, continues.trans continues', ?_⟩
      intro other mem
      rcases List.mem_cons.mp mem with rfl | later
      · exact dealt.of_continues continues'
      · exact dealt' other later

/-- Every visit that may go deep enough is sound. -/
theorem visit_sound (closed : Closed edges nodes) (depth : Nat) :
    VisitsSoundly edges nodes depth := by
  induction depth with
  | zero =>
      intro path id walk enough onPath _ _
      have short := onPath.length_lt
      omega
  | succ depth ih =>
      intro path id walk enough onPath fresh sound
      obtain ⟨doneSound, continues, dealt⟩ :=
        takeEntries_sound closed ih enough onPath (edges id) (fun _ mem => mem)
          (sound.activate fresh)
      rw [visit_succ]
      refine ⟨doneSound.leave (onPath.known id (by simp)) onPath.offPath ?_,
        continues.trans (continues_leave _ id), by simp [leave]⟩
      rintro inner ⟨site, mem⟩
      exact dealt (inner, site) mem

/-- What a walk over all the mixins does with one of them. -/
def takeRoot (edges : Nat → List (Nat × Site)) (depth : Nat) (walk : Traversal) (id : Nat) :
    Traversal :=
  if walk.isDone id then walk else visit edges depth [] id walk

/-- A walk takes the mixins one after another. -/
theorem traverse_eq (edges : Nat → List (Nat × Site)) (depth : Nat) (ids : List Nat) :
    traverse edges depth ids = ids.foldl (takeRoot edges depth) .start :=
  rfl

/-- A visit may start at any of the mixins. -/
theorem OnPath.root {id : Nat} (node : id ∈ nodes) : OnPath edges nodes [] id :=
  ⟨.start id, List.nodup_singleton id, by simpa using node⟩

/-- The mixin is finished already, or it is visited now. -/
theorem takeRoot_cases (edges : Nat → List (Nat × Site)) (depth : Nat) (walk : Traversal)
    (id : Nat) :
    (id ∈ walk.order ∧ takeRoot edges depth walk id = walk) ∨
      (id ∉ walk.order ∧ takeRoot edges depth walk id = visit edges depth [] id walk) := by
  unfold takeRoot
  split
  · rename_i isDone
    exact .inl ⟨isDone_iff.mp isDone, rfl⟩
  · rename_i notDone
    exact .inr ⟨by rwa [isDone_iff] at notDone, rfl⟩

/-- Taking mixins one after another keeps a walk sound and finishes all of them. -/
theorem takeRoots_sound (closed : Closed edges nodes) {depth : Nat} (enough : nodes.length < depth)
    (ids : List Nat) (known : ∀ id ∈ ids, id ∈ nodes) (sound : walk.Sound edges nodes []) :
    (ids.foldl (takeRoot edges depth) walk).Sound edges nodes [] ∧
      walk.Continues (ids.foldl (takeRoot edges depth) walk) ∧
      ∀ id ∈ ids, id ∈ (ids.foldl (takeRoot edges depth) walk).order := by
  induction ids generalizing walk with
  | nil => exact ⟨sound, .refl walk, by simp⟩
  | cons id ids ih =>
      have root : OnPath edges nodes [] id := .root (known id List.mem_cons_self)
      obtain ⟨nextSound, continues, finished⟩ :
          (takeRoot edges depth walk id).Sound edges nodes [] ∧
          walk.Continues (takeRoot edges depth walk id) ∧
          id ∈ (takeRoot edges depth walk id).order := by
        obtain ⟨isDone, taken⟩ | ⟨notDone, taken⟩ := takeRoot_cases edges depth walk id <;>
          rw [taken]
        · exact ⟨sound, .refl walk, isDone⟩
        · exact visit_sound closed depth [] id walk (by simpa using enough) root notDone sound
      obtain ⟨doneSound, continues', finished'⟩ :=
        ih (fun other mem => known other (List.mem_cons_of_mem _ mem)) nextSound
      refine ⟨doneSound, continues.trans continues', ?_⟩
      intro other mem
      rcases List.mem_cons.mp mem with rfl | later
      · exact continues'.mem_order finished
      · exact finished' other later

/-- A walk over all the mixins is sound and finishes every one of them. -/
theorem traverse_sound (closed : Closed edges nodes) {depth : Nat}
    (enough : nodes.length < depth) :
    (traverse edges depth nodes).Sound edges nodes [] ∧
      ∀ id ∈ nodes, id ∈ (traverse edges depth nodes).order := by
  obtain ⟨sound, -, finished⟩ :=
    takeRoots_sound closed enough nodes (fun _ mem => mem) .start
  exact ⟨sound, finished⟩

end Walk

end ClassFactory
