/-
Module: ClassFactory.Proofs.Mixins.Arrivals
Purpose: When the walk over the mixins comes to each of them, and what it notes from there. What it
  has finished at any time is told by the inclusions alone: all that those it took before lead to,
  past what was finished or on the way. A mixin is noted as lying on a cycle just if inclusions lead
  on from it in that manner to an entry that names it or a mixin on the way to it.
Main exports: CoversPast, FinishedThrough, ComesAlong, GetsBack, visit_order_iff, visit_cyclic_iff,
  exists_comesAlong, ComesAlong.cyclic_iff
-/
import ClassFactory.Proofs.Mixins.Walk

namespace ClassFactory

/-- The first mixin is the second or includes it by way of mixins of which none is barred, nor is
either of the two. -/
structure CoversPast (edges : Nat → List (Nat × Site)) (barred : Nat → Prop) (outer inner : Nat) :
    Prop where
  free : ¬ barred outer
  way : Relation.ReflTransGen (fun id next => Leads edges id next ∧ ¬ barred next) outer inner

/-- What is finished once a walk has taken the given mixins, by what was finished before. The mixins
on the way are taken up later. -/
def FinishedThrough (edges : Nat → List (Nat × Site)) (finished : Nat → Prop) (onWay taken : List Nat)
    (other : Nat) : Prop :=
  finished other ∨
    ∃ id ∈ taken, CoversPast edges (fun id => finished id ∨ id ∈ onWay) id other

/-- A walk over the mixins comes to one of them along a path when the others given are finished. It
takes the mixins, and the entries of each one it comes to, in their order. -/
inductive ComesAlong (edges : Nat → List (Nat × Site)) (nodes : List Nat) :
    InclusionPath → Nat → (Nat → Prop) → Prop where
  | root {before after : List Nat} {id : Nat} (taken : nodes = before ++ id :: after)
      (unfinished : ¬ FinishedThrough edges (fun _ => False) [] before id) :
      ComesAlong edges nodes [] id (FinishedThrough edges (fun _ => False) [] before)
  | entry {path : InclusionPath} {id next : Nat} {finished : Nat → Prop}
      {before after : List (Nat × Site)} {site : Site}
      (comes : ComesAlong edges nodes path id finished)
      (taken : edges id = before ++ (next, site) :: after)
      (unvisited : next ∉ path.map Prod.fst ++ [id])
      (unfinished : ¬ FinishedThrough edges finished (path.map Prod.fst ++ [id])
        (before.map Prod.fst) next) :
      ComesAlong edges nodes (path ++ [(id, site)]) next
        (FinishedThrough edges finished (path.map Prod.fst ++ [id]) (before.map Prod.fst))

/-- From the mixin that a walk comes to, inclusions lead past all that is finished or on the way to
an entry that names the mixin itself or one on the way to it. -/
def GetsBack (edges : Nat → List (Nat × Site)) (path : InclusionPath) (id : Nat)
    (finished : Nat → Prop) : Prop :=
  ∃ last, CoversPast edges (fun other => finished other ∨ other ∈ path.map Prod.fst) id last ∧
    ∃ back ∈ path.map Prod.fst ++ [id], Leads edges last back

/-! ## Ways past what is barred -/

section Ways

variable {edges : Nat → List (Nat × Site)} {barred fewer also finished : Nat → Prop}
  {onWay taken more : List Nat} {outer middle inner : Nat}

namespace CoversPast

theorem refl (free : ¬ barred outer) : CoversPast edges barred outer outer := ⟨free, .refl⟩

theorem tail (past : CoversPast edges barred outer middle) (leads : Leads edges middle inner)
    (free : ¬ barred inner) : CoversPast edges barred outer inner :=
  ⟨past.free, past.way.tail ⟨leads, free⟩⟩

theorem trans (first : CoversPast edges barred outer middle)
    (second : CoversPast edges barred middle inner) : CoversPast edges barred outer inner :=
  ⟨first.free, first.way.trans second.way⟩

theorem head (free : ¬ barred outer) (leads : Leads edges outer middle)
    (past : CoversPast edges barred middle inner) : CoversPast edges barred outer inner :=
  ((refl free).tail leads past.free).trans past

/-- Where less is barred the same ways are open. -/
theorem mono (past : CoversPast edges barred outer inner) (less : ∀ id, fewer id → barred id) :
    CoversPast edges fewer outer inner :=
  ⟨fun isBarred => past.free (less outer isBarred),
    past.way.lift id fun _ next step => ⟨step.1, fun isBarred => step.2 (less next isBarred)⟩⟩

/-- A way never ends at what is barred. -/
theorem end_free (past : CoversPast edges barred outer inner) : ¬ barred inner := by
  rcases Relation.ReflTransGen.cases_tail past.way with same | ⟨_, -, step⟩
  · exact same ▸ past.free
  · exact step.2

/-- A way that leaves its first mixin for good goes on past that mixin too. -/
theorem eq_or_head (past : CoversPast edges barred outer inner) :
    inner = outer ∨
      ∃ next, Leads edges outer next ∧
        CoversPast edges (fun id => barred id ∨ id = outer) next inner := by
  obtain ⟨-, way⟩ := past
  induction way with
  | refl => exact .inl rfl
  | @tail middle inner _ step ih =>
      by_cases same : inner = outer
      · exact .inl same
      · have free : ¬ (barred inner ∨ inner = outer) := by simp [step.2, same]
        rcases ih with rfl | ⟨next, leads, past⟩
        · exact .inr ⟨inner, step.1, refl free⟩
        · exact .inr ⟨next, leads, past.tail step.1 free⟩

/-- What ways spread to is where a way ends, or the way goes past all of it. -/
theorem cut (past : CoversPast edges barred outer inner)
    (spreads : ∀ id next, also id → ¬ barred id → Leads edges id next → ¬ barred next → also next) :
    also inner ∨ CoversPast edges (fun id => barred id ∨ also id) outer inner := by
  obtain ⟨free, way⟩ := past
  suffices extended : ¬ barred inner ∧
      (also inner ∨ CoversPast edges (fun id => barred id ∨ also id) outer inner) from extended.2
  induction way with
  | refl =>
      by_cases spread : also outer
      · exact ⟨free, .inl spread⟩
      · exact ⟨free, .inr (refl fun isBarred => isBarred.elim free spread)⟩
  | @tail middle inner _ step ih =>
      refine ⟨step.2, ?_⟩
      by_cases spread : also inner
      · exact .inl spread
      · obtain ⟨unbarred, spreadBefore | past⟩ := ih
        · exact absurd (spreads middle inner spreadBefore unbarred step.1 step.2) spread
        · exact .inr (past.tail step.1 fun isBarred => isBarred.elim step.2 spread)

end CoversPast

/-- Nothing is finished by taking nothing. -/
theorem finishedThrough_nil {other : Nat} :
    FinishedThrough edges finished onWay [] other ↔ finished other := by
  simp [FinishedThrough]

/-- What is finished spreads along inclusions, up to what was finished before or is on the way. -/
theorem FinishedThrough.spreads (id next : Nat)
    (through : FinishedThrough edges finished onWay taken id) (free : ¬ (finished id ∨ id ∈ onWay))
    (leads : Leads edges id next) (nextFree : ¬ (finished next ∨ next ∈ onWay)) :
    FinishedThrough edges finished onWay taken next := by
  obtain before | ⟨start, mem, past⟩ := through
  · exact absurd (.inl before) free
  · exact .inr ⟨start, mem, past.tail leads nextFree⟩

/-- Mixins may be taken in two turns. -/
theorem finishedThrough_append {other : Nat} :
    FinishedThrough edges finished onWay (taken ++ more) other ↔
      FinishedThrough edges (FinishedThrough edges finished onWay taken) onWay more other := by
  constructor
  · rintro (before | ⟨start, mem, past⟩)
    · exact .inl (.inl before)
    · rcases List.mem_append.mp mem with first | second
      · exact .inl (.inr ⟨start, first, past⟩)
      · rcases past.cut FinishedThrough.spreads with through | past
        · exact .inl through
        · exact .inr ⟨start, second, past.mono fun id barred => by tauto⟩
  · rintro ((before | ⟨start, mem, past⟩) | ⟨start, mem, past⟩)
    · exact .inl before
    · exact .inr ⟨start, List.mem_append_left _ mem, past⟩
    · exact .inr ⟨start, List.mem_append_right _ mem, past.mono fun id barred =>
        barred.imp_left .inl⟩

/-- The first of the mixins taken that leads to another is not finished through those before it, and
it still leads there past what is. -/
theorem exists_first_way {α : Type} (target : α → Nat) {items : List α}
    (some : ∃ item ∈ items,
      CoversPast edges (fun id => finished id ∨ id ∈ onWay) (target item) inner) :
    ∃ before item after, items = before ++ item :: after ∧
      ¬ FinishedThrough edges finished onWay (before.map target) (target item) ∧
      CoversPast edges
        (fun id => FinishedThrough edges finished onWay (before.map target) id ∨ id ∈ onWay)
        (target item) inner := by
  classical
  obtain ⟨item, mem, leads⟩ := some
  obtain ⟨first, found⟩ := Option.isSome_iff_exists.mp (List.find?_isSome
    (p := fun item => decide (CoversPast edges (fun id => finished id ∨ id ∈ onWay)
      (target item) inner)) |>.mpr ⟨item, mem, decide_eq_true leads⟩)
  obtain ⟨past, before, after, split, none⟩ := List.find?_eq_some_iff_append.mp found
  replace past := of_decide_eq_true past
  -- nothing that leads there is finished through those before
  have unfinished : ∀ id, CoversPast edges (fun id => finished id ∨ id ∈ onWay) id inner →
      ¬ FinishedThrough edges finished onWay (before.map target) id := by
    rintro id onward (done | ⟨_, earlier, through⟩)
    · exact onward.free (.inl done)
    · obtain ⟨other, otherMem, rfl⟩ := List.mem_map.mp earlier
      exact absurd (through.trans onward) (by simpa using none other otherMem)
  refine ⟨before, first, after, split, unfinished _ past, ?_⟩
  rcases past.cut FinishedThrough.spreads with through | onward
  · exact absurd through (unfinished inner (.refl past.end_free))
  · exact onward.mono fun id barred => by tauto

end Ways

/-! ## What a visit finishes -/

section Visits

variable {edges : Nat → List (Nat × Site)} {nodes : List Nat} {walk later : Traversal}
  {path : InclusionPath} {id : Nat}

/-- Mixins taken one after another finish what each of them finishes in its turn. -/
theorem foldl_order_iff {α : Type} {take : Traversal → α → Traversal} (target : α → Nat)
    {onWay : List Nat} (items : List α)
    (takes : ∀ walk : Traversal, ∀ item ∈ items, ∀ other, other ∈ (take walk item).order ↔
      FinishedThrough edges (· ∈ walk.order) onWay [target item] other)
    (walk : Traversal) (other : Nat) :
    other ∈ (items.foldl take walk).order ↔
      FinishedThrough edges (· ∈ walk.order) onWay (items.map target) other := by
  induction items generalizing walk with
  | nil => exact finishedThrough_nil.symm
  | cons item items ih =>
      have first : (· ∈ (take walk item).order) =
          FinishedThrough edges (· ∈ walk.order) onWay [target item] :=
        funext fun other => propext (takes walk item List.mem_cons_self other)
      rw [List.foldl_cons, ih (fun walk other mem => takes walk other (List.mem_cons_of_mem _ mem)),
        first, ← finishedThrough_append]
      rfl

/-- Visits of that depth finish what is to be finished through the mixin visited. -/
def VisitsThrough (edges : Nat → List (Nat × Site)) (nodes : List Nat) (depth : Nat) : Prop :=
  ∀ (path : InclusionPath) (id : Nat) (walk : Traversal), nodes.length < path.length + depth →
    OnPath edges nodes path id → id ∉ walk.order →
    ∀ other, other ∈ (visit edges depth path id walk).order ↔
      FinishedThrough edges (· ∈ walk.order) (path.map Prod.fst) [id] other

/-- Taking an entry finishes what is to be finished through the mixin that it names, which is
nothing if that is finished or active. -/
theorem takeEntry_order_iff {depth : Nat} {step : Nat × Site} (closed : Closed edges nodes)
    (deeper : VisitsThrough edges nodes depth)
    (enough : nodes.length < path.length + (depth + 1)) (onPath : OnPath edges nodes path id)
    (entry : step ∈ edges id) (walk : Traversal) (other : Nat) :
    other ∈ (takeEntry edges depth path id walk step).order ↔
      FinishedThrough edges (· ∈ walk.order) (path.map Prod.fst ++ [id]) [step.1] other := by
  have ids : (path ++ [(id, step.2)]).map Prod.fst = path.map Prod.fst ++ [id] := by simp
  have nothing (known : step.1 ∈ walk.order ∨ step.1 ∈ path.map Prod.fst ++ [id]) :
      other ∈ walk.order ↔
        FinishedThrough edges (· ∈ walk.order) (path.map Prod.fst ++ [id]) [step.1] other := by
    refine ⟨.inl, ?_⟩
    rintro (finished | ⟨start, mem, past⟩)
    · exact finished
    · obtain rfl := List.mem_singleton.mp mem
      exact absurd known past.free
  obtain ⟨isDone, taken⟩ | ⟨-, visited, taken⟩ | ⟨notDone, onward, taken⟩ :=
    takeEntry_cases closed onPath entry depth walk <;> rw [taken]
  · exact nothing (.inl isDone)
  · exact nothing (.inr (ids ▸ visited))
  · rw [← ids]
    refine deeper _ step.1 walk ?_ onward notDone other
    simp only [List.length_append, List.length_singleton]
    omega

/-- A visit finishes what is to be finished through its mixin, and nothing else. -/
theorem visit_order_iff (closed : Closed edges nodes) (depth : Nat) :
    VisitsThrough edges nodes depth := by
  induction depth with
  | zero =>
      intro path id walk enough onPath
      have short := onPath.length_lt
      omega
  | succ depth ih =>
      intro path id walk enough onPath fresh other
      have free : ¬ (id ∈ walk.order ∨ id ∈ path.map Prod.fst) :=
        fun known => known.elim fresh onPath.offPath
      rw [visit_succ, Traversal.leave, List.mem_append, List.mem_singleton,
        foldl_order_iff Prod.fst (edges id) fun walk step mem =>
          takeEntry_order_iff closed ih enough onPath mem walk]
      constructor
      · rintro ((finished | ⟨next, mem, past⟩) | rfl)
        · exact .inl finished
        · obtain ⟨⟨_, site⟩, entry, rfl⟩ := List.mem_map.mp mem
          refine .inr ⟨id, List.mem_cons_self, .head free ⟨site, entry⟩ (past.mono ?_)⟩
          exact fun other barred => barred.imp_right (List.mem_append_left _)
        · exact .inr ⟨other, List.mem_cons_self, .refl free⟩
      · rintro (finished | ⟨start, mem, past⟩)
        · exact .inl (.inl finished)
        · obtain rfl := List.mem_singleton.mp mem
          rcases past.eq_or_head with rfl | ⟨next, ⟨site, entry⟩, past⟩
          · exact .inr rfl
          · refine .inl (.inr ⟨next, List.mem_map_of_mem entry, past.mono ?_⟩)
            intro other barred
            simpa [or_assoc] using barred

/-- The entries of a mixin finish what is to be finished through the mixins that they name. -/
theorem takeEntries_order_iff {depth : Nat} (closed : Closed edges nodes)
    (enough : nodes.length < path.length + (depth + 1)) (onPath : OnPath edges nodes path id)
    (steps : List (Nat × Site)) (entries : ∀ step ∈ steps, step ∈ edges id) (walk : Traversal)
    (other : Nat) :
    other ∈ (steps.foldl (takeEntry edges depth path id) walk).order ↔
      FinishedThrough edges (· ∈ walk.order) (path.map Prod.fst ++ [id]) (steps.map Prod.fst)
        other :=
  foldl_order_iff Prod.fst steps (fun walk step mem => takeEntry_order_iff closed
    (visit_order_iff closed depth) enough onPath (entries step mem) walk) walk other

/-- The mixins that are taken at the top finish all that they lead to past what was finished
before. -/
theorem takeRoots_order_iff {depth : Nat} (closed : Closed edges nodes)
    (enough : nodes.length < depth) (ids : List Nat) (known : ∀ id ∈ ids, id ∈ nodes)
    (walk : Traversal) (other : Nat) :
    other ∈ (ids.foldl (takeRoot edges depth) walk).order ↔
      FinishedThrough edges (· ∈ walk.order) [] ids other := by
  have takes : ∀ walk : Traversal, ∀ id ∈ ids, ∀ other,
      other ∈ (takeRoot edges depth walk id).order ↔
        FinishedThrough edges (· ∈ walk.order) [] [id] other := by
    intro walk id mem other
    obtain ⟨isDone, taken⟩ | ⟨notDone, taken⟩ := takeRoot_cases edges depth walk id <;> rw [taken]
    · refine ⟨.inl, ?_⟩
      rintro (finished | ⟨start, startMem, past⟩)
      · exact finished
      · obtain rfl := List.mem_singleton.mp startMem
        exact absurd (.inl isDone) past.free
    · exact visit_order_iff closed depth [] id walk (by simpa using enough) (.root (known id mem))
        notDone other
  have taken := foldl_order_iff (fun id : Nat => id) ids takes walk other
  rwa [List.map_id'] at taken

/-! ## What a visit notes -/

/-- Some mixin that the later walk has finished since has an entry that names one of those given. -/
def LeadsBack (edges : Nat → List (Nat × Site)) (walk later : Traversal) (targets : List Nat) :
    Prop :=
  ∃ id ∈ later.order, id ∉ walk.order ∧ ∃ target ∈ targets, Leads edges id target

/-- Where nothing was finished in between nothing leads back. -/
theorem not_leadsBack_of_order_eq {targets : List Nat} (same : later.order = walk.order) :
    ¬ LeadsBack edges walk later targets := by
  rintro ⟨id, finished, fresh, -⟩
  exact fresh (same ▸ finished)

/-- What leads back does so from the one part of a walk or from the other. -/
theorem leadsBack_trans_iff {last : Traversal} {targets : List Nat} (first : walk.Continues later)
    (second : later.Continues last) :
    LeadsBack edges walk last targets ↔
      LeadsBack edges walk later targets ∨ LeadsBack edges later last targets := by
  constructor
  · rintro ⟨id, finished, fresh, back⟩
    by_cases before : id ∈ later.order
    · exact .inl ⟨id, before, fresh, back⟩
    · exact .inr ⟨id, finished, before, back⟩
  · rintro (⟨id, finished, fresh, back⟩ | ⟨id, finished, fresh, back⟩)
    · exact ⟨id, second.mem_order finished, fresh, back⟩
    · exact ⟨id, finished, fun before => fresh (first.mem_order before), back⟩

/-- The part of a path that a cycle takes up passes what comes no earlier than its first mixin. -/
theorem mem_dropWhile_iff {target : Nat} {above below : List Nat}
    (split : path.map Prod.fst = above ++ id :: below) (distinct : (path.map Prod.fst).Nodup) :
    id ∈ (path.dropWhile fun place => place.1 ≠ target).map Prod.fst ↔
      target ∈ above ++ [id] := by
  induction path generalizing above with
  | nil => simp at split
  | cons place rest ih =>
      have restDistinct := (List.nodup_cons.mp distinct).2
      cases above with
      | nil =>
          obtain ⟨rfl, -⟩ := List.cons.inj split
          by_cases same : place.1 = target
          · simp [same]
          · have dropped : place.1 ∉ (rest.dropWhile fun place => place.1 ≠ target).map Prod.fst :=
              fun mem => (List.nodup_cons.mp distinct).1
                (((List.dropWhile_suffix _).map Prod.fst).subset mem)
            simpa [same, Ne.symm same] using dropped
      | cons first above =>
          obtain ⟨rfl, restSplit⟩ := List.cons.inj split
          by_cases same : place.1 = target
          · simp [same, restSplit]
          · simpa [same, Ne.symm same] using ih restSplit restDistinct

/-- Of the mixins on the way those are noted that come no earlier than one that a mixin visited leads
back to. -/
def VisitsNoting (edges : Nat → List (Nat × Site)) (nodes : List Nat) (depth : Nat) : Prop :=
  ∀ (path : InclusionPath) (id : Nat) (walk : Traversal), nodes.length < path.length + depth →
    OnPath edges nodes path id → id ∉ walk.order →
    walk.Sound edges nodes (path.map Prod.fst) →
    ∀ above other below, path.map Prod.fst ++ [id] = above ++ other :: below →
      (other ∈ (visit edges depth path id walk).cyclic ↔
        other ∈ walk.cyclic ∨
          LeadsBack edges walk (visit edges depth path id walk) (above ++ [other]))

/-- An entry that names a mixin on the way is one that leads back itself. -/
theorem takeEntry_cyclic_iff {depth : Nat} {step : Nat × Site} (closed : Closed edges nodes)
    (deeper : VisitsNoting edges nodes depth)
    (enough : nodes.length < path.length + (depth + 1)) (onPath : OnPath edges nodes path id)
    (entry : step ∈ edges id) (sound : walk.Sound edges nodes (path.map Prod.fst ++ [id]))
    {above below : List Nat} {other : Nat}
    (split : path.map Prod.fst ++ [id] = above ++ other :: below) :
    other ∈ (takeEntry edges depth path id walk step).cyclic ↔
      other ∈ walk.cyclic ∨ step.1 ∈ above ++ [other] ∨
        LeadsBack edges walk (takeEntry edges depth path id walk step) (above ++ [other]) := by
  have ids : (path ++ [(id, step.2)]).map Prod.fst = path.map Prod.fst ++ [id] := by simp
  have onWay : ∀ target ∈ above ++ [other], target ∈ path.map Prod.fst ++ [id] := by
    intro target mem
    rw [split, List.append_cons]
    exact List.mem_append_left _ mem
  obtain ⟨isDone, taken⟩ | ⟨-, -, taken⟩ | ⟨notDone, onward, taken⟩ :=
    takeEntry_cases closed onPath entry depth walk <;> rw [taken]
  · have none : ¬ (step.1 ∈ above ++ [other] ∨ LeadsBack edges walk walk (above ++ [other])) :=
      fun leads => leads.elim (fun mem => sound.finished step.1 isDone (onWay _ mem))
        (not_leadsBack_of_order_eq rfl)
    exact (or_iff_left none).symm
  · have none : ¬ LeadsBack edges walk
        (walk.close ((path ++ [(id, step.2)]).dropWhile fun place => place.1 ≠ step.1))
        (above ++ [other]) := not_leadsBack_of_order_eq rfl
    rw [or_iff_left none, ← mem_dropWhile_iff (ids.trans split) (ids ▸ onPath.distinct)]
    exact List.mem_append
  · have unvisited : step.1 ∉ above ++ [other] := fun mem =>
      onward.offPath (ids ▸ onWay _ mem)
    rw [or_iff_right unvisited]
    refine deeper _ step.1 walk ?_ onward notDone (ids ▸ sound) above other (below ++ [step.1]) ?_
    · simp only [List.length_append, List.length_singleton]
      omega
    · rw [ids, split, List.append_assoc, List.cons_append]

/-- Of the mixins on the way the entries note those that come no earlier than one to which an entry,
or a mixin visited for it, leads back. -/
theorem takeEntries_cyclic_iff {depth : Nat} (closed : Closed edges nodes)
    (deeper : VisitsNoting edges nodes depth)
    (enough : nodes.length < path.length + (depth + 1)) (onPath : OnPath edges nodes path id)
    (steps : List (Nat × Site)) (entries : ∀ step ∈ steps, step ∈ edges id)
    (sound : walk.Sound edges nodes (path.map Prod.fst ++ [id]))
    {above below : List Nat} {other : Nat}
    (split : path.map Prod.fst ++ [id] = above ++ other :: below) :
    other ∈ (steps.foldl (takeEntry edges depth path id) walk).cyclic ↔
      other ∈ walk.cyclic ∨ (∃ step ∈ steps, step.1 ∈ above ++ [other]) ∨
        LeadsBack edges walk (steps.foldl (takeEntry edges depth path id) walk)
          (above ++ [other]) := by
  induction steps generalizing walk with
  | nil => simp [not_leadsBack_of_order_eq]
  | cons step steps ih =>
      have entry := entries step List.mem_cons_self
      have later : ∀ step ∈ steps, step ∈ edges id := fun other mem =>
        entries other (List.mem_cons_of_mem _ mem)
      have soundly := visit_sound closed depth
      obtain ⟨nextSound, continues, -⟩ := takeEntry_sound closed soundly enough onPath entry sound
      obtain ⟨-, continues', -⟩ :=
        takeEntries_sound closed soundly enough onPath steps later nextSound
      have first := takeEntry_cyclic_iff closed deeper enough onPath entry sound split
      rw [List.foldl_cons, ih later nextSound, first, leadsBack_trans_iff continues continues',
        List.exists_mem_cons_iff]
      simp only [or_assoc, or_left_comm]

/-- A visit notes no more and no fewer of the mixins on the way than its mixins lead back to. -/
theorem visit_cyclic_iff (closed : Closed edges nodes) (depth : Nat) :
    VisitsNoting edges nodes depth := by
  induction depth with
  | zero =>
      intro path id walk enough onPath
      have short := onPath.length_lt
      omega
  | succ depth ih =>
      intro path id walk enough onPath fresh sound above other below split
      obtain ⟨doneSound, -, -⟩ := takeEntries_sound closed (visit_sound closed depth) enough onPath
        (edges id) (fun _ mem => mem) (sound.activate fresh)
      have taken := takeEntries_cyclic_iff closed ih enough onPath (edges id) (fun _ mem => mem)
        (sound.activate fresh) split
      rw [visit_succ]
      refine taken.trans (or_congr_right ?_)
      constructor
      · rintro (⟨⟨target, site⟩, entry, mem⟩ | ⟨last, finished, unfinished, back⟩)
        · exact ⟨id, List.mem_append_right _ List.mem_cons_self, fresh, target, mem, site, entry⟩
        · exact ⟨last, List.mem_append_left _ finished, unfinished, back⟩
      · rintro ⟨last, finished, unfinished, target, mem, leads⟩
        rcases List.mem_append.mp finished with earlier | here
        · exact .inr ⟨last, earlier, unfinished, target, mem, leads⟩
        · obtain rfl := List.mem_singleton.mp here
          obtain ⟨site, entry⟩ := leads
          exact .inl ⟨(target, site), entry, mem⟩

end Visits

/-! ## Arrivals -/

section Arrivals

variable {edges : Nat → List (Nat × Site)} {nodes : List Nat} {path : InclusionPath} {id : Nat}
  {finished : Nat → Prop}

/-- A walk comes to a mixin along a path of inclusions. -/
theorem ComesAlong.onPath (closed : Closed edges nodes)
    (comes : ComesAlong edges nodes path id finished) :
    OnPath edges nodes path id := by
  induction comes with
  | root taken _ => exact .root (by simp [taken])
  | entry comes taken unvisited _ ih =>
      exact ih.extend closed (by simp [taken]) (by simpa using unvisited)

/-- From a mixin that a walk comes to it comes to all that inclusions lead to past what is finished
or on the way. -/
theorem ComesAlong.exists_of_coversPast (closed : Closed edges nodes) {target : Nat}
    (comes : ComesAlong edges nodes path id finished)
    (past : CoversPast edges (fun other => finished other ∨ other ∈ path.map Prod.fst) id target) :
    ∃ path finished, ComesAlong edges nodes path target finished := by
  -- a path has no more mixins than there are
  obtain ⟨room, bound⟩ : ∃ room, nodes.length ≤ path.length + room := ⟨nodes.length, by omega⟩
  induction room generalizing path id finished with
  | zero =>
      have short := (comes.onPath closed).length_lt
      omega
  | succ room ih =>
      rcases past.eq_or_head with rfl | ⟨next, ⟨site, entry⟩, onward⟩
      · exact ⟨path, finished, comes⟩
      · have leads : ∃ step ∈ edges id, CoversPast edges
            (fun other => finished other ∨ other ∈ path.map Prod.fst ++ [id]) step.1 target :=
          ⟨(next, site), entry, onward.mono fun other barred => by simpa [or_assoc] using barred⟩
        obtain ⟨before, ⟨first, place⟩, after, taken, unfinished, onward⟩ :=
          exists_first_way Prod.fst leads
        have comesNext : ComesAlong edges nodes (path ++ [(id, place)]) first _ :=
          .entry comes taken (fun visited => onward.free (.inr visited)) unfinished
        refine ih comesNext (onward.mono fun other barred => by simpa using barred) ?_
        simp only [List.length_append, List.length_singleton]
        omega

/-- A walk comes to each of the mixins. -/
theorem exists_comesAlong (closed : Closed edges nodes) (node : id ∈ nodes) :
    ∃ path finished, ComesAlong edges nodes path id finished := by
  have some : ∃ root ∈ nodes, CoversPast edges (fun other => False ∨ other ∈ []) root id :=
    ⟨id, node, .refl (by simp)⟩
  obtain ⟨before, root, after, taken, unfinished, onward⟩ :=
    exists_first_way (fun node : Nat => node) some
  rw [List.map_id'] at unfinished onward
  exact (ComesAlong.root taken unfinished).exists_of_coversPast closed onward

/-- A walk has come to a mixin along a path: it is sound and what is finished is what was given, and
the whole walk goes on from the visit that it is about to make. -/
structure Traversal.ComesTo (edges : Nat → List (Nat × Site)) (nodes : List Nat)
    (whole : Traversal) (path : InclusionPath) (id : Nat) (finished : Nat → Prop) (depth : Nat)
    (walk : Traversal) : Prop where
  enough : nodes.length < path.length + depth
  onPath : OnPath edges nodes path id
  sound : walk.Sound edges nodes (path.map Prod.fst)
  order : ∀ other, other ∈ walk.order ↔ finished other
  fresh : id ∉ walk.order
  continues : (visit edges depth path id walk).Continues whole

/-- A walk comes to a mixin that it has not finished when its turn among all of them comes. -/
theorem Traversal.comesTo_root (closed : Closed edges nodes) {depth : Nat}
    (enough : nodes.length < depth) {before after : List Nat} (taken : nodes = before ++ id :: after)
    (unfinished : ¬ FinishedThrough edges (fun _ => False) [] before id) :
    Traversal.ComesTo edges nodes (traverse edges depth nodes) [] id
      (FinishedThrough edges (fun _ => False) [] before) depth
      (before.foldl (takeRoot edges depth) .start) := by
  have known : ∀ other ∈ before ++ id :: after, other ∈ nodes := fun other mem => taken ▸ mem
  have root : OnPath edges nodes [] id := .root (known id (by simp))
  have deep : nodes.length < ([] : InclusionPath).length + depth := by simpa using enough
  have early : ∀ other ∈ before, other ∈ nodes := fun other mem => known other (by simp [mem])
  obtain ⟨sound, -, -⟩ := takeRoots_sound closed enough before early .start
  have order (other : Nat) : other ∈ (before.foldl (takeRoot edges depth) .start).order ↔
      FinishedThrough edges (fun _ => False) [] before other := by
    simpa [Traversal.start] using takeRoots_order_iff closed enough before early .start other
  have fresh := mt (order id).mp unfinished
  obtain ⟨nextSound, -, -⟩ := visit_sound closed depth [] id _ deep root fresh sound
  obtain ⟨-, continues, -⟩ := takeRoots_sound closed enough after
    (fun other mem => known other (by simp [mem])) nextSound
  refine ⟨deep, root, sound, order, fresh, ?_⟩
  obtain ⟨isDone, -⟩ | ⟨-, visited⟩ :=
    takeRoot_cases edges depth (before.foldl (takeRoot edges depth) .start) id
  · exact absurd isDone fresh
  · rwa [traverse_eq, show nodes.foldl (takeRoot edges depth) .start =
        after.foldl (takeRoot edges depth) (takeRoot edges depth _ id) by
      rw [taken, List.foldl_append, List.foldl_cons], visited]

/-- A walk that has come to a mixin comes to what an entry of it names, unless that is finished by
then or on the way. -/
theorem Traversal.ComesTo.entry (closed : Closed edges nodes) {whole walk : Traversal} {depth : Nat}
    (comes : Traversal.ComesTo edges nodes whole path id finished (depth + 1) walk) {next : Nat}
    {site : Site} {before after : List (Nat × Site)}
    (taken : edges id = before ++ (next, site) :: after)
    (unvisited : next ∉ path.map Prod.fst ++ [id])
    (unfinished : ¬ FinishedThrough edges finished (path.map Prod.fst ++ [id])
      (before.map Prod.fst) next) :
    Traversal.ComesTo edges nodes whole (path ++ [(id, site)]) next
      (FinishedThrough edges finished (path.map Prod.fst ++ [id]) (before.map Prod.fst)) depth
      (before.foldl (takeEntry edges depth path id) walk) := by
  have entries : ∀ step ∈ before ++ (next, site) :: after, step ∈ edges id :=
    fun step mem => taken ▸ mem
  have early : ∀ step ∈ before, step ∈ edges id := fun step mem => entries step (by simp [mem])
  have ids : (path ++ [(id, site)]).map Prod.fst = path.map Prod.fst ++ [id] := by simp
  obtain rfl : (· ∈ walk.order) = finished := funext fun other => propext (comes.order other)
  have soundly := visit_sound closed depth
  obtain ⟨sound, -, -⟩ := takeEntries_sound closed soundly comes.enough comes.onPath before early
    (comes.sound.activate comes.fresh)
  have order := takeEntries_order_iff closed comes.enough comes.onPath before early walk
  have onward := comes.onPath.extend closed (entries (next, site) (by simp)) (ids ▸ unvisited)
  have fresh := mt (order next).mp unfinished
  obtain ⟨nextSound, -, -⟩ := takeEntry_sound closed soundly comes.enough comes.onPath
    (entries (next, site) (by simp)) sound
  obtain ⟨-, continues, -⟩ := takeEntries_sound closed soundly comes.enough comes.onPath after
    (fun step mem => entries step (by simp [mem])) nextSound
  have deep : nodes.length < (path ++ [(id, site)]).length + depth := by
    have enough := comes.enough
    simp only [List.length_append, List.length_singleton]
    omega
  refine ⟨deep, onward, ids ▸ sound, order, fresh, ?_⟩
  obtain ⟨isDone, -⟩ | ⟨-, visited, -⟩ | ⟨-, -, visits⟩ := takeEntry_cases closed comes.onPath
    (entries (next, site) (by simp)) depth (before.foldl (takeEntry edges depth path id) walk)
  · exact absurd isDone fresh
  · exact absurd (ids ▸ visited) unvisited
  · have rest := comes.continues
    rw [visit_succ, taken, List.foldl_append, List.foldl_cons] at rest
    rw [visits] at continues rest
    exact (continues.trans (continues_leave _ id)).trans rest

/-- A walk over all the mixins does come to them in that way. -/
theorem ComesAlong.exists_comesTo (closed : Closed edges nodes) {depth : Nat}
    (enough : nodes.length < depth) (comes : ComesAlong edges nodes path id finished) :
    ∃ deep walk, Traversal.ComesTo edges nodes (traverse edges depth nodes) path id finished deep
      walk := by
  induction comes with
  | root taken unfinished =>
      exact ⟨depth, _, Traversal.comesTo_root closed enough taken unfinished⟩
  | entry _ taken unvisited unfinished ih =>
      obtain ⟨deep, walk, reached⟩ := ih
      cases deep with
      | zero =>
          have short := reached.onPath.length_lt
          have deep := reached.enough
          omega
      | succ deep => exact ⟨deep, _, reached.entry closed taken unvisited unfinished⟩

/-- A mixin is noted as lying on a cycle just if inclusions lead back when the walk comes to it. -/
theorem ComesAlong.cyclic_iff (closed : Closed edges nodes) {depth : Nat}
    (enough : nodes.length < depth) (comes : ComesAlong edges nodes path id finished) :
    id ∈ (traverse edges depth nodes).cyclic ↔ GetsBack edges path id finished := by
  obtain ⟨deep, walk, reached⟩ := comes.exists_comesTo closed enough
  obtain rfl : (· ∈ walk.order) = finished := funext fun other => propext (reached.order other)
  obtain ⟨-, -, visited⟩ :=
    visit_sound closed deep path id walk reached.enough reached.onPath reached.fresh reached.sound
  have order := visit_order_iff closed deep path id walk reached.enough reached.onPath reached.fresh
  have noted := visit_cyclic_iff closed deep path id walk reached.enough reached.onPath reached.fresh
    reached.sound (path.map Prod.fst) id [] rfl
  have unnoted : id ∉ walk.cyclic := fun cyclic =>
    (reached.sound.noted id cyclic).elim reached.fresh reached.onPath.offPath
  -- the rest of the walk notes no more of what the visit has finished
  rw [show id ∈ (traverse edges depth nodes).cyclic ↔ id ∈ (visit edges deep path id walk).cyclic
    from ⟨reached.continues.decided id visited, reached.continues.cyclic id⟩, noted,
    or_iff_right unnoted]
  constructor
  · rintro ⟨last, finished, unfinished, back⟩
    obtain before | ⟨start, mem, past⟩ := (order last).mp finished
    · exact absurd before unfinished
    · obtain rfl := List.mem_singleton.mp mem
      exact ⟨last, past, back⟩
  · rintro ⟨last, past, back⟩
    exact ⟨last, (order last).mpr (.inr ⟨id, List.mem_cons_self, past⟩),
      fun before => past.end_free (.inl before), back⟩

end Arrivals

end ClassFactory
