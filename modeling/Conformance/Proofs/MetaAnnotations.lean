/-
Conformance/Proofs/MetaAnnotations.lean

The search for annotations on annotations is exact.

The search works off a queue of names.  It never follows a name twice, and it
follows none that took `maxMetaDepth` steps to get to.  Either of the two alone
is plainly right.  Together they could miss a marker: a name that was followed
too late would be barred when a shorter way comes by.  What rules this out is
the queue.

* Depths in the queue never fall, and they span two levels at most: what is left
  of the level that is being followed comes first, and after it what was put at
  the end from the next.  Working off the first part leaves the second, grown by
  the annotations on the types of all names that were new (`search_atDepth`).
* So the search goes level by level, and comes to what `reachesMarker` does, which
  takes a level at a time (`search_eq_reachesMarker`).
* Names are thus followed in the order of their distance, and whatever is reached
  through a followed name is reached from the current level in fewer steps
  (`Leads.leave`).

`Explored` is the invariant of the search by levels: no followed name is the
marker, and where a followed name leads in one step has been followed too or is
next.  One level keeps it (`Explored.advance`), and under it the search finds the
marker exactly if few enough steps lead there from the current level
(`reachesMarker_iff_leads`).  Nothing is asked of the annotations, so they may
repeat and run in circles.
-/
import Conformance.CodeModel
import Conformance.FirstSeen

namespace Conformance

namespace CodeModel

variable {m : CodeModel} {marker : String}

/-! ### Ways to a marker -/

/-- `Leads m marker k name`: in `k` steps from a type to the type of an
annotation on it, one may get from `name` to `marker`. -/
inductive Leads (m : CodeModel) (marker : String) : Nat → String → Prop
  | here : Leads m marker 0 marker
  | step {k : Nat} {name next : String} :
      next ∈ m.markersOfType name → Leads m marker k next →
      Leads m marker (k + 1) name

theorem mem_markersOfType {name next : String} :
    next ∈ m.markersOfType name ↔
      ∃ c, m.classNamed? name = some c ∧ ∃ a ∈ c.annotations, a.typeName = next := by
  unfold markersOfType
  rcases m.classNamed? name with - | c
  · simp
  · simp [Element.markers]

/-- A way written out: the names it passes, numbered from its start. -/
theorem leads_iff_exists_chain {k : Nat} {name : String} :
    Leads m marker k name ↔
      ∃ n : Nat → String, n 0 = name
        ∧ (∀ i < k, n (i + 1) ∈ m.markersOfType (n i)) ∧ n k = marker := by
  constructor
  · intro h
    induction h with
    | here => exact ⟨fun _ => marker, rfl, by simp, rfl⟩
    | @step k name next hnext _ ih =>
      obtain ⟨n, hstart, hsteps, hend⟩ := ih
      -- the new name comes first, and all others move up by one
      refine ⟨fun i => i.casesOn name n, rfl, ?_, hend⟩
      intro i hi
      rcases i with - | i
      · show n 0 ∈ m.markersOfType name
        rw [hstart]
        exact hnext
      · exact hsteps i (Nat.lt_of_succ_lt_succ hi)
  · rintro ⟨n, hstart, hsteps, hend⟩
    induction k generalizing n name with
    | zero =>
      rw [← hstart, hend]
      exact .here
    | succ k ih =>
      have hfirst : n 1 ∈ m.markersOfType name := by
        rw [← hstart]
        exact hsteps 0 (Nat.succ_pos k)
      refine .step hfirst (ih (fun i => n (i + 1)) rfl ?_ hend)
      intro i hi
      exact hsteps (i + 1) (Nat.succ_lt_succ hi)

/-! ### Level by level -/

variable {visited frontier : List String}

/-- The names of a level that have not been followed before. -/
def freshNames (visited frontier : List String) : List String :=
  firstSeenBy (fun name => name) visited frontier

theorem mem_freshNames {name : String} :
    name ∈ freshNames visited frontier ↔ name ∈ frontier ∧ name ∉ visited :=
  mem_firstSeenBy_self

theorem freshNames_cons_of_mem {name : String} (h : name ∈ visited) :
    freshNames visited (name :: frontier) = freshNames visited frontier := by
  rw [freshNames, firstSeenBy, if_pos (List.contains_iff_mem.mpr h)]
  rfl

theorem freshNames_cons_of_not_mem {name : String} (h : name ∉ visited) :
    freshNames visited (name :: frontier)
      = name :: freshNames (name :: visited) frontier := by
  rw [freshNames, firstSeenBy, if_neg (mt List.contains_iff_mem.mp h)]
  rfl

/-- The names that have been followed after a level, the last one first. -/
def followed (visited frontier : List String) : List String :=
  (freshNames visited frontier).reverse ++ visited

theorem mem_followed {name : String} :
    name ∈ followed visited frontier ↔ name ∈ frontier ∨ name ∈ visited := by
  rw [followed, List.mem_append, List.mem_reverse, mem_freshNames]
  by_cases hvisited : name ∈ visited
  · simp [hvisited]
  · simp [hvisited]

theorem followed_cons_of_mem {name : String} (h : name ∈ visited) :
    followed visited (name :: frontier) = followed visited frontier := by
  rw [followed, freshNames_cons_of_mem h, followed]

theorem followed_cons_of_not_mem {name : String} (h : name ∉ visited) :
    followed visited (name :: frontier) = followed (name :: visited) frontier := by
  rw [followed, freshNames_cons_of_not_mem h, List.reverse_cons, List.append_assoc]
  rfl

/-- Whether `marker` is among the names in `frontier`, or can be reached from
them in at most `steps` steps.  The names in `visited` have been followed
before, with more steps left, and are not followed again. -/
def reachesMarker (m : CodeModel) (marker : String) :
    (steps : Nat) → (visited frontier : List String) → Bool
  | 0, _, frontier => frontier.contains marker
  | steps + 1, visited, frontier =>
    if frontier.contains marker then true
    else
      reachesMarker m marker steps (followed visited frontier)
        ((freshNames visited frontier).flatMap m.markersOfType)

theorem reachesMarker_of_mem {steps : Nat} (h : marker ∈ frontier) :
    m.reachesMarker marker steps visited frontier = true := by
  have hcontains : frontier.contains marker = true := List.contains_iff_mem.mpr h
  cases steps with
  | zero => exact hcontains
  | succ steps => rw [reachesMarker, if_pos hcontains]

theorem reachesMarker_succ {steps : Nat} (h : marker ∉ frontier) :
    m.reachesMarker marker (steps + 1) visited frontier
      = m.reachesMarker marker steps (followed visited frontier)
        ((freshNames visited frontier).flatMap m.markersOfType) := by
  rw [reachesMarker, if_neg (mt List.contains_iff_mem.mp h)]

theorem reachesMarker_congr {m' : CodeModel}
    (h : ∀ name, m.markersOfType name = m'.markersOfType name) (steps : Nat)
    (visited frontier : List String) :
    m.reachesMarker marker steps visited frontier
      = m'.reachesMarker marker steps visited frontier := by
  have hfun : m.markersOfType = m'.markersOfType := funext h
  induction steps generalizing visited frontier with
  | zero => rfl
  | succ steps ih => simp only [reachesMarker, ih, hfun]

/-! ### Working off the queue -/

section Queue

variable {queue : List (String × Nat)} {name : String} {depth : Nat}

theorem search_nil : m.search marker [] visited = false := by
  rw [search]

theorem search_found : m.search marker ((marker, depth) :: queue) visited = true := by
  rw [search, if_pos rfl]

theorem search_pass (hname : name ≠ marker)
    (hpass : maxMetaDepth ≤ depth ∨ name ∈ visited) :
    m.search marker ((name, depth) :: queue) visited = m.search marker queue visited := by
  rw [search, if_neg hname, if_pos hpass]

theorem search_follow (hname : name ≠ marker) (hdepth : depth < maxMetaDepth)
    (hnew : name ∉ visited) :
    m.search marker ((name, depth) :: queue) visited
      = m.search marker (queue ++ atDepth (depth + 1) (m.markersOfType name))
        (name :: visited) := by
  have hfollow : ¬ (maxMetaDepth ≤ depth ∨ name ∈ visited) :=
    not_or.mpr ⟨Nat.not_le_of_lt hdepth, hnew⟩
  rw [search, if_neg hname, if_neg hfollow]

/-- What is in the queue is looked at, whatever joins the queue before. -/
theorem search_of_mem (h : (marker, depth) ∈ queue) :
    m.search marker queue visited = true := by
  have hne : ∀ {name depth'}, name ≠ marker → (marker, depth) ≠ (name, depth') :=
    fun hname heq => hname (congrArg Prod.fst heq).symm
  fun_induction search m marker queue visited with
  | case1 visited => cases h
  | case2 visited depth queue => rfl
  | case3 visited name depth' queue hname hpass ih =>
    exact ih ((List.mem_cons.mp h).resolve_left (hne hname))
  | case4 visited name depth' queue hname hfollow ih =>
    exact ih (List.mem_append_left _ ((List.mem_cons.mp h).resolve_left (hne hname)))

theorem atDepth_append (depth : Nat) (names names' : List String) :
    atDepth depth names ++ atDepth depth names' = atDepth depth (names ++ names') :=
  List.map_append.symm

theorem mem_atDepth (h : name ∈ frontier) : (name, depth) ∈ atDepth depth frontier :=
  List.mem_map.mpr ⟨name, h, rfl⟩

/-- At the last level the search only looks. -/
theorem search_atDepth_max (names : List String) :
    m.search marker (atDepth maxMetaDepth names) visited = names.contains marker := by
  induction names with
  | nil => exact search_nil
  | cons name names ih =>
    by_cases hname : name = marker
    · subst hname
      rw [List.contains_cons, beq_self_eq_true, Bool.true_or]
      exact search_found
    · rw [List.contains_cons, beq_false_of_ne (Ne.symm hname), Bool.false_or, ← ih]
      exact search_pass hname (Or.inl (Nat.le_refl _))

/-- The queue holds what is left of one level and then what has come together of
the next.  Working off the level leaves the whole of the next. -/
theorem search_atDepth (hdepth : depth < maxMetaDepth) {names next : List String}
    (hmarker : marker ∉ names) :
    m.search marker (atDepth depth names ++ atDepth (depth + 1) next) visited
      = m.search marker
        (atDepth (depth + 1) (next ++ (freshNames visited names).flatMap m.markersOfType))
        (followed visited names) := by
  induction names generalizing next visited with
  | nil => simp [atDepth, followed, freshNames, firstSeenBy]
  | cons name names ih =>
    obtain ⟨hname, hnames⟩ := List.ne_and_not_mem_of_not_mem_cons hmarker
    by_cases hvisited : name ∈ visited
    · rw [followed_cons_of_mem hvisited, freshNames_cons_of_mem hvisited]
      exact (search_pass hname.symm (Or.inr hvisited)).trans (ih hnames)
    · -- the name's annotations join the next level at its end
      rw [followed_cons_of_not_mem hvisited, freshNames_cons_of_not_mem hvisited,
        List.flatMap_cons, ← List.append_assoc]
      refine Eq.trans ?_ (ih hnames)
      rw [← atDepth_append, ← List.append_assoc]
      exact search_follow hname.symm hdepth hvisited

/-- The search goes level by level. -/
theorem search_eq_reachesMarker {steps : Nat} (hsteps : depth + steps = maxMetaDepth) :
    m.search marker (atDepth depth frontier) visited
      = m.reachesMarker marker steps visited frontier := by
  induction steps generalizing depth visited frontier with
  | zero =>
    obtain rfl : depth = maxMetaDepth := hsteps
    exact search_atDepth_max frontier
  | succ steps ih =>
    by_cases hmarker : marker ∈ frontier
    · rw [reachesMarker_of_mem hmarker]
      exact search_of_mem (mem_atDepth hmarker)
    · have hlevel : m.search marker (atDepth depth frontier ++ atDepth (depth + 1) []) visited
          = _ := search_atDepth (show depth < maxMetaDepth by omega) hmarker
      rw [reachesMarker_succ hmarker, ← ih (show depth + 1 + steps = maxMetaDepth by omega)]
      simpa [atDepth] using hlevel

theorem isMetaAnnotatedWith_eq_reachesMarker (e : Element) :
    m.isMetaAnnotatedWith e marker = m.reachesMarker marker maxMetaDepth [] e.markers :=
  search_eq_reachesMarker (Nat.zero_add maxMetaDepth)

end Queue

/-! ### Following each name once -/

/-- The names in `visited` are done with: none is the marker, and each leads to
names that are done with too or are in `frontier`. -/
structure Explored (m : CodeModel) (marker : String)
    (visited frontier : List String) : Prop where
  ne_marker : ∀ name ∈ visited, name ≠ marker
  closed : ∀ name ∈ visited, ∀ next ∈ m.markersOfType name,
    next ∈ visited ∨ next ∈ frontier

/-- Every way from a followed name to the marker goes on through the frontier,
from where it is shorter. -/
theorem Leads.leave (h : m.Explored marker visited frontier) {k : Nat}
    {name : String} (hname : name ∈ visited) (hleads : m.Leads marker k name) :
    ∃ j < k, ∃ next ∈ frontier, m.Leads marker j next := by
  induction hleads with
  | here => exact absurd rfl (h.ne_marker marker hname)
  | @step k name next hnext hrest ih =>
    rcases h.closed name hname next hnext with hvisited | hfrontier
    · -- the way stays among the followed names for another step
      obtain ⟨j, hj, found⟩ := ih hvisited
      exact ⟨j, Nat.lt_succ_of_lt hj, found⟩
    · exact ⟨k, Nat.lt_succ_self k, next, hfrontier, hrest⟩

/-- A level without the marker may be followed. -/
theorem Explored.advance (h : m.Explored marker visited frontier)
    (hmarker : marker ∉ frontier) :
    m.Explored marker (followed visited frontier)
      ((freshNames visited frontier).flatMap m.markersOfType) where
  ne_marker := by
    intro name hname
    rcases mem_followed.mp hname with hfrontier | hvisited
    · rintro rfl
      exact hmarker hfrontier
    · exact h.ne_marker name hvisited
  closed := by
    intro name hname next hnext
    by_cases hvisited : name ∈ visited
    · -- what was next before is followed by now
      exact Or.inl (mem_followed.mpr (h.closed name hvisited next hnext).symm)
    · have hfrontier := (mem_followed.mp hname).resolve_right hvisited
      have hfresh := mem_freshNames.mpr ⟨hfrontier, hvisited⟩
      exact Or.inr (List.mem_flatMap.mpr ⟨name, hfresh, hnext⟩)

/-- The search finds the marker exactly if it is few enough steps away. -/
theorem reachesMarker_iff_leads {steps : Nat}
    (h : m.Explored marker visited frontier) :
    m.reachesMarker marker steps visited frontier = true ↔
      ∃ k ≤ steps, ∃ name ∈ frontier, m.Leads marker k name := by
  induction steps generalizing visited frontier with
  | zero =>
    rw [reachesMarker, List.contains_iff_mem]
    constructor
    · intro hmarker
      exact ⟨0, Nat.le_refl 0, marker, hmarker, .here⟩
    · rintro ⟨k, hk, name, hname, hleads⟩
      obtain rfl : k = 0 := Nat.le_zero.mp hk
      cases hleads
      exact hname
  | succ steps ih =>
    by_cases hmarker : marker ∈ frontier
    · rw [reachesMarker_of_mem hmarker, eq_self_iff_true, true_iff]
      exact ⟨0, Nat.zero_le _, marker, hmarker, .here⟩
    · have hnext := h.advance hmarker
      rw [reachesMarker_succ hmarker, ih hnext]
      constructor
      · rintro ⟨k, hk, next, hmem, hleads⟩
        obtain ⟨name, hfresh, hstep⟩ := List.mem_flatMap.mp hmem
        exact ⟨k + 1, Nat.succ_le_succ hk, name, (mem_freshNames.mp hfresh).1,
          .step hstep hleads⟩
      · rintro ⟨k, hk, name, hname, hleads⟩
        -- after this level the name is followed, so the way leaves through the next
        have hdone : name ∈ followed visited frontier := mem_followed.mpr (Or.inl hname)
        obtain ⟨j, hj, found⟩ := hleads.leave hnext hdone
        exact ⟨j, by omega, found⟩

theorem Explored.start (m : CodeModel) (marker : String) (frontier : List String) :
    m.Explored marker [] frontier :=
  ⟨by simp, by simp⟩

/-! ### The search as a whole -/

theorem isMetaAnnotatedWith_iff_leads {e : Element} :
    m.isMetaAnnotatedWith e marker = true ↔
      ∃ k ≤ maxMetaDepth, ∃ name ∈ e.markers, m.Leads marker k name := by
  rw [isMetaAnnotatedWith_eq_reachesMarker]
  exact reachesMarker_iff_leads (.start m marker e.markers)

/-- Nothing counts but the annotations on the element and on types. -/
theorem isMetaAnnotatedWith_congr {m' : CodeModel} {e e' : Element}
    (hmarkers : e.markers = e'.markers)
    (htypes : ∀ name, m.markersOfType name = m'.markersOfType name) :
    m.isMetaAnnotatedWith e marker = m'.isMetaAnnotatedWith e' marker := by
  rw [isMetaAnnotatedWith_eq_reachesMarker, isMetaAnnotatedWith_eq_reachesMarker, hmarkers]
  exact reachesMarker_congr htypes maxMetaDepth [] e'.markers

/-- **The search for meta-annotations is exact.**  In whatever model, an element
is found to be meta-annotated with a marker if and only if there is a chain of
at most seventeen names that starts with the type of an annotation on the
element, goes from each name to the type of an annotation on the type of that
name, and ends with the marker. -/
theorem isMetaAnnotatedWith_iff_chain (m : CodeModel) (e : Element)
    (marker : String) :
    m.isMetaAnnotatedWith e marker = true ↔
      ∃ (k : Nat) (n : Nat → String), k ≤ 16
        ∧ (∃ a ∈ e.annotations, a.typeName = n 0)
        ∧ (∀ i < k, ∃ c, m.classNamed? (n i) = some c
          ∧ ∃ a ∈ c.annotations, a.typeName = n (i + 1))
        ∧ n k = marker := by
  rw [isMetaAnnotatedWith_iff_leads]
  constructor
  · rintro ⟨k, hk, name, hname, hleads⟩
    obtain ⟨n, rfl, hsteps, hend⟩ := leads_iff_exists_chain.mp hleads
    refine ⟨k, n, hk, List.mem_map.mp hname, ?_, hend⟩
    intro i hi
    exact mem_markersOfType.mp (hsteps i hi)
  · rintro ⟨k, n, hk, hname, hsteps, hend⟩
    refine ⟨k, hk, n 0, List.mem_map.mpr hname, ?_⟩
    apply leads_iff_exists_chain.mpr
    exact ⟨n, rfl, fun i hi => mem_markersOfType.mpr (hsteps i hi), hend⟩

end CodeModel

end Conformance
