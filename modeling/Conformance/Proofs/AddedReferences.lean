/-
Conformance/Proofs/AddedReferences.lean

Adding references never hides a violation.

A code base grows more references: members make more accesses, types implement
more interfaces (`AddsReferences`).  New stubs come up, every later id moves,
and a type may be found to use another by an earlier dependency than before.
What is declared stays as it is, so nothing else changes than that uses are
added between the others.

To say so, uses are looked at in *outline*: without what their owners and
members refer to.  Complaints tell no more of a use than its outline, and in
outline the old uses are a sublist of the new (`uses_outline_sublist`).  Hence
each reading of a rule keeps its complaints, in their order
(`Rule.Keeps`); the two rules for JPA do not look at uses at all.
-/
import Mathlib.Data.List.Flatten
import Conformance.Proofs.Readings

namespace Conformance

/-! ### More references -/

/-- The same member with accesses added, anywhere among the others. -/
structure MemberDecl.AddsReferences (m m' : MemberDecl) : Prop where
  same : m' = { m with accesses := m'.accesses }
  accesses : m.accesses.Sublist m'.accesses

/-- The same type with accesses and interfaces added. -/
structure ClassDecl.AddsReferences (c c' : ClassDecl) : Prop where
  same : c' = { c with interfaces := c'.interfaces, members := c'.members }
  interfaces : c.interfaces.Sublist c'.interfaces
  members : List.Forall₂ MemberDecl.AddsReferences c.members c'.members

/-- The same declarations with accesses and interfaces added. -/
structure Blueprint.AddsReferences (p p' : Blueprint) : Prop where
  classes : List.Forall₂ ClassDecl.AddsReferences p.classes p'.classes
  lateMembers : List.Forall₂
    (fun om om' => om.1 = om'.1 ∧ om.2.AddsReferences om'.2)
    p.lateMembers p'.lateMembers

/-! ### Lists side by side -/

section SideBySide

variable {α β γ : Type} {R : α → β → Prop} {as : List α} {bs : List β}

theorem map_eq_of_forall₂ (h : List.Forall₂ R as bs) {f : α → γ} {g : β → γ}
    (hfg : ∀ a b, R a b → f a = g b) : as.map f = bs.map g := by
  induction h with
  | nil => rfl
  | cons hab _ ih => rw [List.map_cons, List.map_cons, hfg _ _ hab, ih]

/-- What relates empty lists, and appended lists if it relates the parts, relates
flattened lists. -/
theorem flatMap_of_forall₂ (h : List.Forall₂ R as bs)
    {S : List γ → List γ → Prop} (hnil : S [] [])
    (happend : ∀ ms ms' ns ns', S ms ms' → S ns ns' → S (ms ++ ns) (ms' ++ ns'))
    {f : α → List γ} {g : β → List γ} (hfg : ∀ a b, R a b → S (f a) (g b)) :
    S (as.flatMap f) (bs.flatMap g) := by
  induction h with
  | nil => exact hnil
  | cons hab _ ih =>
    rw [List.flatMap_cons, List.flatMap_cons]
    exact happend _ _ _ _ (hfg _ _ hab) ih

theorem flatMap_sublist_of_forall₂ (h : List.Forall₂ R as bs) {f : α → List γ}
    {g : β → List γ} (hfg : ∀ a b, R a b → (f a).Sublist (g b)) :
    (as.flatMap f).Sublist (bs.flatMap g) :=
  flatMap_of_forall₂ h .slnil (fun _ _ _ _ => List.Sublist.append) hfg

theorem filter_map_sublist_of_forall₂ (h : List.Forall₂ R as bs) {p : α → Bool}
    {q : β → Bool} {f : α → γ} {g : β → γ}
    (hpq : ∀ a b, R a b → p a = true → q b = true)
    (hfg : ∀ a b, R a b → f a = g b) :
    ((as.filter p).map f).Sublist ((bs.filter q).map g) := by
  induction h with
  | nil => exact .slnil
  | @cons a b as bs hab _ ih =>
    by_cases ha : p a = true
    · rw [List.filter_cons_of_pos ha, List.filter_cons_of_pos (hpq a b hab ha),
        List.map_cons, List.map_cons, hfg a b hab]
      exact ih.cons_cons _
    · rw [List.filter_cons_of_neg ha, List.filter_cons]
      split
      · exact ih.cons _
      · exact ih

end SideBySide

/-! ### What stays the same -/

namespace ClassDecl.AddsReferences

variable {c c' : ClassDecl}

theorem name_eq (h : c.AddsReferences c') : c.name = c'.name := by
  rw [h.same]

theorem annotations_eq (h : c.AddsReferences c') :
    c.annotations = c'.annotations := by
  rw [h.same]

/-- What a member is declared as does not depend on its accesses. -/
theorem map_members (h : c.AddsReferences c') {γ : Type} {f : MemberDecl → γ}
    (hf : ∀ m accesses, f { m with accesses } = f m) :
    c.members.map f = c'.members.map f := by
  refine map_eq_of_forall₂ h.members fun m m' hm => ?_
  exact (hf m m'.accesses).symm.trans (congrArg f hm.same.symm)

theorem implicitConstructor?_eq (h : c.AddsReferences c') :
    c.implicitConstructor? = c'.implicitConstructor? := by
  -- whether a constructor is declared shows in the kinds of the members
  have hany : ∀ c : ClassDecl, c.declaresConstructor
      = (c.members.map (·.kind)).any (· == .constructor) := by
    intro c
    rw [List.any_map]
    rfl
  have hdeclares : c.declaresConstructor = c'.declaresConstructor := by
    rw [hany, hany, h.map_members fun _ _ => rfl]
  have hflavor : c.flavor = c'.flavor := by rw [h.same]
  have hvisibility : c.visibility = c'.visibility := by rw [h.same]
  rw [implicitConstructor?, implicitConstructor?, hdeclares, hflavor, hvisibility]

theorem allMembers (h : c.AddsReferences c') :
    List.Forall₂ MemberDecl.AddsReferences c.allMembers c'.allMembers := by
  rw [ClassDecl.allMembers, ClassDecl.allMembers, ← h.implicitConstructor?_eq]
  refine List.rel_append h.members ?_
  exact List.forall₂_same.mpr fun m _ => ⟨rfl, .refl _⟩

theorem membersValid (h : c.AddsReferences c') (hc : c.MembersValid) :
    c'.MembersValid where
  named := by
    intro m' hm'
    obtain ⟨m, hm, hmm'⟩ := exists_rel_of_mem h.members hm'
    rw [hmm'.same]
    exact hc.named m hm
  nodup := by
    rw [← h.name_eq, ← h.map_members fun _ _ => rfl]
    exact hc.nodup

end ClassDecl.AddsReferences

namespace Blueprint.AddsReferences

variable {p p' : Blueprint}

theorem names_eq (h : p.AddsReferences p') :
    p.classes.map (·.name) = p'.classes.map (·.name) :=
  map_eq_of_forall₂ h.classes fun _ _ hc => hc.name_eq

theorem lateMembersOf (h : p.AddsReferences p') (name : String) :
    List.Forall₂ MemberDecl.AddsReferences
      (Conformance.lateMembersOf p.lateMembers name)
      (Conformance.lateMembersOf p'.lateMembers name) := by
  refine List.rel_map ?_ (forall₂_filter h.lateMembers ?_)
  · exact fun _ _ hom => hom.2
  · rintro om om' ⟨howner, -⟩
    rw [howner]

/-- The types with all their members gain references likewise. -/
theorem declarations (h : p.AddsReferences p') :
    List.Forall₂ ClassDecl.AddsReferences p.declarations p'.declarations := by
  refine List.rel_map ?_ h.classes
  intro c c' hc
  have hlate := h.lateMembersOf c.name
  refine ⟨?_, hc.interfaces, ?_⟩
  · show { c' with members := _ } = ({ c with interfaces := _, members := _ } : ClassDecl)
    rw [hc.same]
    rfl
  · show List.Forall₂ _ (c.members ++ _) (c'.members ++ _)
    rw [← hc.name_eq]
    exact List.rel_append hc.members hlate

theorem valid (h : p.AddsReferences p') (hp : p.Valid) : p'.Valid where
  owners := by
    intro om' hom'
    obtain ⟨om, hom, howner, -⟩ := exists_rel_of_mem h.lateMembers hom'
    rw [← howner, ← h.names_eq]
    exact hp.owners om hom
  named := by
    intro c' hc'
    obtain ⟨c, hc, hcc'⟩ := exists_rel_of_mem h.classes hc'
    rw [← hcc'.name_eq]
    exact hp.named c hc
  nodup := by
    rw [← h.names_eq]
    exact hp.nodup
  members := by
    intro c' hc'
    obtain ⟨c, hc, hcc'⟩ := exists_rel_of_mem h.declarations hc'
    exact hcc'.membersValid (hp.members c hc)

end Blueprint.AddsReferences

/-! ### Uses in outline -/

/-- A type without its interfaces and members. -/
def ClassDecl.outline (c : ClassDecl) : ClassDecl :=
  { c with interfaces := [], members := [] }

/-- A use without what else its owner and member use. -/
def Use.outline (u : Use) : Use :=
  { u with owner := u.owner.outline, member := u.member.map (·.outline) }

theorem ClassDecl.AddsReferences.outline_eq {c c' : ClassDecl}
    (h : c.AddsReferences c') : c.outline = c'.outline := by
  rw [h.same]
  rfl

theorem MemberDecl.AddsReferences.outline_eq {m m' : MemberDecl}
    (h : m.AddsReferences m') : m.outline = m'.outline := by
  rw [h.same]
  rfl

theorem map_outline_typeUses (c : ClassDecl) (m : Option MemberDecl)
    (kind : DependencyKind) (name : String) :
    (typeUses c m kind name).map (·.outline)
      = typeUses c.outline (m.map (·.outline)) kind name := by
  unfold typeUses
  split <;> rfl

theorem map_outline_memberUses (c : ClassDecl) (m : MemberDecl) :
    (m.uses c).map (·.outline)
      = m.outline.uses c.outline ++ (match m.head with
        | .field _ _ => []
        | _ => m.accesses.map (accessUse c.outline (some m.outline))) := by
  have haccess : ∀ a, (accessUse c (some m) a).outline
      = accessUse c.outline (some m.outline) a := fun _ => rfl
  rcases hm : m.head with _ | _ | _ <;>
    simp [hm, haccess, MemberDecl.uses, MemberDecl.outline, List.map_flatMap,
      map_outline_typeUses, Function.comp_def]

theorem map_outline_uses (c : ClassDecl) :
    c.uses.map (·.outline)
      = c.outline.uses ++ c.interfaces.flatMap (typeUses c.outline none .implementing)
        ++ c.members.flatMap fun m => (m.uses c).map (·.outline) := by
  simp [ClassDecl.uses, ClassDecl.outline, List.map_flatMap, map_outline_typeUses]

theorem memberUses_outline_sublist {c c' : ClassDecl} {m m' : MemberDecl}
    (hc : c.AddsReferences c') (hm : m.AddsReferences m') :
    ((m.uses c).map (·.outline)).Sublist ((m'.uses c').map (·.outline)) := by
  have hhead : m.head = m'.head := by rw [hm.same]
  rw [map_outline_memberUses, map_outline_memberUses, ← hc.outline_eq,
    ← hm.outline_eq, ← hhead]
  -- all but the accesses, which come last, is as it was
  refine (List.Sublist.refl _).append ?_
  split
  · exact .slnil
  · exact hm.accesses.map _

/-- In outline, the uses of a type are a sublist of those it has with references
added. -/
theorem uses_outline_sublist {c c' : ClassDecl} (h : c.AddsReferences c') :
    (c.uses.map (·.outline)).Sublist (c'.uses.map (·.outline)) := by
  rw [map_outline_uses, map_outline_uses, ← h.outline_eq]
  refine ((List.Sublist.refl _).append ?_).append ?_
  · exact h.interfaces.flatMap _
  · exact flatMap_sublist_of_forall₂ h.members fun m m' hm =>
      memberUses_outline_sublist h hm

/-- What is told of uses by their outlines stays, in order. -/
theorem filter_map_sublist_of_outline {us us' : List Use}
    (h : (us.map (·.outline)).Sublist (us'.map (·.outline))) {p : Use → Bool}
    {f : Use → String} (hp : ∀ u, p u.outline = p u)
    (hf : ∀ u, f u.outline = f u) :
    ((us.filter p).map f).Sublist ((us'.filter p).map f) := by
  have hout : ∀ us : List Use,
      ((us.map (·.outline)).filter p).map f = (us.filter p).map f := by
    intro us
    rw [List.filter_map, List.map_map]
    simp only [Function.comp_def, hp, hf]
  rw [← hout us, ← hout us']
  exact (h.filter p).map f

theorem Use.originKind_outline (u : Use) : u.outline.originKind = u.originKind := by
  unfold originKind outline
  cases u.member <;> rfl

theorem Use.originName_outline (u : Use) : u.outline.originName = u.originName := by
  unfold originName outline
  cases u.member <;> rfl

theorem Use.describe_outline (u : Use) : u.outline.describe = u.describe := by
  unfold describe
  rw [originKind_outline, originName_outline]
  rfl

theorem Use.protest_outline (marker : String) (u : Use) :
    u.outline.protest marker = u.protest marker := by
  unfold protest
  rw [originName_outline]
  rfl

theorem Use.isUnprotected_outline (marker name : String) (u : Use) :
    u.outline.isUnprotected marker name = u.isUnprotected marker name := by
  unfold isUnprotected outline
  cases u.member <;> rfl

/-! ### Readings with references added -/

section Readings

variable {c c' : ClassDecl} {cs cs' : List ClassDecl}

theorem forbiddenUses_sublist (h : c.AddsReferences c')
    (forbidden : String → Bool) :
    (forbiddenUses forbidden c).Sublist (forbiddenUses forbidden c') := by
  unfold forbiddenUses
  rw [List.filter_filter, List.filter_filter]
  exact filter_map_sublist_of_outline (uses_outline_sublist h) (fun _ => rfl)
    Use.describe_outline

theorem unprotectedCalls_sublist
    (h : List.Forall₂ ClassDecl.AddsReferences cs cs') (hc : c.AddsReferences c')
    (marker : String) :
    (unprotectedCalls marker cs c).Sublist (unprotectedCalls marker cs' c') := by
  have huses : ((cs.flatMap (·.uses)).map (·.outline)).Sublist
      ((cs'.flatMap (·.uses)).map (·.outline)) := by
    rw [List.map_flatMap, List.map_flatMap]
    exact flatMap_sublist_of_forall₂ h fun _ _ => uses_outline_sublist
  unfold unprotectedCalls usesOf
  rw [← hc.name_eq, List.filter_filter, List.filter_filter, List.filter_filter,
    List.filter_filter]
  refine filter_map_sublist_of_outline huses (fun u => ?_) (Use.protest_outline marker)
  rw [Use.isUnprotected_outline]
  rfl

/-- A type that uses another still does. -/
theorem any_uses_of_addsReferences (h : c.AddsReferences c') {p : Use → Bool}
    (hp : ∀ u, p u.outline = p u) (hany : c.uses.any p = true) :
    c'.uses.any p = true := by
  have hout : ∀ us : List Use, (us.map (·.outline)).any p = us.any p := by
    intro us
    rw [List.any_map]
    simp only [Function.comp_def, hp]
  rw [← hout, List.any_eq_true] at hany ⊢
  obtain ⟨u, hu, hpu⟩ := hany
  exact ⟨u, (uses_outline_sublist h).subset hu, hpu⟩

/-- Annotations on annotations are no references that could be added. -/
theorem isMetaAnnotatedWith_addsReferences
    (h : List.Forall₂ ClassDecl.AddsReferences cs cs')
    (hnd : (cs.map (·.name)).Nodup) (hc : c.AddsReferences c') :
    c.isMetaAnnotatedWith cs = c'.isMetaAnnotatedWith cs' := by
  have hnames : cs.map (·.name) = cs'.map (·.name) :=
    map_eq_of_forall₂ h fun _ _ hc => hc.name_eq
  have hmarkers : (Element.ofClass 0 c).markers = (Element.ofClass 0 c').markers := by
    show c.annotations.map (·.typeName) = c'.annotations.map (·.typeName)
    rw [hc.annotations_eq]
  funext marker
  refine CodeModel.isMetaAnnotatedWith_congr hmarkers ?_
  refine markersOfType_annotationModel_congr hnd (hnames ▸ hnd) ?_ ?_
  · intro c hc
    obtain ⟨c', hc', hcc'⟩ := exists_rel_of_mem h.flip hc
    exact ⟨c', hc', hcc'.name_eq.symm, hcc'.annotations_eq.symm⟩
  · intro c' hc'
    obtain ⟨c, hc, hcc'⟩ := exists_rel_of_mem h hc'
    exact ⟨c, hc, hcc'.name_eq⟩

theorem unmarkedUsers_sublist
    (h : List.Forall₂ ClassDecl.AddsReferences cs cs')
    (hnd : (cs.map (·.name)).Nodup) (hc : c.AddsReferences c')
    (markers : List String) (complaint : String) :
    (unmarkedUsers markers complaint cs c).Sublist
      (unmarkedUsers markers complaint cs' c') := by
  unfold unmarkedUsers usersOf
  rw [List.filter_filter, List.filter_filter, ← hc.name_eq]
  refine filter_map_sublist_of_forall₂ h (fun user user' huser hkept => ?_) ?_
  · -- a user stays one and is marked as before
    rw [Bool.and_eq_true] at hkept ⊢
    rw [← isMetaAnnotatedWith_addsReferences h hnd huser]
    exact ⟨hkept.1, any_uses_of_addsReferences huser (fun _ => rfl) hkept.2⟩
  · intro user user' huser
    rw [huser.name_eq]

theorem missingConstructor_eq (h : c.AddsReferences c') :
    missingConstructor c = missingConstructor c' := by
  have hout : ∀ c : ClassDecl, (c.allMembers.find? (·.isEmptyConstructor)).any
        (·.visibility == .public)
      = ((c.allMembers.map (·.outline)).find? (·.isEmptyConstructor)).any
        (·.visibility == .public) := by
    intro c
    rw [List.find?_map, Option.any_map]
    rfl
  have hmembers : c.allMembers.map (·.outline) = c'.allMembers.map (·.outline) :=
    map_eq_of_forall₂ h.allMembers fun _ _ hm => hm.outline_eq
  unfold missingConstructor
  rw [hout, hout, hmembers, h.name_eq]

theorem declaredMethods_addsReferences
    (h : List.Forall₂ ClassDecl.AddsReferences cs cs') :
    List.Forall₂ (fun m m' => m.1 = m'.1 ∧ m.2.AddsReferences m'.2)
      (declaredMethods cs) (declaredMethods cs') := by
  refine List.rel_flatMap h ?_
  intro c c' hc
  refine List.rel_map ?_ (forall₂_filter hc.allMembers ?_)
  · exact fun m m' hm => ⟨hc.name_eq, hm⟩
  · intro m m' hm
    rw [hm.same]
    rfl

end Readings

/-! ### Rules with references added -/

namespace Rule

/-- With references added, the rule has corresponding subjects, and what it
complains of them is related by `R`. -/
def Keeps (R : List String → List String → Prop) (r : Rule) : Prop :=
  ∃ (σ : Type) (subjects : List ClassDecl → List σ)
    (complaints : List ClassDecl → σ → List String) (G : σ → σ → Prop),
    r.Reads subjects complaints ∧ ∀ cs cs',
      List.Forall₂ ClassDecl.AddsReferences cs cs' → (cs.map (·.name)).Nodup →
        List.Forall₂ G (subjects cs) (subjects cs')
        ∧ ∀ s s', G s s' → R (complaints cs s) (complaints cs' s')

variable {r : Rule} {R R' : List String → List String → Prop}

theorem Keeps.mono (h : r.Keeps R) (hR : ∀ ms ms', R ms ms' → R' ms ms') :
    r.Keeps R' := by
  obtain ⟨σ, subjects, complaints, G, hreads, hkeeps⟩ := h
  refine ⟨σ, subjects, complaints, G, hreads, fun cs cs' hcs hnd => ?_⟩
  obtain ⟨hG, hcomplaints⟩ := hkeeps cs cs' hcs hnd
  exact ⟨hG, fun s s' hs => hR _ _ (hcomplaints s s' hs)⟩

/-- A rule on types keeps what its condition keeps. -/
theorem keeps_of_filter {selected : ClassDecl → Bool}
    {complaints : List ClassDecl → ClassDecl → List String}
    (hr : r.Reads (·.filter selected) complaints)
    (hsel : ∀ c c', c.AddsReferences c' → selected c = selected c')
    (h : ∀ cs cs', List.Forall₂ ClassDecl.AddsReferences cs cs' →
      (cs.map (·.name)).Nodup → ∀ c c', c.AddsReferences c' →
        R (complaints cs c) (complaints cs' c')) : r.Keeps R := by
  refine ⟨_, _, _, ClassDecl.AddsReferences, hr, fun cs cs' hcs hnd => ⟨?_, ?_⟩⟩
  · exact forall₂_filter hcs hsel
  · exact h cs cs' hcs hnd

/-- Compared with a code base that shows more references, the rule selects nothing
in both, or as much, and what it complains of is related. -/
theorem Keeps.compare (h : r.Keeps R) (hnil : R [] [])
    (happend : ∀ ms ms' ns ns', R ms ms' → R ns ns' → R (ms ++ ns) (ms' ++ ns'))
    {b b' : CodeBase} {cs cs' : List ClassDecl} (hb : b.Depicts cs)
    (hb' : b'.Depicts cs') (hcs : List.Forall₂ ClassDecl.AddsReferences cs cs')
    (config : Config) :
    (r.evaluate b.model config
        = .error (.emptySelection r.description r.scope.noun)
      ∧ r.evaluate b'.model config
        = .error (.emptySelection r.description r.scope.noun))
    ∨ ∃ v v', r.evaluate b.model config = .ok v
      ∧ r.evaluate b'.model config = .ok v' ∧ v.checked = v'.checked
      ∧ R (v.violations.map (·.message)) (v'.violations.map (·.message)) := by
  obtain ⟨σ, subjects, complaints, G, hreads, hkeeps⟩ := h
  obtain ⟨hG, hcomplaints⟩ := hkeeps cs cs' hcs hb.nodup
  rcases hreads.compare hb hb' hG.length_eq config
    with hempty | ⟨v, v', hv, hv', hchecked, hmessages, hmessages'⟩
  · exact Or.inl hempty
  · refine Or.inr ⟨v, v', hv, hv', hchecked, ?_⟩
    rw [hmessages, hmessages']
    exact flatMap_of_forall₂ hG hnil happend hcomplaints

end Rule

namespace Catalog

theorem isAnnotatedWith_addsReferences (marker : String) (c c' : ClassDecl)
    (h : c.AddsReferences c') :
    c.isAnnotatedWith marker = c'.isAnnotatedWith marker := by
  unfold ClassDecl.isAnnotatedWith
  rw [h.annotations_eq]

/-- The rules for JPA do not look at references. -/
theorem keeps_of_mem_jpaRules : ∀ r ∈ jpaRules, r.Keeps Eq := by
  intro r hr
  rw [jpaRules, List.mem_cons, List.mem_singleton] at hr
  rcases hr with rfl | rfl
  · exact Rule.keeps_of_filter reads_entitiesHavePublicEmptyConstructor
      (isAnnotatedWith_addsReferences _) fun _ _ _ _ _ _ hc => missingConstructor_eq hc
  · refine ⟨_, _, _, fun m m' => m.1 = m'.1 ∧ m.2.AddsReferences m'.2,
      reads_lifeCycleCallbacksCorrectlyDeclared, fun cs cs' hcs _ => ⟨?_, ?_⟩⟩
    · refine forall₂_filter (declaredMethods_addsReferences hcs) ?_
      rintro m m' ⟨-, hm⟩
      rw [hm.same]
      rfl
    · rintro ⟨name, m⟩ ⟨name', m'⟩ ⟨hname, hm⟩
      obtain rfl : name = name' := hname
      show callbackFaults (name, m) = callbackFaults (name, m')
      rw [show m' = _ from hm.same]
      rfl

/-- No rule of the catalog drops a complaint. -/
theorem keeps_of_mem_allRules : ∀ r ∈ allRules, r.Keeps List.Sublist := by
  have hjpa : ∀ r ∈ jpaRules, r.Keeps List.Sublist := by
    intro r hr
    refine (keeps_of_mem_jpaRules r hr).mono ?_
    rintro ms _ rfl
    exact .refl ms
  refine forall_allRules.mpr
    ⟨?_, ?_, hjpa _ List.mem_cons_self, hjpa _ (List.mem_cons_of_mem _ List.mem_cons_self),
      ?_, ?_, ?_⟩
  · exact Rule.keeps_of_filter reads_noJUnit4 (fun _ _ _ => rfl)
      fun _ _ _ _ _ _ hc => forbiddenUses_sublist hc _
  · exact Rule.keeps_of_filter reads_noJavaUtilDate (fun _ _ _ => rfl)
      fun _ _ _ _ _ _ hc => forbiddenUses_sublist hc _
  · exact Rule.keeps_of_filter reads_repositoriesAccessedByTransactionalCode
      (isAnnotatedWith_addsReferences _)
      fun _ _ hcs _ _ _ hc => unprotectedCalls_sublist hcs hc _
  · exact Rule.keeps_of_filter reads_repositoriesAccessedByServices
      (isAnnotatedWith_addsReferences _)
      fun _ _ hcs hnd _ _ hc => unmarkedUsers_sublist hcs hnd hc _ _
  · exact Rule.keeps_of_filter reads_repositoriesAccessedByServicesOrControllers
      (isAnnotatedWith_addsReferences _)
      fun _ _ hcs hnd _ _ hc => unmarkedUsers_sublist hcs hnd hc _ _

end Catalog

/-! ### Verdicts -/

namespace Blueprint

/-- **Adding references never hides a violation.**  Declarations that build a
code base still do with accesses and interfaces added, and no rule of the catalog
drops a complaint: either way it selects nothing and says so, or it selects as
many elements and complains of what it complained of before, in that order, and
perhaps of more in between.  The two rules for JPA complain of the same. -/
theorem verdicts_addsReferences {p p' : Blueprint} {b : CodeBase}
    (h : p.AddsReferences p') (hb : p.build = .ok b) :
    ∃ b', p'.build = .ok b'
      ∧ (∀ r ∈ Catalog.allRules, ∀ config : Config,
        (r.evaluate b.model config
            = .error (.emptySelection r.description r.scope.noun)
          ∧ r.evaluate b'.model config
            = .error (.emptySelection r.description r.scope.noun))
        ∨ ∃ v v', r.evaluate b.model config = .ok v
          ∧ r.evaluate b'.model config = .ok v' ∧ v.checked = v'.checked
          ∧ (v.violations.map (·.message)).Sublist
            (v'.violations.map (·.message)))
      ∧ ∀ r ∈ Catalog.jpaRules, ∀ (config : Config) v v',
        r.evaluate b.model config = .ok v → r.evaluate b'.model config = .ok v' →
          v.violations.map (·.message) = v'.violations.map (·.message) := by
  have hvalid := h.valid (build_eq_ok_iff.mp hb).1
  obtain ⟨b', hb'⟩ : ∃ b', p'.build = .ok b' :=
    ⟨_, build_eq_ok_iff.mpr ⟨hvalid, rfl⟩⟩
  have hdepicts := depicts_build hb
  have hdepicts' := depicts_build hb'
  refine ⟨b', hb', ?_, ?_⟩
  · intro r hr config
    exact (Catalog.keeps_of_mem_allRules r hr).compare .slnil
      (fun _ _ _ _ => List.Sublist.append) hdepicts hdepicts' h.declarations config
  · intro r hr config v v' hv hv'
    rcases (Catalog.keeps_of_mem_jpaRules r hr).compare rfl
        (fun _ _ _ _ hms hns => congrArg₂ (· ++ ·) hms hns) hdepicts hdepicts'
        h.declarations config
      with ⟨hempty, -⟩ | ⟨w, w', hw, hw', -, hmessages⟩
    · -- there is a verdict, so something was selected
      rw [hv] at hempty
      cases hempty
    · obtain rfl := Except.ok.inj (hv.symm.trans hw)
      obtain rfl := Except.ok.inj (hv'.symm.trans hw')
      exact hmessages

/-- A depot and a clerk who uses it; the clerk's second method is given
apart. -/
def depot : Blueprint where
  classes :=
    [{ name := "a.Depot", annotations := [{ typeName := Catalog.repository }] },
      { name := "a.Clerk"
        members :=
          [{ head := .method "fetch"
             accesses := [{ owner := "a.Depot", target := .method "load" [] }] }] }]
  lateMembers := [("a.Clerk", { head := .method "rest" })]

/-- The depot implements an interface, the clerk builds the depot before using
it, and works even when at rest. -/
def busyDepot : Blueprint where
  classes :=
    [{ name := "a.Depot", annotations := [{ typeName := Catalog.repository }]
       interfaces := ["a.Closeable"] },
      { name := "a.Clerk"
        members :=
          [{ head := .method "fetch"
             accesses :=
              [{ owner := "a.Depot", target := .constructor [] },
                { owner := "a.Depot", target := .method "load" [] }] }] }]
  lateMembers :=
    [("a.Clerk",
      { head := .method "rest"
        accesses := [{ owner := "a.Depot", target := .method "load" [] }] })]

/-- The busy clerk's accesses are complained of besides the one there was. -/
theorem depot_verdicts_addsReferences :
    depot.AddsReferences busyDepot ∧ ∃ b b', depot.build = .ok b
      ∧ busyDepot.build = .ok b'
      ∧ ∃ v v', Catalog.repositoriesAccessedByTransactionalCode.evaluate b.model {}
          = .ok v
        ∧ Catalog.repositoriesAccessedByTransactionalCode.evaluate b'.model {}
          = .ok v'
        ∧ v.violationCount = 1 ∧ v'.violationCount = 3
        ∧ (v.violations.map (·.message)).Sublist
          (v'.violations.map (·.message)) := by
  have hadds : depot.AddsReferences busyDepot := by
    refine ⟨.cons ⟨rfl, by decide, .nil⟩ (.cons ⟨rfl, by decide, ?_⟩ .nil), ?_⟩
    · exact .cons ⟨rfl, by decide⟩ .nil
    · exact .cons ⟨rfl, rfl, by decide⟩ .nil
  obtain ⟨b', hb', hverdicts, -⟩ := verdicts_addsReferences hadds rfl
  cases hb'
  refine ⟨hadds, _, _, rfl, rfl, _, _, rfl, rfl, rfl, rfl, ?_⟩
  rcases hverdicts Catalog.repositoriesAccessedByTransactionalCode
      (by simp [Catalog.allRules, Catalog.springRules]) {}
    with ⟨hempty, -⟩ | ⟨v, v', hv, hv', -, hmessages⟩
  · cases hempty
  · cases hv
    cases hv'
    exact hmessages

end Blueprint

end Conformance
