import AgentPipeline.Proofs.Job.Search

/-!
# Orders of a job graph

An **order** of a job graph lists each job once, behind all jobs that it needs. A graph has
an order exactly if all needed jobs exist and no job comes after itself, and then the search
finds one (`order_eq_ok`, `exists_order`). The check behind the search lets nothing else
pass, and so a graph is valid exactly if it is closed and acyclic and each job needs the jobs
that its expressions refer to (`validate_eq_ok_iff`).

An order carries inductions along the needs (`IsOrder.induction`). In particular each job of
a valid graph comes after one that needs nothing (`exists_reaches`).
-/

namespace AgentPipeline

/-- The job needs the jobs that its expressions refer to. -/
def Job.Covered (job : Job) : Prop :=
  ∀ expression ∈ job.expressions,
    ∀ name ∈ (Reference.needsReferences expression).toList, name ∈ job.needs

/-- A job without expressions refers to nothing. -/
theorem Job.covered_of_expressions {job : Job} (h : job.expressions = []) : job.Covered := by
  rw [Covered, h]
  exact List.forall_mem_nil _

namespace JobGraph

open Relation (TransGen ReflTransGen)

variable {g : JobGraph} {names : List String}

/-- **An order of the jobs** lists each job once, behind the jobs that it needs. -/
structure IsOrder (g : JobGraph) (names : List String) : Prop where
  perm : names.Perm g.names
  behind : ∀ before name after, names = before ++ name :: after →
    ∀ need, g.Needs name need → need ∈ before

/-- Each job needs the jobs that its expressions refer to. -/
def Covered (g : JobGraph) : Prop := ∀ job ∈ g.members, job.Covered

namespace IsOrder

/-- What is handed on from the needed jobs to each job holds for all jobs. -/
theorem induction {P : String → Prop} (h : g.IsOrder names)
    (step : ∀ name ∈ g.names, (∀ need, g.Needs name need → P need) → P name) :
    ∀ name ∈ g.names, P name := by
  suffices hprefix : ∀ before after, names = before ++ after → ∀ name ∈ before, P name from
    fun name hname => hprefix names [] (List.append_nil names).symm name
      (h.perm.mem_iff.mpr hname)
  intro before
  induction before using List.reverseRecOn with
  | nil => simp
  | append_singleton before x ih =>
      intro after hsplit
      rw [List.append_assoc] at hsplit
      have hbefore : ∀ name ∈ before, P name := ih _ hsplit
      have hx : P x := by
        refine step x (h.perm.mem_iff.mp (hsplit ▸ by simp)) fun need hneed => ?_
        exact hbefore need (h.behind before x after hsplit need hneed)
      intro name hname
      rcases List.mem_append.mp hname with hname | hname
      · exact hbefore name hname
      · exact List.mem_singleton.mp hname ▸ hx

/-- A graph with an order is closed, as what is needed stands in the order. -/
theorem closed (h : g.IsOrder names) : g.Closed := by
  intro name need hneeds
  obtain ⟨before, after, hsplit⟩ :=
    List.append_of_mem (h.perm.mem_iff.mpr hneeds.mem_names)
  have hbefore : need ∈ before := h.behind before name after hsplit need hneeds
  exact h.perm.mem_iff.mp (hsplit ▸ List.mem_append_left _ hbefore)

/-- A cycle through a job would be one through a job that it needs, in front of it. -/
theorem acyclic (h : g.IsOrder names) : g.Acyclic := by
  intro name hcycle
  have hno : ∀ name ∈ g.names, ¬TransGen g.Needs name name := by
    refine h.induction fun name _ ih hcycle => ?_
    obtain ⟨need, hneeds, hback⟩ := TransGen.head'_iff.mp hcycle
    exact ih need hneeds (TransGen.tail' hback hneeds)
  obtain ⟨need, hneeds, -⟩ := TransGen.head'_iff.mp hcycle
  exact hno name hneeds.mem_names hcycle

/-- Each job comes after one that needs nothing, or is such a job itself. -/
theorem exists_reaches (h : g.IsOrder names) :
    ∀ name ∈ g.names,
      ∃ root ∈ g.members, root.needs = [] ∧ ReflTransGen g.Needs name root.name := by
  refine h.induction fun name hname ih => ?_
  obtain ⟨job, hjob, rfl⟩ := mem_names.mp hname
  cases hneeds : job.needs with
  | nil => exact ⟨job, hjob, hneeds, .refl⟩
  | cons need rest =>
      have hedge : g.Needs job.name need :=
        needs_iff.mpr ⟨job, hjob, rfl, hneeds ▸ List.mem_cons_self⟩
      obtain ⟨root, hroot, hnone, hreach⟩ := ih need hedge
      exact ⟨root, hroot, hnone, .head hedge hreach⟩

/-- If only one job needs nothing, then all others come after it. -/
theorem transGen_root {root : Job} (h : g.IsOrder names)
    (hroot : ∀ job ∈ g.members, job.needs = [] → job = root) :
    ∀ job ∈ g.members, job ≠ root → TransGen g.Needs job.name root.name := by
  intro job hjob hne
  obtain ⟨start, hstart, hnone, hreach⟩ :=
    h.exists_reaches job.name (mem_names.mpr ⟨job, hjob, rfl⟩)
  obtain rfl : start = root := hroot start hstart hnone
  rcases Relation.reflTransGen_iff_eq_or_transGen.mp hreach with heq | htrans
  · have hsame : some start = some job :=
      (mem_members.mp hstart).symm.trans (heq ▸ mem_members.mp hjob)
    exact absurd (Option.some.inj hsame).symm hne
  · exact htrans

end IsOrder

/-- A graph is acyclic if its jobs can be numbered so that each job needs smaller ones. -/
theorem acyclic_of_rank (rank : String → Nat)
    (h : ∀ name need, g.Needs name need → rank need < rank name) : g.Acyclic := by
  have hlt : ∀ name need, TransGen g.Needs name need → rank need < rank name := by
    intro name need htrans
    induction htrans with
    | single hneeds => exact h _ _ hneeds
    | tail _ hneeds ih => exact (h _ _ hneeds).trans ih
  exact fun name hcycle => (hlt name name hcycle).false

/-! ### The checks -/

/-- The check of the needs lets closed graphs pass. -/
theorem checkNeeds_eq_ok_iff : g.checkNeeds = .ok () ↔ g.Closed := by
  have hjobs : g.checkNeeds = .ok () ↔
      ∀ job ∈ g.members, ∀ need ∈ job.needs, need ∈ g.names := by
    refine forM_eq_ok_iff.trans (forall₂_congr fun job _ => ?_)
    split
    · next need hfind =>
      have hmem : need ∈ job.needs := List.mem_of_find?_eq_some hfind
      have hunknown : ¬g.has need = true := by simpa using List.find?_some hfind
      exact iff_of_false nofun fun h => hunknown (has_iff_mem_names.mpr (h need hmem))
    · next hfind =>
      refine iff_of_true rfl fun need hmem => has_iff_mem_names.mp ?_
      simpa using List.find?_eq_none.mp hfind need hmem
  rw [hjobs]
  constructor
  · intro h name need hneeds
    obtain ⟨job, hmem, -, hneed⟩ := needs_iff.mp hneeds
    exact h job hmem need hneed
  · intro h job hmem need hneed
    exact h job.name need (needs_iff.mpr ⟨job, hmem, rfl, hneed⟩)

/-- The first job of an order may only need jobs that have been seen. -/
theorem checkOrder_cons_eq_ok_iff {seen rest : List String} {name : String} :
    g.checkOrder seen (name :: rest) = .ok () ↔
      (∀ need, g.Needs name need → need ∈ seen) ∧
        g.checkOrder (name :: seen) rest = .ok () := by
  have hneeds : ∀ need,
      need ∈ ((g.get? name).map (·.needs)).getD [] ↔ g.Needs name need := by
    intro need
    rw [Needs]
    cases g.get? name <;> simp
  rw [checkOrder]
  split
  · next need hfind =>
    have hmem : g.Needs name need := (hneeds need).mp (List.mem_of_find?_eq_some hfind)
    have hunseen : need ∉ seen := by simpa using List.find?_some hfind
    exact iff_of_false (by simp) fun h => hunseen (h.1 need hmem)
  · next hfind =>
    refine (and_iff_right fun need hneed => ?_).symm
    simpa using List.find?_eq_none.mp hfind need ((hneeds need).mpr hneed)

/-- The check of a list finds each needed job in front of the job that needs it. -/
theorem checkOrder_eq_ok_iff {seen : List String} :
    g.checkOrder seen names = .ok () ↔
      ∀ before name after, names = before ++ name :: after →
        ∀ need, g.Needs name need → need ∈ before ∨ need ∈ seen := by
  induction names generalizing seen with
  | nil => exact iff_of_true rfl (by simp)
  | cons x rest ih =>
      rw [checkOrder_cons_eq_ok_iff, ih]
      constructor
      · rintro ⟨hx, hrest⟩ before name after hsplit need hneeds
        rcases List.cons_eq_append_iff.mp hsplit with ⟨rfl, hcons⟩ | ⟨before, rfl, hrest'⟩
        · obtain ⟨rfl, rfl⟩ := List.cons.inj hcons
          exact .inr (hx need hneeds)
        · rw [List.mem_cons, or_assoc, or_left_comm, ← List.mem_cons]
          exact hrest before name after hrest' need hneeds
      · intro h
        refine ⟨fun need hneeds => ?_, fun before name after hsplit need hneeds => ?_⟩
        · exact (h [] x rest rfl need hneeds).resolve_left (List.not_mem_nil)
        · rw [List.mem_cons, or_left_comm, ← or_assoc, ← List.mem_cons]
          exact h (x :: before) name after (by rw [hsplit, List.cons_append]) need hneeds

/-- Nothing is unneeded if the job is covered. -/
theorem flatMap_unneeded_eq_nil_iff {job : Job} :
    job.expressions.flatMap (unneeded job) = [] ↔ job.Covered := by
  simp [Job.Covered, List.flatMap_eq_nil_iff, unneeded, List.filter_eq_nil_iff]

/-- The check of the references lets covered graphs pass. -/
theorem checkReferences_eq_ok_iff : g.checkReferences = .ok () ↔ g.Covered := by
  refine forM_eq_ok_iff.trans (forall₂_congr fun job _ => ?_)
  rw [← flatMap_unneeded_eq_nil_iff]
  split
  · next heq => exact iff_of_false nofun (by simp [heq])
  · next heq => exact iff_of_true rfl heq

/-! ### The order that the search finds -/

/-- The order is found in four steps. -/
theorem order_eq (g : JobGraph) :
    g.order = g.checkNeeds >>= fun _ =>
      g.names.foldlM (g.visit (g.size + 1)) ⟨[], []⟩ >>= fun s =>
        g.checkOrder [] s.order >>= fun _ => pure s.order := rfl

/-- A run through all jobs from the start lists each job once. -/
theorem Visits.perm_names {s : Search} (h : g.Visits ⟨[], []⟩ g.names s) :
    s.order.Perm g.names := by
  have hproper : s.Proper := h.proper ⟨.nil, List.nil_subset _⟩
  have hknown : s.visited ⊆ g.names :=
    h.visited_subset (List.Subset.refl _) (List.nil_subset _)
  refine (List.perm_ext_iff_of_nodup hproper.nodup g.nodup_names).mpr fun name => ?_
  refine ⟨fun hmem => hknown (hproper.subset hmem), fun hmem => ?_⟩
  exact (h.advances.done name (h.subset_visited hmem)).resolve_left List.not_mem_nil

/-- If whatever needs a job stands behind it, then each job stands behind what it needs. -/
theorem Leads.isOrder (h : g.Leads names) (hclosed : g.Closed)
    (hperm : names.Perm g.names) : g.IsOrder names where
  perm := hperm
  behind := by
    intro before name after hsplit need hneeds
    have hmem : need ∈ names := hperm.mem_iff.mpr (hclosed name need hneeds)
    have hnodup : (name :: after).Nodup := by
      have hall : names.Nodup := hperm.nodup_iff.mpr g.nodup_names
      rw [hsplit] at hall
      exact hall.of_append_right
    rw [hsplit] at hmem
    refine (List.mem_append.mp hmem).resolve_right fun hafter => ?_
    -- then the job would also stand behind what it needs
    obtain ⟨between, rest, hneed⟩ := List.append_of_mem hafter
    have hrest : name ∈ rest :=
      h (before ++ between) need rest (by rw [hsplit, hneed, List.append_assoc]) name hneeds
    have hsub : rest ⊆ after := by
      rcases List.cons_eq_append_iff.mp hneed with ⟨-, hcons⟩ | ⟨_, -, rfl⟩
      · exact (List.cons.inj hcons).2 ▸ List.Subset.refl _
      · simp
    exact (List.nodup_cons.mp hnodup).1 (hsub hrest)

/-- What the search finds is an order. -/
theorem order_eq_ok {g : JobGraph} {names : List String} (h : g.order = .ok names) :
    g.IsOrder names := by
  rw [order_eq] at h
  obtain ⟨-, -, h⟩ := bind_eq_ok_iff.mp h
  obtain ⟨s, hsearch, h⟩ := bind_eq_ok_iff.mp h
  obtain ⟨⟨⟩, hcheck, h⟩ := bind_eq_ok_iff.mp h
  obtain rfl := Except.ok.inj h
  have hrun : g.Visits ⟨[], []⟩ g.names s :=
    visits_of_foldlM (List.Subset.refl _) unvisited_start hsearch
  refine ⟨hrun.perm_names, fun before name after hsplit need hneeds => ?_⟩
  have hseen := checkOrder_eq_ok_iff.mp hcheck before name after hsplit need hneeds
  exact hseen.resolve_right List.not_mem_nil

/-- The search finds an order whenever there can be one. -/
theorem exists_order (hclosed : g.Closed) (hacyclic : g.Acyclic) :
    ∃ names, g.order = .ok names := by
  have hself : ∀ name, ¬g.Needs name name := fun name h => hacyclic name (.single h)
  obtain ⟨s, hsearch⟩ := exists_foldlM_visit hself (g.size + 1) g.names ⟨[], []⟩
  have hrun : g.Visits ⟨[], []⟩ g.names s :=
    visits_of_foldlM (List.Subset.refl _) unvisited_start hsearch
  have hleads : g.Leads s.order :=
    hrun.leads hacyclic (fun _ hp => absurd hp.1 List.not_mem_nil) leads_nil
  have hcheck : g.checkOrder [] s.order = .ok () :=
    checkOrder_eq_ok_iff.mpr fun before name after hsplit need hneeds =>
      .inl ((hleads.isOrder hclosed hrun.perm_names).behind before name after hsplit need
        hneeds)
  refine ⟨s.order, ?_⟩
  rw [order_eq, checkNeeds_eq_ok_iff.mpr hclosed, ok_bind, hsearch, ok_bind, hcheck, ok_bind]
  rfl

/-- A graph is validated by its order and its references. -/
theorem validate_eq (g : JobGraph) :
    g.validate = g.order >>= fun _ => g.checkReferences := rfl

/-- **Validity.** A graph is valid exactly if all needed jobs exist, no job comes after
itself, and each job needs the jobs that its expressions refer to. -/
theorem validate_eq_ok_iff :
    g.validate = .ok () ↔ g.Closed ∧ g.Acyclic ∧ g.Covered := by
  rw [validate_eq, bind_eq_ok_iff, checkReferences_eq_ok_iff]
  constructor
  · rintro ⟨names, horder, hcovered⟩
    have hisOrder := order_eq_ok horder
    exact ⟨hisOrder.closed, hisOrder.acyclic, hcovered⟩
  · rintro ⟨hclosed, hacyclic, hcovered⟩
    obtain ⟨names, horder⟩ := exists_order hclosed hacyclic
    exact ⟨names, horder, hcovered⟩

/-! ### The jobs of an order -/

/-- The jobs of a graph are those under its names. -/
theorem filterMap_get?_names (g : JobGraph) : g.names.filterMap g.get? = g.members := by
  rw [names, Dictionary.keys, List.filterMap_map, members, Dictionary.values,
    ← List.filterMap_eq_map]
  exact List.filterMap_congr fun e he => Dictionary.get?_eq_some_iff.mpr he

/-- Jobs that are looked up by name have these names. -/
theorem map_name_filterMap_get? (h : ∀ name ∈ names, name ∈ g.names) :
    (names.filterMap g.get?).map (·.name) = names := by
  rw [List.map_filterMap]
  refine (List.filterMap_congr fun name hmem => ?_).trans List.filterMap_some
  obtain ⟨job, hjob, rfl⟩ := mem_names.mp (h name hmem)
  rw [mem_members.mp hjob, Option.map_some]

/-- A graph that is closed and acyclic has an order, which lists each of its jobs. -/
theorem exists_jobs_of_order (hclosed : g.Closed) (hacyclic : g.Acyclic) :
    ∃ jobs : List Job, g.order = .ok (jobs.map (·.name)) ∧ jobs.Perm g.members ∧
      g.IsOrder (jobs.map (·.name)) := by
  obtain ⟨names, horder⟩ := exists_order hclosed hacyclic
  have hisOrder : g.IsOrder names := order_eq_ok horder
  have hnames : (names.filterMap g.get?).map (·.name) = names :=
    map_name_filterMap_get? fun _ hmem => hisOrder.perm.mem_iff.mp hmem
  refine ⟨names.filterMap g.get?, by rw [hnames, horder], ?_, by rwa [hnames]⟩
  rw [← filterMap_get?_names]
  exact hisOrder.perm.filterMap _

/-- A valid graph has a text, with the texts of its jobs in any order that the search
finds. -/
theorem render_eq_ok {jobs : List Job} (hvalid : g.validate = .ok ())
    (horder : g.order = .ok (jobs.map (·.name))) (hjobs : jobs.Perm g.members) :
    g.render =
      .ok ("jobs:" ++ String.join (jobs.map fun job => "\n" ++ job.render) ++ "\n") := by
  have hget : (jobs.map (·.name)).filterMap g.get? = jobs := by
    rw [List.filterMap_map]
    refine (List.filterMap_congr fun job hjob => ?_).trans List.filterMap_some
    exact mem_members.mp (hjobs.mem_iff.mp hjob)
  rw [render, hvalid, ok_bind, horder, ok_bind]
  simp only [hget]
  rfl

end JobGraph

end AgentPipeline
