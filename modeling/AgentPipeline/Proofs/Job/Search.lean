import AgentPipeline.Proofs.Job.Graph
import Mathlib.Data.Finset.Card
import Mathlib.Data.Finset.Dedup
import Mathlib.Data.Finset.SDiff

/-!
# The search through a job graph

`JobGraph.visit` goes through the jobs behind a job before it puts the job in front of
them, and counts down a fuel for the length of a path. `Visits g s names s'` is the same
search as a relation without fuel: through the jobs of a list one after the other, from a
state to a state. A search that succeeds is such a run whenever its fuel exceeds the number
of jobs not yet visited (`visits_of_foldlM`), as it does from the start.

At any time some jobs are visited but not done: those on the way from the start to the
current job. A run leaves these as they are and finishes whatever else it visits
(`Search.Advances`), and it lists no job twice (`Search.Proper`). If no job comes after
itself, a run also keeps the jobs that need a job behind it in the list (`Visits.leads`).
-/

namespace AgentPipeline

namespace JobGraph

variable {g : JobGraph} {s s₁ s' : Search} {name : String} {names : List String}

/-! ### The search as a relation -/

/-- **A search** through the jobs of a list: a job that was visited is passed over, and a
new one is put in front of the list when all jobs behind it have been gone through. -/
inductive Visits (g : JobGraph) : Search → List String → Search → Prop
  | nil {s : Search} : Visits g s [] s
  | seen {s s' : Search} {name : String} {rest : List String} :
      name ∈ s.visited → Visits g s rest s' → Visits g s (name :: rest) s'
  | new {s s₁ s' : Search} {name : String} {rest : List String} :
      name ∉ s.visited → ¬g.Needs name name →
      Visits g ⟨name :: s.visited, s.order⟩ (g.successors name) s₁ →
      Visits g ⟨s₁.visited, name :: s₁.order⟩ rest s' →
      Visits g s (name :: rest) s'

/-- What a run does to the state of a search: what it visits it also finishes, and what it
finishes was not visited before. -/
structure Search.Advances (s s' : Search) : Prop where
  visited : s.visited ⊆ s'.visited
  order : s.order ⊆ s'.order
  done : ∀ name ∈ s'.visited, name ∈ s.visited ∨ name ∈ s'.order
  fresh : ∀ name ∈ s'.order, name ∈ s.order ∨ name ∉ s.visited

/-- The jobs that were visited but are not done. -/
def Search.Pending (s : Search) (name : String) : Prop :=
  name ∈ s.visited ∧ name ∉ s.order

namespace Search.Advances

/-- Nothing else is pending after a run than before. -/
theorem pending (h : s.Advances s') (hname : s'.Pending name) : s.Pending name :=
  ⟨(h.done name hname.1).resolve_right hname.2, fun hmem => hname.2 (h.order hmem)⟩

/-- A search of no jobs leaves the state as it is. -/
theorem refl (s : Search) : s.Advances s where
  visited := List.Subset.refl _
  order := List.Subset.refl _
  done := fun _ h => .inl h
  fresh := fun _ h => .inl h

/-- Two searches one after the other make one. -/
theorem trans (h : s.Advances s₁) (h' : s₁.Advances s') : s.Advances s' where
  visited := List.Subset.trans h.visited h'.visited
  order := List.Subset.trans h.order h'.order
  done := fun name hname => (h'.done name hname).elim
    (fun h₁ => (h.done name h₁).imp_right (h'.order ·)) .inr
  fresh := fun name hname => (h'.fresh name hname).elim
    (fun h₁ => h.fresh name h₁) (fun h₁ => .inr fun hs => h₁ (h.visited hs))

/-- A new job is finished when all jobs behind it are. -/
theorem finish (hnew : name ∉ s.visited)
    (h : Search.Advances ⟨name :: s.visited, s.order⟩ s₁) :
    s.Advances ⟨s₁.visited, name :: s₁.order⟩ where
  visited := fun _ hx => h.visited (List.mem_cons_of_mem _ hx)
  order := fun _ hx => List.mem_cons_of_mem _ (h.order hx)
  done := by
    intro x hx
    rcases h.done x hx with hx | hx
    · rcases List.mem_cons.mp hx with rfl | hx
      · exact .inr List.mem_cons_self
      · exact .inl hx
    · exact .inr (List.mem_cons_of_mem _ hx)
  fresh := by
    intro x hx
    rcases List.mem_cons.mp hx with rfl | hx
    · exact .inr hnew
    · exact (h.fresh x hx).imp_right fun hx hs => hx (List.mem_cons_of_mem _ hs)

end Search.Advances

/-- The list of a state names jobs that were visited, and none of them twice. -/
structure Search.Proper (s : Search) : Prop where
  nodup : s.order.Nodup
  subset : s.order ⊆ s.visited

/-- Whatever needs a job of the list stands behind it in the list. -/
def Leads (g : JobGraph) (order : List String) : Prop :=
  ∀ before name after, order = before ++ name :: after →
    ∀ next, g.Needs next name → next ∈ after

/-- No jobs lead. -/
theorem leads_nil : g.Leads [] := by
  intro before name after h
  simp at h

/-- A job may be put in front if what needs it is listed already. -/
theorem Leads.cons {order : List String} (h : g.Leads order)
    (hname : ∀ next, g.Needs next name → next ∈ order) : g.Leads (name :: order) := by
  intro before x after heq
  rcases List.cons_eq_append_iff.mp heq with ⟨rfl, hcons⟩ | ⟨before, rfl, horder⟩
  · obtain ⟨rfl, rfl⟩ := List.cons.inj hcons
    exact hname
  · exact h before x after horder

namespace Visits

/-- A run finishes what it visits. -/
theorem advances (h : g.Visits s names s') : s.Advances s' := by
  induction h with
  | nil => exact .refl _
  | seen _ _ ih => exact ih
  | new hnew _ _ _ ihnext ihrest => exact (ihnext.finish hnew).trans ihrest

/-- A run goes through all jobs of the list. -/
theorem subset_visited (h : g.Visits s names s') : names ⊆ s'.visited := by
  induction h with
  | nil => exact List.nil_subset _
  | seen hseen hrest ih => exact List.cons_subset.mpr ⟨hrest.advances.visited hseen, ih⟩
  | new _ _ hnext hrest _ ih =>
      refine List.cons_subset.mpr ⟨hrest.advances.visited ?_, ih⟩
      exact hnext.advances.visited List.mem_cons_self

/-- A run meets no other jobs than those of the graph. -/
theorem visited_subset (h : g.Visits s names s') (hnames : names ⊆ g.names)
    (hs : s.visited ⊆ g.names) : s'.visited ⊆ g.names := by
  induction h with
  | nil => exact hs
  | seen _ _ ih => exact ih (List.cons_subset.mp hnames).2 hs
  | new _ _ _ _ ihnext ih =>
      obtain ⟨hname, hrest⟩ := List.cons_subset.mp hnames
      exact ih hrest (ihnext successors_subset (List.cons_subset.mpr ⟨hname, hs⟩))

/-- A run lists no job twice. -/
theorem proper (h : g.Visits s names s') (hs : s.Proper) : s'.Proper := by
  induction h with
  | nil => exact hs
  | seen _ _ ih => exact ih hs
  | @new s s₁ _ name _ hnew _ hnext _ ihnext ih =>
      have hs₁ : s₁.Proper := ihnext ⟨hs.nodup, List.subset_cons_of_subset _ hs.subset⟩
      have hname : name ∈ s₁.visited := hnext.advances.visited List.mem_cons_self
      have hfresh : name ∉ s₁.order := fun hmem =>
        (hnext.advances.fresh name hmem).elim (fun h => hnew (hs.subset h))
          (fun h => h List.mem_cons_self)
      exact ih ⟨List.nodup_cons.mpr ⟨hfresh, hs₁.nodup⟩,
        List.cons_subset.mpr ⟨hname, hs₁.subset⟩⟩

/-- **Order of a run.** The jobs of the list come after all jobs that are pending. So
whatever needs a job that is put in front of the list is not pending, unless some job comes
after itself, and is in the list by then. -/
theorem leads (hacyclic : g.Acyclic) (h : g.Visits s names s')
    (hway : ∀ p, s.Pending p → ∀ name ∈ names, Relation.TransGen g.Needs name p)
    (hs : g.Leads s.order) : g.Leads s'.order := by
  induction h with
  | nil => exact hs
  | seen _ _ ih =>
      exact ih (fun p hp name hname => hway p hp name (List.mem_cons_of_mem _ hname)) hs
  | @new s s₁ _ name _ hnew hself hnext _ ihnext ih =>
      -- the job itself is on the way now, besides those that were before
      have hstart : ∀ p, Search.Pending ⟨name :: s.visited, s.order⟩ p →
          p = name ∨ s.Pending p :=
        fun p hp => (List.mem_cons.mp hp.1).imp_right fun hold => ⟨hold, hp.2⟩
      have hs₁ : g.Leads s₁.order := by
        refine ihnext (fun p hp next hmem => ?_) hs
        have hneeds : g.Needs next name := mem_successors.mp hmem
        rcases hstart p hp with rfl | hp
        · exact .single hneeds
        · exact .head hneeds (hway p hp name List.mem_cons_self)
      -- what needs the job has been visited and is done, since otherwise there would be a cycle
      have hbehind : ∀ next, g.Needs next name → next ∈ s₁.order := by
        intro next hneeds
        by_contra hnot
        have hvisited : next ∈ s₁.visited :=
          hnext.subset_visited (mem_successors.mpr hneeds)
        rcases hstart next (hnext.advances.pending ⟨hvisited, hnot⟩) with rfl | hp
        · exact hself hneeds
        · exact hacyclic next (.head hneeds (hway next hp name List.mem_cons_self))
      refine ih (fun p hp x hx => ?_) (hs₁.cons hbehind)
      exact hway p ((hnext.advances.finish hnew).pending hp) x (List.mem_cons_of_mem _ hx)

end Visits

/-! ### Fuel -/

/-- The number of jobs that a search has not visited. -/
def unvisited (g : JobGraph) (s : Search) : Nat :=
  (g.names.toFinset \ s.visited.toFinset).card

/-- The more is visited, the less is not. -/
theorem unvisited_le (h : s.visited ⊆ s'.visited) : g.unvisited s' ≤ g.unvisited s :=
  Finset.card_le_card (Finset.sdiff_subset_sdiff subset_rfl
    (fun _ hx => List.mem_toFinset.mpr (h (List.mem_toFinset.mp hx))))

/-- A new job that is visited makes one less. -/
theorem unvisited_lt {order : List String} (hname : name ∈ g.names)
    (hnew : name ∉ s.visited) :
    g.unvisited ⟨name :: s.visited, order⟩ < g.unvisited s := by
  rw [unvisited, List.toFinset_cons, Finset.sdiff_insert]
  exact Finset.card_erase_lt_of_mem (by simp [hname, hnew])

/-- At the start the fuel exceeds the number of jobs. -/
theorem unvisited_start : g.unvisited ⟨[], []⟩ < g.size + 1 := by
  have hlength : g.names.length = g.size := List.length_map _
  have hcard : g.names.toFinset.card ≤ g.names.length := List.toFinset_card_le _
  rw [unvisited, List.toFinset_nil, Finset.sdiff_empty]
  omega

/-- One visit: a job is passed over, found to need itself, or put behind its successors. -/
theorem visit_succ (g : JobGraph) (fuel : Nat) (s : Search) (name : String) :
    g.visit (fuel + 1) s name =
      if name ∈ s.visited then .ok s
      else if name ∈ g.successors name then .error (.cycleDetected name)
      else
        (g.successors name).foldlM (g.visit fuel) ⟨name :: s.visited, s.order⟩ >>= fun s =>
          pure ⟨s.visited, name :: s.order⟩ := rfl

/-- A search that succeeds with enough fuel is a run: the fuel ends no path, since each step
on a path visits one more job. -/
theorem visits_of_foldlM {fuel : Nat} (hnames : names ⊆ g.names)
    (hfuel : g.unvisited s < fuel) (h : names.foldlM (g.visit fuel) s = .ok s') :
    g.Visits s names s' := by
  induction fuel generalizing s names s' with
  | zero => omega
  | succ fuel ihfuel =>
      induction names generalizing s with
      | nil =>
          obtain rfl := Except.ok.inj h
          exact .nil
      | cons name rest ih =>
          obtain ⟨hname, hsub⟩ := List.cons_subset.mp hnames
          rw [List.foldlM_cons] at h
          obtain ⟨s₁, hvisit, hrest⟩ := bind_eq_ok_iff.mp h
          rw [visit_succ] at hvisit
          split at hvisit
          · next hseen =>
            obtain rfl := Except.ok.inj hvisit
            exact .seen hseen (ih hsub hfuel hrest)
          · next hnew =>
            split at hvisit
            · cases hvisit
            · next hself =>
              obtain ⟨s₂, hnext, hs₁⟩ := bind_eq_ok_iff.mp hvisit
              obtain rfl := Except.ok.inj hs₁
              have hlt : g.unvisited ⟨name :: s.visited, s.order⟩ < g.unvisited s :=
                unvisited_lt hname hnew
              have hnext := ihfuel successors_subset (by omega) hnext
              have hle : g.unvisited ⟨s₂.visited, name :: s₂.order⟩ ≤
                  g.unvisited ⟨name :: s.visited, s.order⟩ :=
                unvisited_le hnext.advances.visited
              exact .new hnew (mt mem_successors.mpr hself) hnext (ih hsub (by omega) hrest)

/-- A search only fails at a job that needs itself. -/
theorem exists_foldlM_visit (hself : ∀ name, ¬g.Needs name name) (fuel : Nat)
    (names : List String) (s : Search) :
    ∃ s', names.foldlM (g.visit fuel) s = .ok s' := by
  induction fuel generalizing names s with
  | zero =>
      induction names with
      | nil => exact ⟨s, rfl⟩
      | cons name rest ih => exact ih
  | succ fuel ihfuel =>
      induction names generalizing s with
      | nil => exact ⟨s, rfl⟩
      | cons name rest ih =>
          obtain ⟨s₁, hvisit⟩ : ∃ s₁, g.visit (fuel + 1) s name = .ok s₁ := by
            rw [visit_succ]
            split
            · exact ⟨s, rfl⟩
            · obtain ⟨s₂, hnext⟩ := ihfuel (g.successors name) ⟨name :: s.visited, s.order⟩
              rw [if_neg (mt mem_successors.mp (hself name)), hnext]
              exact ⟨_, rfl⟩
          rw [List.foldlM_cons, hvisit]
          exact ih s₁

end JobGraph

end AgentPipeline
