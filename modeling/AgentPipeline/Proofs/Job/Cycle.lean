import AgentPipeline.Proofs.Job.Order

/-!
# Cycles

Each check of a job graph fails with an error of its own, and so the error tells what is
wrong: the validation reports a cycle exactly if all needed jobs exist and some job comes
after itself (`validate_eq_cycleDetected_iff`).
-/

namespace AgentPipeline

/-- The error reports a cycle. -/
def GraphError.IsCycle (e : GraphError) : Prop := ∃ name, e = .cycleDetected name

/-- The error says that a name is taken. -/
def GraphError.IsDuplicate (e : GraphError) : Prop := ∃ name, e = .duplicateJob name

namespace JobGraph

variable {g : JobGraph}

/-- Adding a job reports no cycle. -/
theorem add_failsWith (g : JobGraph) (job : Job) : FailsWith (¬·.IsCycle) (g.add job) := by
  unfold add
  exact .ite (.error nofun) (.ok _)

/-- The check of the needs reports no cycle. -/
theorem checkNeeds_failsWith (g : JobGraph) : FailsWith (¬·.IsCycle) g.checkNeeds := by
  refine .forM fun job => ?_
  split
  · exact .error nofun
  · exact .ok ()

/-- The check of the references reports no cycle. -/
theorem checkReferences_failsWith (g : JobGraph) : FailsWith (¬·.IsCycle) g.checkReferences := by
  refine .forM fun job => ?_
  split
  · exact .error nofun
  · exact .ok ()

/-- The search reports nothing but cycles. -/
theorem visit_failsWith (g : JobGraph) (fuel : Nat) (s : Search) (name : String) :
    FailsWith GraphError.IsCycle (g.visit fuel s name) := by
  induction fuel generalizing s name with
  | zero => exact .ok s
  | succ fuel ih =>
      rw [visit_succ]
      exact .ite (.ok s) (.ite (.error ⟨name, rfl⟩) (.bind (.foldlM ih) fun _ => .ok _))

/-- The check of the order reports nothing but cycles. -/
theorem checkOrder_failsWith (g : JobGraph) (before names : List String) :
    FailsWith GraphError.IsCycle (g.checkOrder before names) := by
  induction names generalizing before with
  | nil => exact .ok ()
  | cons name rest ih =>
      rw [checkOrder]
      split
      · next need _ => exact .error ⟨need, rfl⟩
      · exact ih _

/-- In a closed graph, only a cycle keeps the search from an order. -/
theorem order_failsWith (hclosed : g.Closed) : FailsWith GraphError.IsCycle g.order := by
  rw [order_eq, checkNeeds_eq_ok_iff.mpr hclosed, ok_bind]
  refine .bind (.foldlM (g.visit_failsWith _)) fun s => ?_
  exact .bind (g.checkOrder_failsWith _ _) fun _ => .ok _

/-- The validation does not mind names. -/
theorem validate_failsWith (g : JobGraph) : FailsWith (¬·.IsDuplicate) g.validate := by
  have hcycle : ∀ e : GraphError, e.IsCycle → ¬e.IsDuplicate := by
    rintro _ ⟨_, rfl⟩ ⟨_, ⟨⟩⟩
  rw [validate_eq, order_eq]
  refine .bind (.bind ?_ fun _ => ?_) fun _ => ?_
  · refine .forM fun job => ?_
    split
    · exact .error nofun
    · exact .ok ()
  · refine .bind (.mono hcycle (.foldlM (g.visit_failsWith _))) fun s => ?_
    exact .bind (.mono hcycle (g.checkOrder_failsWith _ _)) fun _ => .ok _
  · refine .forM fun job => ?_
    split
    · exact .error nofun
    · exact .ok ()

/-- **Cycles are reported** exactly if all needed jobs exist and a job comes after itself. -/
theorem validate_eq_cycleDetected_iff :
    (∃ name, g.validate = .error (.cycleDetected name)) ↔ g.Closed ∧ ¬g.Acyclic := by
  constructor
  · rintro ⟨name, herror⟩
    have hclosed : g.Closed := by
      cases hcheck : g.checkNeeds with
      | ok => exact checkNeeds_eq_ok_iff.mp hcheck
      | error e =>
          have he : g.validate = .error e := by
            rw [validate_eq, order_eq, hcheck]
            rfl
          have hcycle : e.IsCycle := ⟨name, Except.error.inj (he.symm.trans herror)⟩
          exact absurd hcycle (g.checkNeeds_failsWith e hcheck)
    refine ⟨hclosed, fun hacyclic => ?_⟩
    obtain ⟨names, horder⟩ := exists_order hclosed hacyclic
    rw [validate_eq, horder, ok_bind] at herror
    exact g.checkReferences_failsWith _ herror ⟨name, rfl⟩
  · rintro ⟨hclosed, hacyclic⟩
    cases horder : g.order with
    | ok names => exact absurd (order_eq_ok horder).acyclic hacyclic
    | error e =>
        obtain ⟨name, rfl⟩ := order_failsWith hclosed e horder
        exact ⟨name, by rw [validate_eq, horder]; rfl⟩

end JobGraph

end AgentPipeline
