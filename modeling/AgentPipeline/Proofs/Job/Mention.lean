import AgentPipeline.Proofs.Job.Order
import AgentPipeline.Proofs.Reference.Templates

/-!
# What a job refers to

A job refers to another one in its condition, in one of its steps, or in the templates of
its other texts (`Job.refersTo_iff`). It is covered exactly if it needs all jobs that it
refers to. The texts of a generated step are laid out line by line, and so the step has the
templates of its parts (`Step.mem_templates_render`).
-/

namespace AgentPipeline

open Reference

variable {name body : String}

/-- The step refers to a job in its condition or in a template of its text. -/
def JobStep.RefersTo (step : JobStep) (name : String) : Prop :=
  (∃ condition, step.condition = some condition ∧ name ∈ (needsReferences condition).toList) ∨
    name ∈ (templateReferences step.render).toList

namespace Job

variable {job : Job}

/-- The job refers to another job in one of its expressions. -/
def RefersTo (job : Job) (name : String) : Prop :=
  ∃ expression ∈ job.expressions, name ∈ (needsReferences expression).toList

/-- A job is covered if it needs all jobs that it refers to. -/
theorem covered_iff : job.Covered ↔ ∀ name, job.RefersTo name → name ∈ job.needs :=
  ⟨fun h name ⟨expression, hmem, hname⟩ => h expression hmem name hname,
    fun h expression hmem name hname => h name ⟨expression, hmem, hname⟩⟩

/-- **Where a job refers to another one.** -/
theorem refersTo_iff :
    job.RefersTo name ↔
      (∃ condition, job.condition = some condition ∧
        name ∈ (needsReferences condition).toList) ∨
      (∃ step ∈ job.steps, step.RefersTo name) ∨
      ∃ text ∈ job.outputs.values ++ job.env.values ++ job.concurrency.toList,
        name ∈ (templateReferences text).toList := by
  simp only [RefersTo, expressions, templated, stepConditions, stepTexts, JobStep.RefersTo,
    List.mem_append, List.mem_flatMap, List.mem_filterMap, List.mem_map, Option.mem_toList,
    mem_templateReferences]
  -- an expression is a condition of the job, a condition of a step, or stands in a template
  constructor
  · rintro ⟨expression, (hcondition | ⟨step, hstep, hcondition⟩) | ⟨text, htext, hbody⟩, hname⟩
    · exact .inl ⟨expression, hcondition, hname⟩
    · exact .inr (.inl ⟨step, hstep, .inl ⟨expression, hcondition, hname⟩⟩)
    · rcases htext with ((⟨step, hstep, rfl⟩ | htext) | htext) | htext
      · exact .inr (.inl ⟨step, hstep, .inr ⟨expression, hbody, hname⟩⟩)
      · exact .inr (.inr ⟨text, .inl (.inl htext), expression, hbody, hname⟩)
      · exact .inr (.inr ⟨text, .inl (.inr htext), expression, hbody, hname⟩)
      · exact .inr (.inr ⟨text, .inr htext, expression, hbody, hname⟩)
  · rintro (⟨condition, hcondition, hname⟩ | ⟨step, hstep, hrefers⟩ |
      ⟨text, htext, body, hbody, hname⟩)
    · exact ⟨condition, .inl (.inl hcondition), hname⟩
    · rcases hrefers with ⟨condition, hcondition, hname⟩ | ⟨body, hbody, hname⟩
      · exact ⟨condition, .inl (.inr ⟨step, hstep, hcondition⟩), hname⟩
      · exact ⟨body, .inr ⟨step.render, .inl (.inl (.inl ⟨step, hstep, rfl⟩)), hbody⟩, hname⟩
    · refine ⟨body, .inr ⟨text, ?_, hbody⟩, hname⟩
      rcases htext with (htext | htext) | htext
      · exact .inl (.inl (.inr htext))
      · exact .inl (.inr htext)
      · exact .inr htext

end Job

/-! ### Generated steps -/

namespace Step

/-- A step has the templates of its parts. -/
theorem templates_render (s : Step) : templates s.render = s.parts.flatMap templates :=
  templates_intercalate _

/-- **The templates of a step** are those of its parts. -/
theorem mem_templates_render {s : Step} :
    body ∈ templates s.render ↔
      body ∈ templates (Yaml.scalar s.name) ∨
      (∃ id, s.id = some id ∧ body ∈ templates (Yaml.entry (column + 2) "id" id)) ∨
      (∃ condition, s.condition = some condition ∧
        body ∈ templates (Yaml.ifEntry (column + 2) condition)) ∨
      (∃ action, s.uses = some action ∧ body ∈ templates action) ∨
      (∃ e ∈ s.inputs ++ s.env, body ∈ templates (Yaml.entry (column + 4) e.1 e.2)) ∨
      ∃ script, s.run = some script ∧ body ∈ templates (Yaml.entry (column + 2) "run" script) := by
  -- the fixed texts of a step hold no dollar sign
  have hname : templates (Yaml.pad column ++ "- name: " ++ Yaml.scalar s.name) =
      templates (Yaml.scalar s.name) := templates_append_of_notMem (by decide)
  have haction : ∀ action, templates (Yaml.pad (column + 2) ++ "uses: " ++ action) =
      templates action := fun action => templates_append_of_notMem (by decide)
  have hfixed : templates (Yaml.pad (column + 2) ++ "continue-on-error: true") = [] :=
    templates_eq_nil (.inl (by decide))
  have hblock : ∀ key entries, key ∈ ["with", "env"] →
      ((∃ part ∈ block (column + 2) key entries, body ∈ templates part) ↔
        ∃ e ∈ entries, body ∈ templates (Yaml.entry (column + 4) e.1 e.2)) := by
    intro key entries hkey
    have hkeys : ∀ key ∈ ["with", "env"], templates (Yaml.pad (column + 2) ++ key ++ ":") = [] :=
      fun key h => templates_eq_nil (.inl (by revert key; decide))
    cases entries <;> simp [block, hkeys key hkey]
  have hoptional : ∀ (text : Option String) (line : String → String),
      (∃ part ∈ optionalLine text line, body ∈ templates part) ↔
        ∃ t, text = some t ∧ body ∈ templates (line t) := by
    intro text line
    simp only [optionalLine, Option.mem_toList, Option.map_eq_some_iff]
    grind
  have hcontinue : ¬∃ part ∈
      (if s.continueOnError then [Yaml.pad (column + 2) ++ "continue-on-error: true"] else []),
      body ∈ templates part := by
    split <;> simp [hfixed]
  simp only [templates_render, parts, List.mem_flatMap, List.mem_append, or_and_right, exists_or,
    hblock _ _ List.mem_cons_self, hblock "env" _ (by simp), hoptional, haction, hcontinue,
    List.mem_singleton, exists_eq_left, hname]
  grind

/-- **Plain steps** have no templates but those in the reference to their action. -/
structure Plain (s : Step) : Prop where
  name : '$' ∉ s.name.toList
  id : ∀ id, s.id = some id → '$' ∉ id.toList
  condition : ∀ condition, s.condition = some condition → '$' ∉ condition.toList
  entries : ∀ e ∈ s.inputs ++ s.env, '$' ∉ e.1.toList ∧ '$' ∉ e.2.toList
  run : ∀ script, s.run = some script → '\x7b' ∉ script.toList

/-- The action does not matter. -/
theorem Plain.withAction {s : Step} (hs : s.Plain) (action : String) :
    ({ s with uses := some action } : Step).Plain :=
  ⟨hs.name, hs.id, hs.condition, hs.entries, hs.run⟩

/-- A template of a plain step stands in its action. -/
theorem Plain.of_mem_templates {s : Step} (hs : s.Plain) (h : body ∈ templates s.render) :
    ∃ action, s.uses = some action ∧ body ∈ templates action := by
  rcases mem_templates_render.mp h with
    h | ⟨id, hid, h⟩ | ⟨condition, hcondition, h⟩ | haction | ⟨e, he, h⟩ | ⟨script, hscript, h⟩
  · rw [templates_eq_nil (.inl (notMem_scalar (by decide) hs.name))] at h
    cases h
  · rw [templates_entry_eq_nil (by decide) (.inl (hs.id id hid))] at h
    cases h
  · rw [templates_ifEntry_eq_nil (hs.condition condition hcondition)] at h
    cases h
  · exact haction
  · rw [templates_entry_eq_nil (hs.entries e he).1 (.inl (hs.entries e he).2)] at h
    cases h
  · rw [templates_entry_eq_nil (by decide) (.inr (hs.run script hscript))] at h
    cases h

/-- A plain step refers to a job in its condition or in the reference to its action. -/
theorem Plain.of_refersTo {s : Step} (hs : s.Plain) (h : (JobStep.generated s).RefersTo name) :
    (∃ condition, s.condition = some condition ∧ name ∈ (needsReferences condition).toList) ∨
      ∃ action, s.uses = some action ∧ name ∈ (templateReferences action).toList := by
  refine h.imp_right fun hname => ?_
  obtain ⟨body, hbody, hname⟩ := mem_templateReferences.mp hname
  obtain ⟨action, haction, hbody⟩ := hs.of_mem_templates hbody
  exact ⟨action, haction, mem_templateReferences.mpr ⟨body, hbody, hname⟩⟩

end Step

/-- **A job with plain steps** is covered if it needs the jobs that the conditions refer to, and
neither the references to actions nor the other texts of the job have any in a template. -/
theorem Job.covered_of_plain {job : Job} {steps : List Step}
    (hsteps : job.steps = steps.map .generated) (hplain : ∀ s ∈ steps, s.Plain)
    (hconditions : ∀ condition ∈ job.condition.toList ++ steps.filterMap (·.condition),
      ∀ name ∈ (needsReferences condition).toList, name ∈ job.needs)
    (htexts : ∀ text ∈ steps.filterMap (·.uses) ++
      (job.outputs.values ++ job.env.values ++ job.concurrency.toList),
        (templateReferences text).toList = []) : job.Covered := by
  refine covered_iff.mpr fun name hrefers => ?_
  rcases refersTo_iff.mp hrefers with
    ⟨condition, hcondition, hname⟩ | ⟨step, hstep, h⟩ | ⟨text, htext, hname⟩
  · exact hconditions condition (by simp [hcondition]) name hname
  · rw [hsteps] at hstep
    obtain ⟨s, hs, rfl⟩ := List.mem_map.mp hstep
    rcases (hplain s hs).of_refersTo h with
      ⟨condition, hcondition, hname⟩ | ⟨action, haction, hname⟩
    · have hmem := List.mem_filterMap.mpr ⟨s, hs, hcondition⟩
      exact hconditions condition (List.mem_append_right _ hmem) name hname
    · have hmem := List.mem_filterMap.mpr ⟨s, hs, haction⟩
      rw [htexts action (List.mem_append_left _ hmem)] at hname
      cases hname
  · rw [htexts text (List.mem_append_right _ htext)] at hname
    cases hname

end AgentPipeline
