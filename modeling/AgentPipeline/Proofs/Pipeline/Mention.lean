import AgentPipeline.Proofs.Job.Mention
import AgentPipeline.Proofs.Pin.Resolver
import AgentPipeline.Proofs.Pipeline.Agent
import AgentPipeline.Proofs.Pipeline.Prompt
import AgentPipeline.Proofs.Pipeline.Validity

/-!
# What the agent job refers to

The texts of the agent job come from several sources. The prompt, the condition and the
author's steps are searched for jobs that they refer to, and the agent job needs these. The
prompt stands in a script, which has the templates of the prompt and no others
(`templates_script`), and the other steps that are generated are plain.

Not searched are the settings of the outputs, the steps of the engine, and the commits of
actions that are looked up. So the agent job needs each job of the author that it refers to,
unless one of these refers to it (`mem_needs_of_refersTo`); then the job may be missing
(`exists_refersTo_notMem_needs`).
-/

namespace AgentPipeline

open Reference

variable {name body : String}

/-! ### Texts around the prompt -/

namespace Prompt

/-- The line feeds around a prompt have no templates. -/
theorem templates_trimLineFeeds (text : String) :
    templates (trimLineFeeds text) = templates text := by
  have hfront : '$' ∉ text.toList.takeWhile (· == '\n') := fun h => by
    simpa using List.mem_takeWhile_imp h
  rw [templates, trimLineFeeds, String.toList_ofList, templatesFrom_dropTail,
    ← templatesFrom_append_of_notMem hfront, List.takeWhile_append_dropWhile, templates]

/-- The script that writes the prompt has the templates of the prompt. -/
theorem templates_script (markdown : String) :
    templates (script markdown) = templates markdown := by
  obtain ⟨n, hn⟩ := delimiter_eq_candidate (trimLineFeeds markdown)
  have hmark : '\x7b' ∉ (candidate n).toList := notMem_candidate (by decide) (by decide) n
  have hcommand : templates ("cat << '" ++ candidate n ++ "' > \"$GH_AW_PROMPT\"") = [] :=
    templates_eq_nil (.inr (by simp [hmark]))
  have hdirectory : templates "mkdir -p \"$(dirname \"$GH_AW_PROMPT\")\"" = [] :=
    templates_eq_nil (.inr (by decide))
  rw [script_eq_intercalate, hn, templates_intercalate]
  simp [hcommand, hdirectory, templates_trimLineFeeds, templates_eq_nil (.inr hmark)]

end Prompt

/-! ### Pinned actions -/

/-- The commits of the catalog are plain texts. -/
theorem Pin.plain_of_mem_catalog {pin : Pin} (h : pin ∈ catalog) :
    '$' ∉ pin.sha.toList ∧ '$' ∉ pin.version.toList := by
  have hbundled : ∀ pin ∈ bundled,
      ¬String.utf8EncodeChar '$' ⊆ pin.sha.toByteArray.data.toList ∧
        ¬String.utf8EncodeChar '$' ⊆ pin.version.toByteArray.data.toList := by
    decide
  exact (hbundled pin (List.mem_mergeSort.mp h)).imp (mt utf8EncodeChar_subset)
    (mt utf8EncodeChar_subset)

/-- A reference to an action has no templates but those of a commit that was looked up. -/
theorem Resolver.templates_of_resolve {r : Resolver} {repo version action : String}
    (hcatalog : r.catalog = Pin.catalog) (hrepo : '$' ∉ repo.toList)
    (hversion : '$' ∉ version.toList ∧ '\x7d' ∉ version.toList)
    (h : r.resolve repo version = .ok action) (hbody : body ∈ templates action) :
    ∃ sha, r.lookup repo version = some sha ∧ body ∈ templates sha := by
  unfold resolve at h
  -- only what was looked up may hold a template; versions and commits of the catalog are plain
  split at h
  · next sha hsha =>
    obtain rfl := Except.ok.inj h
    refine ⟨sha, hsha, ?_⟩
    have hfront : '$' ∉ (repo ++ "@").toList := by simp [hrepo]
    have hback : '\x7d' ∉ (" # " ++ version).toList ∧ '$' ∉ (" # " ++ version).toList := by
      simp [hversion]
    rw [Pin.reference, String.append_assoc, String.append_assoc, templates_append_of_notMem hfront,
      templates, String.toList_append, templatesFrom_append_plain hback.1 hback.2] at hbody
    exact hbody
  · split at h
    · next pin hpin =>
      obtain rfl := Except.ok.inj h
      have hmem : pin ∈ Pin.catalog :=
        hcatalog ▸ List.mem_of_mem_filter (Resolver.mem_of_choose hpin)
      obtain ⟨hsha, hversion⟩ := Pin.plain_of_mem_catalog hmem
      rw [templates_eq_nil (.inl (by simp [Pin.reference, hrepo, hsha, hversion]))] at hbody
      cases hbody
    · split at h
      · cases h
      · obtain rfl := Except.ok.inj h
        rw [templates_eq_nil (.inl (by simp [hrepo, hversion.1]))] at hbody
        cases hbody

/-- The steps of the default engine are plain. -/
theorem Engine.plain_of_mem_steps {w : Workflow} {step : Step} (h : step ∈ default.steps w) :
    step.Plain := by
  obtain rfl := List.mem_singleton.mp h
  have hname : '$' ∉ ("Execute " ++ default.id ++ " agent").toList := by decide
  refine ⟨hname, ?_, nofun, ?_, ?_⟩
  · rintro _ ⟨⟩
    decide
  · have hentries : ∀ e ∈ [("GH_AW_PROMPT", Names.promptPath),
        ("GH_AW_SAFE_OUTPUTS", Names.safeOutputsFile)], '$' ∉ e.1.toList ∧ '$' ∉ e.2.toList := by
      decide
    intro e he
    refine hentries e ?_
    cases houtputs : w.hasSafeOutputs <;> simp [default, Dictionary.empty, houtputs] at he <;>
      simp [he]
  · rintro _ ⟨⟩
    decide

/-! ### The agent job -/

namespace Agent

variable {ctx : Context} {activation : Activation} {customJobs : List CustomJob}
  {hasPreActivation : Bool} {engineSteps : List Step} {job : Job}

/-- **What is searched**: the prompt, the condition and the author's steps. -/
theorem mem_references {w : Workflow} {condition : Option String} :
    name ∈ (references w condition).toList ↔
      name ∈ (templateReferences w.markdown).toList ∨
      (∃ text, condition = some text ∧ name ∈ (needsReferences text).toList) ∨
      ∃ v ∈ w.steps, (JobStep.authored v).RefersTo name := by
  have hcondition : ∀ text : Option String,
      name ∈ ((text.map needsReferences).getD .empty).toList ↔
        ∃ t, text = some t ∧ name ∈ (needsReferences t).toList := fun text => by
    cases text <;> simp
  have hstep : ∀ v, name ∈ (stepReferences v).toList ↔ (JobStep.authored v).RefersTo name :=
    fun v => by
      rw [stepReferences, NameSet.mem_toList_union, hcondition, JobStep.RefersTo, or_comm]
  simp only [references, NameSet.mem_toList_foldl_union, NameSet.mem_toList_union, hcondition,
    hstep, or_assoc]

/-- **What is not searched**: the settings of the outputs, the steps of the engine, and a
commit that was looked up. -/
inductive Unsearched (ctx : Context) (engineSteps : List Step) (name : String) : Prop
  | settings {s : SafeOutputs} : ctx.workflow.outputs = some s →
      (JobStep.generated (setupStep s)).RefersTo name → Unsearched ctx engineSteps name
  | engine {step : Step} : step ∈ engineSteps →
      (JobStep.generated step).RefersTo name → Unsearched ctx engineSteps name
  | commit {repo version sha : String} : ctx.resolver.lookup repo version = some sha →
      name ∈ (templateReferences sha).toList → Unsearched ctx engineSteps name

/-! ### The steps -/

/-- The step that writes the prompt has the templates of the prompt. -/
theorem mem_templates_promptStep {markdown : String} :
    body ∈ templates (promptStep markdown).render ↔ body ∈ templates markdown := by
  have hname : templates (Yaml.scalar "Create prompt") = [] :=
    templates_eq_nil (.inl (notMem_scalar (by decide) (by decide)))
  have hpath : templates (Yaml.entry (Step.column + 4) "GH_AW_PROMPT" Names.promptPath) = [] :=
    templates_entry_eq_nil (by decide) (.inl (by decide))
  have hlines : '\n' ∈ (Prompt.script markdown).toList := by
    rw [Prompt.script_eq]
    simp
  have hscript : templates (Yaml.entry (Step.column + 2) "run" (Prompt.script markdown)) =
      templates markdown := by
    rw [templates_entry (by decide) hlines, Prompt.templates_script]
  rw [Step.mem_templates_render]
  constructor
  · rintro (h | ⟨id, ⟨⟩, -⟩ | ⟨condition, ⟨⟩, -⟩ | ⟨action, ⟨⟩, -⟩ | ⟨e, he, h⟩ | ⟨script, ⟨⟩, h⟩)
    · rw [promptStep, hname] at h
      cases h
    · obtain rfl := List.mem_singleton.mp he
      rw [hpath] at h
      cases h
    · rwa [hscript] at h
  · intro h
    rw [← hscript] at h
    exact .inr (.inr (.inr (.inr (.inr ⟨Prompt.script markdown, rfl, h⟩))))

/-- The checkout of the agent has no references. -/
theorem plain_checkoutStep (checkoutAction : String) : (checkoutStep checkoutAction).Plain := by
  have hplain : (checkoutStep "").Plain :=
    { name := by decide
      id := nofun
      condition := nofun
      entries := by decide
      run := nofun }
  exact hplain.withAction checkoutAction

/-- The step that collects the outputs has no references. -/
theorem plain_collectStep (s : SafeOutputs) (scriptAction : String) :
    (collectStep s scriptAction).Plain where
  name := (by decide : '$' ∉ "Ingest agent output".toList)
  id := by
    rintro _ ⟨⟩
    decide
  condition := nofun
  entries := by
    have hkinds : '$' ∉ (",".intercalate (s.kinds.map (·.outputType))).toList := by
      refine notMem_intercalate (by decide) (List.forall_mem_map.mpr fun kind _ => ?_)
      rw [OutputKind.outputType, String.toList_map]
      cases kind <;> decide
    have hkey : '$' ∉ "GH_AW_ALLOWED_SAFE_OUTPUTS".toList := by decide
    have hrest : ∀ e ∈ [("script", Names.handlerScript "collect_ndjson_output.cjs"),
        ("GH_AW_SAFE_OUTPUTS", Names.safeOutputsFile), ("GH_AW_AGENT_OUTPUT", outputFile)],
        '$' ∉ e.1.toList ∧ '$' ∉ e.2.toList := by decide
    intro e he
    simp only [collectStep, List.cons_append, List.nil_append, List.mem_cons,
      List.not_mem_nil, or_false] at he
    rcases he with rfl | rfl | rfl | rfl
    · exact hrest _ (by simp)
    · exact hrest _ (by simp)
    · exact ⟨hkey, hkinds⟩
    · exact hrest _ (by simp)
  run := nofun

/-- The upload of the outputs has no references. -/
theorem plain_uploadOutputStep (uploadAction : String) : (uploadOutputStep uploadAction).Plain := by
  have hplain : (uploadOutputStep "").Plain :=
    { name := by decide
      id := nofun
      condition := by
        rintro _ ⟨⟩
        decide
      entries := by decide
      run := nofun }
  exact hplain.withAction uploadAction

/-- The step that makes the patch has no references. -/
theorem plain_patchStep : patchStep.Plain where
  name := by decide
  id := by
    rintro _ ⟨⟩
    decide
  condition := by
    rintro _ ⟨⟩
    decide
  entries := by decide
  run := by
    rintro _ ⟨⟩
    exact mt utf8EncodeChar_subset (by decide)

/-- The upload of the patch has no references. -/
theorem plain_uploadPatchStep (uploadAction : String) : (uploadPatchStep uploadAction).Plain := by
  have hplain : (uploadPatchStep "").Plain :=
    { name := by decide
      id := nofun
      condition := by
        rintro _ ⟨⟩
        decide
      entries := by decide
      run := nofun }
  exact hplain.withAction uploadAction

/-- Publishing adds three outputs of steps. -/
theorem mem_outputs_published {s : SafeOutputs} {scriptAction uploadAction text : String}
    (h : text ∈ (published s scriptAction uploadAction job).outputs.values) :
    text ∈ job.outputs.values ∨
      text ∈ [Activation.stepOutput "collect_output" "output",
        Activation.stepOutput "collect_output" "output_types",
        Activation.stepOutput "generate_patch" "has_patch"] := by
  have hcollection : ∀ text ∈ (addCollection s scriptAction uploadAction job).outputs.values,
      text ∈ job.outputs.values ∨ text ∈ [Activation.stepOutput "collect_output" "output",
        Activation.stepOutput "collect_output" "output_types"] := by
    intro text h
    rcases Dictionary.of_mem_values_insert h with rfl | h
    · exact .inr (by simp)
    · exact (Dictionary.of_mem_values_insert h).symm.imp_right fun h => by simp [h]
  unfold published at h
  split at h
  · rcases Dictionary.of_mem_values_insert h with rfl | h
    · exact .inr (by simp)
    · exact (hcollection text h).imp_right fun h => by grind
  · exact (hcollection text h).imp_right fun h => by grind

/-- The conditions of these steps and the outputs refer to steps, and so to no job. -/
theorem needsReferences_conditions :
    ∀ condition ∈ ["always()", "steps.generate_patch.outputs.has_patch == 'true'"],
      (needsReferences condition).toList = [] := by
  decide

/-- These outputs refer to no job. -/
theorem templateReferences_outputs :
    ∀ text ∈ [Activation.stepOutput "collect_output" "output",
      Activation.stepOutput "collect_output" "output_types",
      Activation.stepOutput "generate_patch" "has_patch"],
      (templateReferences text).toList = [] := by
  decide

/-- A pinned action refers to nothing, unless a commit that was looked up does. -/
theorem unsearched_of_pin {pinned : String × String} {action : String}
    (hcatalog : ctx.resolver.catalog = Pin.catalog)
    (hpinned : pinned ∈ [Names.checkoutAction, Names.scriptAction, Names.uploadAction])
    (hpin : ctx.pin pinned = .ok action) (hname : name ∈ (templateReferences action).toList) :
    Unsearched ctx engineSteps name := by
  have hplain : ∀ pinned ∈ [Names.checkoutAction, Names.scriptAction, Names.uploadAction],
      '$' ∉ pinned.1.toList ∧ '$' ∉ pinned.2.toList ∧ '\x7d' ∉ pinned.2.toList := by
    decide
  obtain ⟨hrepo, hversion⟩ := hplain pinned hpinned
  obtain ⟨body, hbody, hname⟩ := mem_templateReferences.mp hname
  obtain ⟨sha, hsha, hbody⟩ := Resolver.templates_of_resolve hcatalog hrepo hversion hpin hbody
  exact .commit hsha (mem_templateReferences.mpr ⟨body, hbody, hname⟩)

/-- The steps up to the agent refer to what was searched, or to what comes from elsewhere. -/
theorem refersTo_mainSteps {checkoutAction : String} {step : JobStep} {condition : Option String}
    (hcatalog : ctx.resolver.catalog = Pin.catalog)
    (hpin : ctx.pin Names.checkoutAction = .ok checkoutAction)
    (hstep : step ∈ mainSteps ctx.workflow checkoutAction engineSteps)
    (hrefers : step.RefersTo name) :
    name ∈ (references ctx.workflow condition).toList ∨ Unsearched ctx engineSteps name := by
  rcases mem_mainSteps.mp hstep with rfl | ⟨s, hs, rfl⟩ | rfl | ⟨v, hv, rfl⟩ | ⟨s, hs, rfl⟩
  · obtain ⟨_, ⟨⟩, -⟩ | ⟨_, ⟨⟩, hname⟩ :=
      (plain_checkoutStep checkoutAction).of_refersTo hrefers
    exact .inr (unsearched_of_pin hcatalog (by simp) hpin hname)
  · exact .inr (.settings hs hrefers)
  · rcases hrefers with ⟨condition, ⟨⟩, -⟩ | hname
    obtain ⟨body, hbody, hname⟩ := mem_templateReferences.mp hname
    exact .inl (mem_references.mpr (.inl
      (mem_templateReferences.mpr ⟨body, mem_templates_promptStep.mp hbody, hname⟩)))
  · exact .inl (mem_references.mpr (.inr (.inr ⟨v, hv, hrefers⟩)))
  · exact .inr (.engine hs hrefers)

/-- The core refers to what was searched, or to what comes from elsewhere. -/
theorem refersTo_core {permissions : Permissions} {checkoutAction : String}
    (hcatalog : ctx.resolver.catalog = Pin.catalog)
    (hpin : ctx.pin Names.checkoutAction = .ok checkoutAction)
    (hrefers : (core ctx activation customJobs hasPreActivation engineSteps permissions
      checkoutAction).RefersTo name) :
    name ∈ (references ctx.workflow (activation.agentCondition.map (·.render))).toList ∨
      Unsearched ctx engineSteps name := by
  rcases Job.refersTo_iff.mp hrefers with hcondition | ⟨step, hstep, hrefers⟩ | ⟨text, htext, -⟩
  · exact .inl (mem_references.mpr (.inr (.inl hcondition)))
  · exact refersTo_mainSteps hcatalog hpin hstep hrefers
  · cases htext

/-- The steps that publish refer to nothing, unless a commit that was looked up does. -/
theorem refersTo_publication {s : SafeOutputs} {scriptAction uploadAction : String} {step : JobStep}
    (hcatalog : ctx.resolver.catalog = Pin.catalog)
    (hscript : ctx.pin Names.scriptAction = .ok scriptAction)
    (hupload : ctx.pin Names.uploadAction = .ok uploadAction)
    (hstep : step ∈ [JobStep.generated (collectStep s scriptAction),
      .generated (uploadOutputStep uploadAction), .generated patchStep,
      .generated (uploadPatchStep uploadAction)])
    (hrefers : step.RefersTo name) : Unsearched ctx engineSteps name := by
  simp only [List.mem_cons, List.not_mem_nil, or_false] at hstep
  rcases hstep with rfl | rfl | rfl | rfl
  · obtain ⟨_, ⟨⟩, -⟩ | ⟨_, ⟨⟩, hname⟩ := (plain_collectStep s scriptAction).of_refersTo hrefers
    exact unsearched_of_pin hcatalog (by simp) hscript hname
  · obtain ⟨_, ⟨⟩, hname⟩ | ⟨_, ⟨⟩, hname⟩ :=
      (plain_uploadOutputStep uploadAction).of_refersTo hrefers
    · rw [needsReferences_conditions _ (by simp)] at hname
      cases hname
    · exact unsearched_of_pin hcatalog (by simp) hupload hname
  · obtain ⟨_, ⟨⟩, hname⟩ | ⟨_, ⟨⟩, -⟩ := plain_patchStep.of_refersTo hrefers
    rw [needsReferences_conditions _ (by simp)] at hname
    cases hname
  · obtain ⟨_, ⟨⟩, hname⟩ | ⟨_, ⟨⟩, hname⟩ :=
      (plain_uploadPatchStep uploadAction).of_refersTo hrefers
    · rw [needsReferences_conditions _ (by simp)] at hname
      cases hname
    · exact unsearched_of_pin hcatalog (by simp) hupload hname

/-- What is published refers to the same, unless a commit that was looked up does. -/
theorem refersTo_published {s : SafeOutputs} {scriptAction uploadAction : String}
    (hcatalog : ctx.resolver.catalog = Pin.catalog)
    (hscript : ctx.pin Names.scriptAction = .ok scriptAction)
    (hupload : ctx.pin Names.uploadAction = .ok uploadAction)
    (hrefers : (published s scriptAction uploadAction job).RefersTo name) :
    job.RefersTo name ∨ Unsearched ctx engineSteps name := by
  have hbase : ∀ {text : String}, text ∈ job.env.values ++ job.concurrency.toList →
      text ∈ job.outputs.values ++ job.env.values ++ job.concurrency.toList := fun h => by
    rw [List.append_assoc]
    exact List.mem_append_right _ h
  have hframe : (published s scriptAction uploadAction job).env = job.env ∧
      (published s scriptAction uploadAction job).concurrency = job.concurrency := by
    cases htree : s.kinds.any (·.requiresWorkingTree) <;>
      simp [published, htree, addCollection, addPatch, Job.step, Job.addSteps, Job.output]
  -- the condition is kept, steps and outputs are added, and the rest is framed
  rcases Job.refersTo_iff.mp hrefers with hcondition | ⟨step, hstep, hrefers⟩ | ⟨text, htext, hname⟩
  · rw [published_condition] at hcondition
    exact .inl (Job.refersTo_iff.mpr (.inl hcondition))
  · rcases mem_steps_published hstep with hstep | hstep
    · exact .inl (Job.refersTo_iff.mpr (.inr (.inl ⟨step, hstep, hrefers⟩)))
    · exact .inr (refersTo_publication hcatalog hscript hupload hstep hrefers)
  · rw [hframe.1, hframe.2, List.append_assoc, List.mem_append] at htext
    rcases htext with htext | htext
    · rcases mem_outputs_published htext with htext | htext
      · exact .inl (Job.refersTo_iff.mpr (.inr (.inr ⟨text, by simp [htext], hname⟩)))
      · rw [templateReferences_outputs text htext] at hname
        cases hname
    · exact .inl (Job.refersTo_iff.mpr (.inr (.inr ⟨text, hbase htext, hname⟩)))

/-- **What the agent job refers to** was searched for, or stands in one of the other texts. -/
theorem refersTo_of_build (hcatalog : ctx.resolver.catalog = Pin.catalog)
    (h : build ctx activation customJobs hasPreActivation engineSteps = .ok job)
    (hrefers : job.RefersTo name) :
    name ∈ (references ctx.workflow (activation.agentCondition.map (·.render))).toList ∨
      Unsearched ctx engineSteps name := by
  obtain ⟨permissions, checkoutAction, hcheckout,
    ⟨-, rfl⟩ | ⟨s, scriptAction, uploadAction, -, hscript, hupload, rfl⟩⟩ := build_eq_ok h
  · exact refersTo_core hcatalog hcheckout hrefers
  · rcases refersTo_published hcatalog hscript hupload hrefers with hrefers | hunsearched
    · exact refersTo_core hcatalog hcheckout hrefers
    · exact .inr hunsearched

end Agent

/-! ### Pipelines without references -/

/-- The download of the outputs has no references. -/
theorem Dispatch.plain_downloadOutputStep (downloadAction : String) :
    (downloadOutputStep downloadAction).Plain := by
  have hplain : (downloadOutputStep "").Plain := ⟨by decide, nofun, nofun, by decide, nofun⟩
  exact hplain.withAction downloadAction

namespace Compiler

/-- **An agent job that refers to nothing**: what is searched refers to nothing, the settings of the
outputs are plain, and so are the steps of the default engine. -/
theorem covered_agent_of_plain {w : Workflow} {g : Generated}
    (hg : running.Generates (running.context w none) g) (hengine : w.engine = .default)
    (hsearched :
      (Agent.references w (g.activation.agentCondition.map (·.render))).toList = [])
    (hsettings : ∀ s, w.outputs = some s → (Agent.setupStep s).Plain) : g.agent.Covered := by
  have hcommit : (templateReferences "11bd719").toList = [] := by decide
  refine Job.covered_iff.mpr fun name hrefers => ?_
  rcases Agent.refersTo_of_build rfl hg.agent hrefers with hname | ⟨hs, h⟩ | ⟨hstep, h⟩ | ⟨hsha, h⟩
  · change name ∈ (Agent.references w _).toList at hname
    rw [hsearched] at hname
    cases hname
  · obtain ⟨_, ⟨⟩, -⟩ | ⟨_, ⟨⟩, -⟩ := (hsettings _ hs).of_refersTo h
  · change _ ∈ w.engine.steps w at hstep
    rw [hengine] at hstep
    have hplain := Engine.plain_of_mem_steps hstep
    obtain rfl := List.mem_singleton.mp hstep
    obtain ⟨_, ⟨⟩, -⟩ | ⟨_, ⟨⟩, -⟩ := hplain.of_refersTo h
  · obtain rfl := Option.some.inj hsha
    rw [hcommit] at h
    cases h

/-- **The needs of the agent job.** If the engine of the workflow runs the agent, then the
agent job needs each job of the author that it refers to, unless the reference stands in a
text that is not searched. -/
theorem mem_needs_of_refersTo {c : Compiler} {w : Workflow} {sourceStem : Option String}
    {g : Generated} {custom : CustomJob} (hengine : c.engine = none)
    (hg : c.Generates (c.context w sourceStem) g) (hcustom : custom ∈ g.customJobs)
    (hrefers : g.agent.RefersTo custom.name) :
    custom.name ∈ g.agent.needs ∨
      Agent.Unsearched (c.context w sourceStem) (w.engine.steps w) custom.name := by
  have hsteps : c.engineSteps w = w.engine.steps w := by rw [engineSteps, hengine]
  refine (Agent.refersTo_of_build rfl (hsteps ▸ hg.agent) hrefers).imp_left fun hname => ?_
  rw [hg.agent_place.2, Agent.mem_needs, Agent.referencedJobs, List.mem_filter]
  refine .inr ⟨hname, ?_⟩
  rw [Bool.or_eq_true, List.any_eq_true]
  exact .inl ⟨custom, hcustom, beq_self_eq_true _⟩

/-- A job of the author. -/
def fetchJob : CustomJob := ⟨"fetch", [], [(.string "steps", .sequence [])]⟩

/-- A workflow with a job of the author, a prompt, and a command that runs the agent. -/
def fetching (prompt : String) (command : Option String) : Workflow :=
  { Workflow.named "plan" with
    triggers := .ofList [("schedule", .null)]
    jobs := .ofList [(fetchJob.name, .mapping fetchJob.definition)]
    engine := { Engine.default with command }
    markdown := prompt }

/-- What is generated from such a workflow. -/
def fetched (prompt : String) (command : Option String) : Generated :=
  let w := fetching prompt command
  ⟨[fetchJob], none, ⟨none, none⟩,
    Agent.core (running.context w none) ⟨none, none⟩ [fetchJob] false (w.engine.steps w)
      (.shorthand .readAll) "actions/checkout@11bd719 # v5.0.0", none⟩

/-- The jobs of such a workflow, as they are generated. -/
theorem generates_fetched (prompt : String) (command : Option String) :
    running.Generates (running.context (fetching prompt command) none)
      (fetched prompt command) :=
  ⟨rfl, rfl, rfl, rfl, rfl⟩

/-- The prompt is searched, and so a job that it refers to is needed. -/
theorem mem_needs_of_refersTo_fetched :
    let g := fetched "Follow $\x7b\x7b needs.fetch.outputs.plan \x7d\x7d." none
    g.agent.RefersTo "fetch" ∧ "fetch" ∈ g.agent.needs := by
  intro g
  have hrefers : g.agent.RefersTo "fetch" := by
    have hname : "fetch" ∈ (templateReferences
        "Follow $\x7b\x7b needs.fetch.outputs.plan \x7d\x7d.").toList := by decide
    obtain ⟨body, hbody, hname⟩ := mem_templateReferences.mp hname
    have hprompt := mem_templateReferences.mpr
      ⟨body, Agent.mem_templates_promptStep.mpr hbody, hname⟩
    exact Job.refersTo_iff.mpr
      (.inr (.inl ⟨_, Agent.mem_mainSteps.mpr (.inr (.inr (.inl rfl))), .inr hprompt⟩))
  refine ⟨hrefers, ?_⟩
  rcases mem_needs_of_refersTo rfl (generates_fetched _ _) (List.mem_singleton_self fetchJob)
    hrefers with hneeds | ⟨⟨⟩, -⟩ | ⟨hstep, h⟩ | ⟨hsha, h⟩
  · exact hneeds
  · obtain rfl := List.mem_singleton.mp hstep
    obtain ⟨_, ⟨⟩, -⟩ | ⟨_, ⟨⟩, -⟩ := (Engine.plain_of_mem_steps hstep).of_refersTo h
  · obtain rfl := Option.some.inj hsha
    exact absurd h (by decide)

/-- The command of the engine is not searched, and so a job that it refers to may be missing
among those that the agent job needs. -/
theorem exists_refersTo_notMem_needs :
    ∃ g, running.Generates (running.context
        (fetching "" (some "run $\x7b\x7b needs.fetch.outputs.plan \x7d\x7d")) none) g ∧
      ∃ custom ∈ g.customJobs, g.agent.RefersTo custom.name ∧ custom.name ∉ g.agent.needs := by
  refine ⟨_, generates_fetched _ _, fetchJob, List.mem_singleton_self _, ?_, by decide⟩
  have hbody : " needs.fetch.outputs.plan " ∈ templates (Yaml.entry (Step.column + 2) "run"
      "run $\x7b\x7b needs.fetch.outputs.plan \x7d\x7d") := by decide +kernel
  have hname : "fetch" ∈ (needsReferences " needs.fetch.outputs.plan ").toList := by decide
  refine Job.refersTo_iff.mpr (.inr (.inl ⟨_, Agent.mem_mainSteps.mpr
    (.inr (.inr (.inr (.inr ⟨_, List.mem_singleton_self _, rfl⟩)))), .inr ?_⟩))
  refine mem_templateReferences.mpr ⟨_, Step.mem_templates_render.mpr ?_, hname⟩
  exact .inr (.inr (.inr (.inr (.inr ⟨_, rfl, hbody⟩))))

end Compiler

end AgentPipeline
