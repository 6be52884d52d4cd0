import AgentPipeline.Proofs.Job.Grounded
import AgentPipeline.Proofs.Pipeline.Coverage
import AgentPipeline.Proofs.Pipeline.Guarantee

/-!
# Which texts an author supplies

Some texts of a workflow reach the control jobs as they are: its name, its condition, the
prompt, tokens, what its engine runs. What an author refers to there is his own business.
`Compiler.Supplies` lists these texts with the places that they are put at. The list holds no
output, and no condition of a step but those of a caller's engine.

Apart from these texts, no step of the pre-activation job, the activation job or the agent job
has any reference, with one exception: the patch is only published if the step in front has
made one.
-/

namespace AgentPipeline

open Reference

variable {c : Compiler} {ctx : Context} {s : SafeOutputs} {resolves : Target → Prop}
  {scriptAction uploadAction : String}

/-! ### Supplied texts -/

/-- A workflow has this token somewhere. -/
inductive Workflow.HasToken (w : Workflow) : String → Prop
  | workflow {token : String} : w.githubToken = some token → HasToken w token
  | section {s : SafeOutputs} {token : String} : w.outputs = some s →
      s.githubToken = some token → HasToken w token
  | kind {s : SafeOutputs} {kind : OutputKind} {settings : OutputSettings} {token : String} :
      w.outputs = some s → s.outputs kind = some settings → settings.githubToken = some token →
      HasToken w token

/-- **What a workflow supplies** to the generated steps, and where. -/
inductive Context.Supplies (ctx : Context) : Step.Place → String → Prop
  | workflowName : Supplies ctx (.variable "GH_AW_WORKFLOW_NAME") ctx.workflow.name
  /-- the name of the file that the pipeline is written to -/
  | workflowFile : Supplies ctx (.variable "GH_AW_WORKFLOW_FILE") (ctx.fileStem ++ ".lock.yml")
  | roles : Supplies ctx (.variable "GH_AW_REQUIRED_ROLES")
      (",".intercalate ctx.workflow.roles.members)
  | deadline {value deadline : String} : ctx.workflow.stopTime = some value →
      Deadline.resolve value ctx.now = .ok deadline →
      Supplies ctx (.variable "GH_AW_STOP_TIME") deadline
  | query {q : SkipQuery} :
      ctx.workflow.skipIfMatch = some q ∨ ctx.workflow.skipIfNoMatch = some q →
      Supplies ctx (.variable "GH_AW_SKIP_QUERY") q.query
  | reactionName {reaction : String} : ctx.workflow.reaction = some reaction →
      Supplies ctx .name reaction
  | reaction {reaction : String} : ctx.workflow.reaction = some reaction →
      Supplies ctx (.variable "GH_AW_REACTION") reaction
  /-- the settings of the outputs as JSON -/
  | settings {s : SafeOutputs} {kinds : List OutputKind} {key : String} :
      ctx.workflow.outputs = some s →
      key ∈ "GH_AW_SAFE_OUTPUTS_CONFIG" :: Dispatch.configVariables →
      Supplies ctx (.variable key) (s.handlerConfig kinds)
  | tokenInput {key token : String} : key ∈ ["github-token", "token"] →
      ctx.workflow.HasToken token → Supplies ctx (.input key) token
  | tokenVariable {token : String} : ctx.workflow.HasToken token →
      Supplies ctx (.variable "GIT_TOKEN") token
  | prompt : Supplies ctx .run (Prompt.trimLineFeeds ctx.workflow.markdown)
  /-- a commit that the caller's look-up finds -/
  | commit {repo version sha : String} : ctx.resolver.lookup repo version = some sha →
      Supplies ctx .action sha

/-- **What an engine supplies** to the step that runs the agent. -/
inductive Engine.Supplies (e : Engine) : Step.Place → String → Prop
  | name : Supplies e .name e.id
  | program : Supplies e .run e.id
  | command {command : String} : e.command = some command → Supplies e .run command
  | variable {key value : String} : (key, value) ∈ e.env.entries →
      Supplies e (.variable key) value

/-- **What is supplied** to the control jobs of a workflow: to which of them, and where. -/
inductive Compiler.Supplies (c : Compiler) (ctx : Context) : String → Job.Place → String → Prop
  | runner {job : String} : Supplies c ctx job .runner ctx.runner
  | outputsRunner {s : SafeOutputs} {runner : String} : ctx.workflow.outputs = some s →
      s.runsOn = some runner → Supplies c ctx Names.safeOutputsJob .runner runner
  | environment {text : String} : ctx.workflow.environment = some text →
      Supplies c ctx Names.agentJob .environment text
  /-- the condition of the workflow as it is written again -/
  | condition {job : String} {condition : Condition} :
      job ∈ [Names.activationJob, Names.agentJob] →
      ctx.workflow.condition.mapM Activation.readCondition = .ok (some condition) →
      Supplies c ctx job .condition condition.render
  | workflowName :
      Supplies c ctx Names.safeOutputsJob (.variable "GH_AW_WORKFLOW_NAME") ctx.workflow.name
  | step {job : String} {s : Step} {place : Step.Place} {text : String} :
      ctx.Supplies place text → Supplies c ctx job (.step s place) text
  | engine {s : Step} {place : Step.Place} {text : String} : c.engine = none →
      s ∈ c.engineSteps ctx.workflow → ctx.workflow.engine.Supplies place text →
      Supplies c ctx Names.agentJob (.step s place) text
  /-- any text of a step of an engine that the caller brings -/
  | caller {steps : Workflow → List Step} {s : Step} {place : Step.Place} {text : String} :
      c.engine = some steps → s ∈ steps ctx.workflow →
      Supplies c ctx Names.agentJob (.step s place) text

/-! ### Parts of steps -/

/-- The text of a number names nothing. -/
theorem grounded_toString {supplied : String → Prop} (n : Nat) :
    Grounded supplied resolves (toString n) := by
  refine .of_eq_nil (targets_eq_nil_of_notMem fun hpoint => ?_)
  rw [Nat.toString_eq_ofList_toDigits, String.toList_ofList] at hpoint
  exact absurd (Nat.isDigit_of_mem_toDigits (by decide) (by decide) hpoint) (by decide)

/-- The script of a handler names nothing, as its path has one point at most. -/
theorem grounded_handlerScript {supplied : String → Prop} {file : String}
    (h : file.toList.count '.' ≤ 1) : Grounded supplied resolves (Names.handlerScript file) := by
  have hfront : Opens ("const \x7b main \x7d = require('" ++ Names.actionsDir ++ "/") ∧
      targets ("const \x7b main \x7d = require('" ++ Names.actionsDir ++ "/") = [] := by
    decide +kernel
  have hback : Closes "');\nawait main();" ∧ targets "');\nawait main();" = [] := by
    decide +kernel
  refine (Grounded.of_count h).enclose hfront.1 hback.1 ?_
  rw [hfront.2, hback.2]
  exact List.forall_mem_nil _

/-- A script that is put together from stretches that name nothing. -/
theorem grounded_script {supplied : String → Prop} {first : String} {rest : List String}
    (h : ∀ part ∈ first :: rest, Opens part ∧ part.toList ≠ [] ∧ targets part = []) :
    Grounded supplied resolves (rest.foldl (· ++ ·) first) := by
  refine .of_eq_nil ?_
  induction rest generalizing first with
  | nil => exact (h first List.mem_cons_self).2.2
  | cons part rest ih =>
      rw [List.forall_mem_cons, List.forall_mem_cons] at h
      obtain ⟨⟨hfirst, -, hnil⟩, ⟨hpart, hne, hnil'⟩, hrest⟩ := h
      have hboth : targets (first ++ part) = [] := by
        rw [targets_append (.inl hfirst), hnil, hnil', List.append_nil]
      have hne' : (first ++ part).toList ≠ [] := by
        rw [String.toList_append]
        exact List.append_ne_nil_of_right_ne_nil _ hne
      exact ih (List.forall_mem_cons.mpr ⟨⟨hpart.append hne first, hne', hboth⟩, hrest⟩)

/-- **Actions** have no references but those in a commit that the caller looked up. -/
theorem Context.grounded_of_pin (hcatalog : ctx.resolver.catalog = Pin.catalog)
    {a : String × String} (ha : a ∈ Names.actions) {action : String}
    (h : ctx.pin a = .ok action) : Grounded (ctx.Supplies .action) resolves action := by
  have hat : Separator "@" := ⟨by decide, by decide, by decide, by decide +kernel⟩
  have hcomment : Separator " # " := ⟨by decide, by decide, by decide, by decide +kernel⟩
  -- the repositories and versions that occur are known, and name nothing
  have hrepos : ∀ a ∈ Names.actions, a.1.toList.count '.' ≤ 1 := by decide
  have hversions : ∀ version ∈ Names.actions.map (·.2) ++ Pin.bundled.map (·.version),
      targets version = [] := by
    decide +kernel
  -- the pins are compared byte by byte, since the texts are long
  have hshas : ∀ pin ∈ Pin.bundled,
      ¬String.utf8EncodeChar '.' ⊆ pin.sha.toByteArray.data.toList := by
    decide
  have hopens : Opens (a.1 ++ "@") := hat.opens.append hat.ne_nil a.1
  have hrepo : targets (a.1 ++ "@") = [] := by
    rw [hat.targets_append, targets_eq_nil_of_count (hrepos a ha)]
  have hversion : ∀ version ∈ Names.actions.map (·.2) ++ Pin.bundled.map (·.version),
      Closes (" # " ++ version) ∧ targets (" # " ++ version) = [] := fun version hmem => by
    rw [hcomment.append_targets, hversions version hmem]
    exact ⟨hcomment.closes.append hcomment.ne_nil version, rfl⟩
  unfold pin Resolver.resolve at h
  split at h
  -- a commit that was looked up is supplied, and stands between `@` and the comment
  · next sha hlookup =>
    obtain rfl := Except.ok.inj h
    obtain ⟨hcloses, hnil⟩ := hversion a.2 (List.mem_append_left _ (List.mem_map_of_mem ha))
    rw [Pin.reference, String.append_assoc]
    exact .between (.commit hlookup) hopens hcloses hrepo hnil
  · split at h
    -- a pin of the catalog names nothing
    · next pin hpin =>
      obtain rfl := Except.ok.inj h
      have hmem : pin ∈ Pin.bundled :=
        List.mem_mergeSort.mp (hcatalog ▸ List.mem_of_mem_filter (Resolver.mem_of_choose hpin))
      obtain ⟨hcloses, hnil⟩ :=
        hversion pin.version (List.mem_append_right _ (List.mem_map_of_mem hmem))
      refine .of_eq_nil ?_
      have hsha : '.' ∉ pin.sha.toList := mt utf8EncodeChar_subset (hshas pin hmem)
      rw [Pin.reference, String.append_assoc, targets_enclosed hopens hcloses, hrepo, hnil,
        targets_eq_nil_of_notMem hsha]
      rfl
    · split at h
      · cases h
      · obtain rfl := Except.ok.inj h
        refine .of_eq_nil ?_
        rw [targets_append (.inl hopens), hrepo,
          hversions a.2 (List.mem_append_left _ (List.mem_map_of_mem ha))]
        rfl

namespace Workflow

variable {w : Workflow}

/-- The token of the handlers is a token of the workflow, or names nothing. -/
theorem grounded_standardToken {supplied : String → Prop}
    (hsupplied : ∀ token, w.HasToken token → supplied token) (hs : w.outputs = some s) :
    Grounded supplied resolves (s.standardToken w.githubToken) := by
  unfold SafeOutputs.standardToken
  cases hsection : s.githubToken with
  | some token => exact .whole (hsupplied token (.section hs hsection))
  | none =>
      cases hworkflow : w.githubToken with
      | some token => exact .whole (hsupplied token (.workflow hworkflow))
      | none =>
          have hdefault : targets Names.defaultSafeOutputsToken = [] := by decide +kernel
          exact .of_eq_nil hdefault

/-- The token of a kind is a token of the workflow or the one of the runner. -/
theorem grounded_kindToken {supplied : String → Prop}
    (hsupplied : ∀ token, w.HasToken token → supplied token) (hs : w.outputs = some s)
    (kind : OutputKind) : Grounded supplied resolves (s.kindToken kind w.githubToken) := by
  unfold SafeOutputs.kindToken
  cases htoken : (s.outputs kind).bind (·.githubToken) with
  | some token =>
      obtain ⟨settings, hsettings, htoken⟩ := Option.bind_eq_some_iff.mp htoken
      exact .whole (hsupplied token (.kind hs hsettings htoken))
  | none => exact grounded_standardToken hsupplied hs

/-- The token of the project handler is a token of the workflow or the default secret. -/
theorem grounded_projectToken {supplied : String → Prop}
    (hsupplied : ∀ token, w.HasToken token → supplied token) (hs : w.outputs = some s)
    {strict : Bool} {token : String} (h : s.projectToken strict = .ok token) :
    Grounded supplied resolves token := by
  have hdefault : Names.defaultProjectToken.toList.count '.' ≤ 1 := by decide
  unfold SafeOutputs.projectToken at h
  dsimp only at h
  split at h
  · next token' htoken =>
    obtain rfl := Except.ok.inj h
    obtain ⟨kind, -, htoken⟩ := List.exists_of_findSome?_eq_some htoken
    obtain ⟨settings, hsettings, htoken⟩ := Option.bind_eq_some_iff.mp htoken
    exact .whole (hsupplied token' (.kind hs hsettings htoken))
  · split at h
    · split at h
      · cases h
      · obtain rfl := Except.ok.inj h
        exact .of_count hdefault
    · obtain rfl := Except.ok.inj h
      exact .of_count hdefault

end Workflow

/-! ### The steps of the first jobs -/

/-- The steps of the pre-activation job have no references of their own. -/
theorem Check.isGrounded_step {check : Check}
    (haction : Grounded (ctx.Supplies .action) resolves scriptAction)
    (hname : check.name.toList.count '.' ≤ 1) (hscript : check.script.toList.count '.' ≤ 1)
    (henv : ∀ e ∈ check.env, Grounded (ctx.Supplies (.variable e.1)) resolves e.2) :
    (check.step scriptAction).IsGrounded ctx.Supplies resolves where
  name := .of_count hname
  condition := nofun
  action := by
    rintro _ ⟨⟩
    exact haction
  inputs := by
    have htoken : Names.githubToken.toList.count '.' ≤ 1 := by decide
    intro e he
    simp only [step, inputs, List.mem_append, List.mem_singleton] at he
    rcases he with he | rfl
    · split at he
      · obtain rfl := List.mem_singleton.mp he
        exact .of_count htoken
      · cases he
    · exact grounded_handlerScript hscript
  env := henv
  run := nofun

/-- The steps of the checks name nothing but what is supplied. -/
theorem Workflow.isGrounded_checks
    (haction : Grounded (ctx.Supplies .action) resolves scriptAction)
    {deadline : Option String}
    (hdeadline : ctx.workflow.stopTime.mapM (fun value =>
      (Deadline.resolve value ctx.now).mapError CompileError.config) = .ok deadline) :
    ∀ check ∈ ctx.workflow.checks deadline,
      (check.step scriptAction).IsGrounded ctx.Supplies resolves := by
  refine forall_mem_checks.mpr ⟨fun _ => ?_, forall_mem_gateChecks.mpr ⟨?_, ?_, ?_⟩⟩
  -- each check has a name and a script with one point at most, and its own variables
  · refine Check.isGrounded_step haction
      (by decide : "Check team membership for workflow".toList.count '.' ≤ 1)
      (by decide : "check_membership.cjs".toList.count '.' ≤ 1) ?_
    exact List.forall_mem_singleton.mpr (.whole .roles)
  · rintro d rfl
    refine Check.isGrounded_step haction
      (by decide : "Check stop-time limit".toList.count '.' ≤ 1)
      (by decide : "check_stop_time.cjs".toList.count '.' ≤ 1) ?_
    simp only [Check.stopTime, List.forall_mem_cons]
    refine ⟨?_, .whole .workflowName, List.forall_mem_nil _⟩
    cases hstop : ctx.workflow.stopTime with
    | none => rw [hstop] at hdeadline; cases hdeadline
    | some value =>
        rw [hstop] at hdeadline
        obtain ⟨_, hresolve, ⟨⟩⟩ := map_eq_ok_iff.mp hdeadline
        exact .whole (.deadline hstop (mapError_eq_ok_iff.mp hresolve))
  · intro q hq
    refine Check.isGrounded_step haction
      (by decide : "Check skip-if-match query".toList.count '.' ≤ 1)
      (by decide : "check_skip_if_match.cjs".toList.count '.' ≤ 1) ?_
    simp only [Check.skipIfMatch, List.forall_mem_cons]
    exact ⟨.whole (.query (.inl hq)), .whole .workflowName, grounded_toString _,
      List.forall_mem_nil _⟩
  · intro q hq
    refine Check.isGrounded_step haction
      (by decide : "Check skip-if-no-match query".toList.count '.' ≤ 1)
      (by decide : "check_skip_if_no_match.cjs".toList.count '.' ≤ 1) ?_
    simp only [Check.skipIfNoMatch, List.forall_mem_cons]
    exact ⟨.whole (.query (.inr hq)), .whole .workflowName, grounded_toString _,
      List.forall_mem_nil _⟩

namespace Activation

/-- The step that compares the age of the lock file names nothing but what is supplied. -/
theorem isGrounded_timestampStep
    (haction : Grounded (ctx.Supplies .action) resolves scriptAction) :
    (timestampStep ctx scriptAction).IsGrounded ctx.Supplies resolves where
  name := .of_count (by decide : "Check workflow file timestamps".toList.count '.' ≤ 1)
  condition := nofun
  action := by
    rintro _ ⟨⟩
    exact haction
  inputs := by
    have hscript : "check_workflow_timestamp_api.cjs".toList.count '.' ≤ 1 := by decide
    exact List.forall_mem_singleton.mpr (grounded_handlerScript hscript)
  env := List.forall_mem_singleton.mpr (.whole .workflowFile)
  run := nofun

/-- The events of a workflow that an item can be reacted to or locked for. -/
theorem targets_anyEvent {w : Workflow} {events : List String}
    (h : events ∈ [Names.reactionEvents, Names.lockableEvents]) :
    targets (Clause.anyEvent (startingEvents w events)).render = [] := by
  have hevents : ∀ events ∈ [Names.reactionEvents, Names.lockableEvents], ∀ event ∈ events,
      (Clause.eventIs event).render.toList.count '.' ≤ 1 := by
    decide
  rw [Clause.anyEvent, targets_disjunction (List.forall_mem_map.mpr fun _ _ => rfl),
    List.flatMap_map, List.flatMap_eq_nil_iff]
  exact fun event hevent =>
    targets_eq_nil_of_count (hevents events h event (List.mem_of_mem_filter hevent))

/-- The step that reacts to the event names nothing but what is supplied. -/
theorem isGrounded_reactionStep
    (haction : Grounded (ctx.Supplies .action) resolves scriptAction) {reaction : String}
    (hreaction : ctx.workflow.reaction = some reaction) :
    (reactionStep ctx.workflow reaction (startingEvents ctx.workflow Names.reactionEvents)
      scriptAction).IsGrounded ctx.Supplies resolves where
  name := .between (.reactionName hreaction) (by decide) (by decide)
    (targets_eq_nil_of_count (by decide)) (targets_eq_nil_of_count (by decide))
  condition := by
    rintro _ ⟨⟩
    exact .of_eq_nil (targets_anyEvent (by simp))
  action := by
    rintro _ ⟨⟩
    exact haction
  inputs := by
    have hscript : "add_reaction_and_edit_comment.cjs".toList.count '.' ≤ 1 := by decide
    exact List.forall_mem_singleton.mpr (grounded_handlerScript hscript)
  env := by
    simp only [reactionStep, List.forall_mem_cons]
    exact ⟨.whole (.reaction hreaction), .whole .workflowName, List.forall_mem_nil _⟩
  run := nofun

/-- The step that locks the issue names nothing but what is supplied. -/
theorem isGrounded_lockStep (w : Workflow)
    (haction : Grounded (ctx.Supplies .action) resolves scriptAction) :
    (lockStep (startingEvents w Names.lockableEvents) scriptAction).IsGrounded
      ctx.Supplies resolves where
  name := .of_count (by decide : "Lock issue for agent workflow".toList.count '.' ≤ 1)
  condition := by
    rintro _ ⟨⟩
    exact .of_eq_nil (targets_anyEvent (by simp))
  action := by
    rintro _ ⟨⟩
    exact haction
  inputs := by
    have hscript : "lock-issue.cjs".toList.count '.' ≤ 1 := by decide
    exact List.forall_mem_singleton.mpr (grounded_handlerScript hscript)
  env := List.forall_mem_nil _
  run := nofun

end Activation

/-! ### The steps of the agent job -/

/-- The engine of a workflow runs what it supplies. -/
theorem Engine.isGrounded_of_mem_steps {e : Engine} {w : Workflow} {step : Step}
    (hstep : step ∈ e.steps w) : step.IsGrounded e.Supplies resolves := by
  obtain rfl := List.mem_singleton.mp hstep
  refine ⟨?_, nofun, nofun, List.forall_mem_nil _, ?_, ?_⟩
  -- the name holds the one of the engine, the variables have the author's at the end
  · exact .between .name (by decide) (by decide) (targets_eq_nil_of_count (by decide))
      (targets_eq_nil_of_count (by decide))
  · have hpaths : ∀ path ∈ [Names.promptPath, Names.safeOutputsFile],
        path.toList.count '.' ≤ 1 := by
      decide
    intro entry hentry
    simp only [List.mem_append, List.mem_singleton] at hentry
    rcases hentry with (rfl | hentry) | hentry
    · exact .of_count (hpaths _ (by simp))
    · split at hentry
      · obtain rfl := List.mem_singleton.mp hentry
        exact .of_count (hpaths _ (by simp))
      · cases hentry
    · exact .whole (.variable hentry)
  · rintro _ ⟨⟩
    unfold commandLine
    cases hcommand : e.command with
    | some command => exact .whole (.command hcommand)
    | none =>
        -- without a command the line is the program with the prompt behind it
        have hprompt : Closes " \"$(cat \"$GH_AW_PROMPT\")\"" ∧
            " \"$(cat \"$GH_AW_PROMPT\")\"".toList.count '.' ≤ 1 := by
          decide
        have hempty : Opens "" ∧ "".toList.count '.' ≤ 1 := by decide
        have h : Grounded (e.Supplies .run) resolves _ :=
          Grounded.between .program hempty.1 hprompt.1
            (targets_eq_nil_of_count hempty.2) (targets_eq_nil_of_count hprompt.2)
        rwa [String.empty_append] at h

namespace Agent

/-- The checkout of the agent names nothing but what is supplied. -/
theorem isGrounded_checkoutStep {checkoutAction : String}
    (haction : Grounded (ctx.Supplies .action) resolves checkoutAction) :
    (checkoutStep checkoutAction).IsGrounded ctx.Supplies resolves := by
  have htexts : ∀ text ∈ (checkoutStep "").texts, text.toList.count '.' ≤ 1 := by decide
  exact Step.isGrounded_of_texts htexts (by rintro _ ⟨⟩; exact haction)

/-- The step that writes the handler configuration names nothing but what is supplied. -/
theorem isGrounded_setupStep (hs : ctx.workflow.outputs = some s) :
    (setupStep s).IsGrounded ctx.Supplies resolves where
  name := .of_count (by decide : "Setup safe outputs".toList.count '.' ≤ 1)
  condition := nofun
  action := nofun
  inputs := List.forall_mem_nil _
  env := by
    have hfile : Names.safeOutputsFile.toList.count '.' ≤ 1 := by decide
    simp only [setupStep, List.forall_mem_cons]
    exact ⟨.of_count hfile, .whole (.settings hs (by simp)), List.forall_mem_nil _⟩
  run := by
    rintro _ ⟨⟩
    have hparts : ∀ part ∈ ["mkdir -p \"$(dirname \"$GH_AW_SAFE_OUTPUTS\")\"\n",
        "touch \"$GH_AW_SAFE_OUTPUTS\"\n", "echo \"$GH_AW_SAFE_OUTPUTS_CONFIG\" > ",
        "\"$(dirname \"$GH_AW_SAFE_OUTPUTS\")/config.json\""],
        Opens part ∧ part.toList ≠ [] ∧ targets part = [] := by
      decide +kernel
    exact grounded_script hparts

/-- The script that writes the prompt has the references of the prompt. -/
theorem isGrounded_promptStep :
    (promptStep ctx.workflow.markdown).IsGrounded ctx.Supplies resolves where
  name := .of_count (by decide : "Create prompt".toList.count '.' ≤ 1)
  condition := nofun
  action := nofun
  inputs := List.forall_mem_nil _
  env := List.forall_mem_singleton.mpr
    (.of_count (by decide : Names.promptPath.toList.count '.' ≤ 1))
  run := by
    rintro _ ⟨⟩
    obtain ⟨n, hn⟩ := Prompt.delimiter_eq_candidate (Prompt.trimLineFeeds ctx.workflow.markdown)
    have hmark : '.' ∉ (Prompt.candidate n).toList :=
      Prompt.notMem_candidate (by decide) (by decide) n
    rw [Prompt.script_eq, hn, String.append_assoc]
    refine .between .prompt ?_ ?_ (targets_eq_nil_of_notMem ?_) (targets_eq_nil_of_notMem ?_)
    · exact Opens.append (by decide) (by decide) _
    · exact Closes.append (by decide) (by decide) _
    · simp [hmark]
    · simp [hmark]

/-- The step that collects the outputs names nothing but what is supplied. -/
theorem isGrounded_collectStep
    (haction : Grounded (ctx.Supplies .action) resolves scriptAction) :
    (collectStep s scriptAction).IsGrounded ctx.Supplies resolves where
  name := .of_count (by decide : "Ingest agent output".toList.count '.' ≤ 1)
  condition := nofun
  action := by
    rintro _ ⟨⟩
    exact haction
  inputs := by
    have hscript : "collect_ndjson_output.cjs".toList.count '.' ≤ 1 := by decide
    exact List.forall_mem_singleton.mpr (grounded_handlerScript hscript)
  env := by
    have hfiles : ∀ file ∈ [Names.safeOutputsFile, outputFile], file.toList.count '.' ≤ 1 := by
      decide
    have hkinds : '.' ∉ (",".intercalate (s.kinds.map (·.outputType))).toList :=
      notMem_intercalate (by decide) (List.forall_mem_map.mpr fun kind _ =>
        OutputKind.notMem_outputType (by decide) (by decide))
    simp only [collectStep, List.forall_mem_cons]
    exact ⟨.of_count (hfiles _ (by simp)), .of_eq_nil (targets_eq_nil_of_notMem hkinds),
      .of_count (hfiles _ (by simp)), List.forall_mem_nil _⟩
  run := nofun

/-- The upload of the outputs names nothing but what is supplied. -/
theorem isGrounded_uploadOutputStep
    (haction : Grounded (ctx.Supplies .action) resolves uploadAction) :
    (uploadOutputStep uploadAction).IsGrounded ctx.Supplies resolves := by
  have htexts : ∀ text ∈ (uploadOutputStep "").texts, text.toList.count '.' ≤ 1 := by decide
  exact Step.isGrounded_of_texts htexts (by rintro _ ⟨⟩; exact haction)

/-- The step that makes the patch names nothing. -/
theorem isGrounded_patchStep : patchStep.IsGrounded ctx.Supplies resolves where
  name := .of_count (by decide : "Generate git patch".toList.count '.' ≤ 1)
  condition := by
    rintro _ ⟨⟩
    exact .of_count (by decide)
  action := nofun
  inputs := List.forall_mem_nil _
  env := List.forall_mem_singleton.mpr
    (.of_count (by decide : Names.patchPath.toList.count '.' ≤ 1))
  run := by
    rintro _ ⟨⟩
    have hscript : ¬String.utf8EncodeChar '.' ⊆
        (patchStep.run.getD "").toByteArray.data.toList := by
      decide
    exact .of_eq_nil (targets_eq_nil_of_notMem (mt utf8EncodeChar_subset hscript))

/-- The patch is published if there is one. -/
theorem isGrounded_uploadPatchStep
    (haction : Grounded (ctx.Supplies .action) resolves uploadAction)
    (hpatch : resolves (.stepOutput "generate_patch" "has_patch")) :
    (uploadPatchStep uploadAction).IsGrounded ctx.Supplies resolves where
  name := .of_count (by decide : "Upload git patch".toList.count '.' ≤ 1)
  condition := by
    have hcondition : targets "steps.generate_patch.outputs.has_patch == 'true'" =
        [.stepOutput "generate_patch" "has_patch"] := by
      decide +kernel
    rintro _ ⟨⟩
    exact .own (by rw [hcondition]; exact List.forall_mem_singleton.mpr hpatch)
  action := by
    rintro _ ⟨⟩
    exact haction
  inputs := by
    have hinputs : ∀ e ∈ (uploadPatchStep "").inputs, e.2.toList.count '.' ≤ 1 := by decide
    exact fun e he => .of_count (hinputs e he)
  env := List.forall_mem_nil _
  run := nofun

end Agent

/-! ### The steps of the safe outputs job -/

namespace Dispatch

variable {kinds : List OutputKind} {condition token downloadAction checkoutAction : String}

/-- What the safe outputs job asks of the agent job: how it ended, and which types of outputs
the agent asked for. -/
def agentTargets : List Target :=
  [.result Names.agentJob, .jobOutput Names.agentJob "output_types"]

/-- The gate of the shared steps asks for the types of the outputs. -/
theorem targets_outputTypePresent (kind : OutputKind) :
    targets (Clause.outputTypePresent kind.outputType).render =
      [.jobOutput Names.agentJob "output_types"] := by
  have htext : (Clause.outputTypePresent kind.outputType).render =
      "contains(needs.agent.outputs.output_types, '" ++ kind.outputType ++ "')" := by
    rw [← String.toList_inj, Clause.toList_outputTypePresent, OutputKind.quotedType]
    simp
  have htype : targets kind.outputType = [] :=
    targets_eq_nil_of_notMem (OutputKind.notMem_outputType (by decide) (by decide))
  have hfront : Opens "contains(needs.agent.outputs.output_types, '" ∧
      targets "contains(needs.agent.outputs.output_types, '" =
        [.jobOutput Names.agentJob "output_types"] := by
    decide +kernel
  have hback : Closes "')" ∧ targets "')" = [] := by decide +kernel
  rw [htext, targets_enclosed hfront.1 hback.1, hfront.2, htype, hback.2]
  rfl

/-- The gate of a handler asks how the agent ended and for the types of the outputs. -/
theorem targets_safeOutputType (kind : OutputKind) :
    targets (Clause.safeOutputType kind.outputType).render = agentTargets := by
  have hcompleted : targets Clause.agentCompleted.render = [.result Names.agentJob] := by
    decide +kernel
  rw [Clause.safeOutputType, targets_and, hcompleted, targets_outputTypePresent]
  rfl

/-- The condition of a step asks nothing else. -/
theorem targets_anyOutput {clause : String → Condition}
    (hclause : clause ∈ [Clause.outputTypePresent, Clause.safeOutputType]) :
    targets (anyOutput clause kinds) ⊆ agentTargets := by
  have hplain : ∀ kind : OutputKind, (clause kind.outputType).description = none ∧
      targets (clause kind.outputType).render ⊆ agentTargets := by
    intro kind
    rcases List.mem_pair.mp hclause with rfl | rfl
    · rw [targets_outputTypePresent]
      exact ⟨rfl, List.subset_cons_self _ _⟩
    · rw [targets_safeOutputType]
      exact ⟨rfl, List.Subset.refl _⟩
  rw [anyOutput, targets_disjunction (List.forall_mem_map.mpr fun kind _ => (hplain kind).1)]
  intro t ht
  obtain ⟨term, hterm, ht⟩ := List.mem_flatMap.mp ht
  obtain ⟨kind, -, rfl⟩ := List.mem_map.mp hterm
  exact (hplain kind).2 ht

section Steps

variable (hs : ctx.workflow.outputs = some s) (hagent : ∀ t ∈ agentTargets, resolves t)

/-- The download of the outputs names nothing but what is supplied. -/
theorem isGrounded_downloadOutputStep
    (haction : Grounded (ctx.Supplies .action) resolves downloadAction) :
    (downloadOutputStep downloadAction).IsGrounded ctx.Supplies resolves := by
  have htexts : ∀ text ∈ (downloadOutputStep "").texts, text.toList.count '.' ≤ 1 := by decide
  exact Step.isGrounded_of_texts htexts (by rintro _ ⟨⟩; exact haction)

include hagent

/-- A disjunction of gates names what the gates name, of which all resolves. -/
theorem grounded_anyOutput {supplied : String → Prop} {clause : String → Condition}
    (hclause : clause ∈ [Clause.outputTypePresent, Clause.safeOutputType]) :
    Grounded supplied resolves (anyOutput clause kinds) :=
  .own fun t ht => hagent t (targets_anyOutput hclause ht)

/-- The download of the patch names what its gate names, and what is supplied. -/
theorem isGrounded_downloadPatchStep
    (haction : Grounded (ctx.Supplies .action) resolves downloadAction) :
    (downloadPatchStep (anyOutput Clause.outputTypePresent kinds) downloadAction).IsGrounded
      ctx.Supplies resolves where
  name := .of_count (by decide : "Download patch artifact".toList.count '.' ≤ 1)
  condition := by
    rintro _ ⟨⟩
    exact grounded_anyOutput hagent (by simp)
  action := by
    rintro _ ⟨⟩
    exact haction
  inputs := by
    have hinputs : ∀ e ∈ (downloadPatchStep "" "").inputs, e.2.toList.count '.' ≤ 1 := by decide
    exact fun e he => .of_count (hinputs e he)
  env := List.forall_mem_nil _
  run := nofun

include hs

/-- The checkout in front of the handlers names what its gate names, and its token. -/
theorem isGrounded_checkoutStep
    (haction : Grounded (ctx.Supplies .action) resolves checkoutAction) :
    (checkoutStep (anyOutput Clause.outputTypePresent kinds)
      (s.standardToken ctx.workflow.githubToken) checkoutAction).IsGrounded
      ctx.Supplies resolves where
  name := .of_count (by decide : "Checkout repository".toList.count '.' ≤ 1)
  condition := by
    rintro _ ⟨⟩
    exact grounded_anyOutput hagent (by simp)
  action := by
    rintro _ ⟨⟩
    exact haction
  inputs := by
    have hrest : ∀ text ∈ ["false", "0"], text.toList.count '.' ≤ 1 := by decide
    simp only [checkoutStep, List.forall_mem_cons]
    exact ⟨Workflow.grounded_standardToken (fun _ => .tokenInput (by simp)) hs,
      .of_count (hrest _ (by simp)), .of_count (hrest _ (by simp)), List.forall_mem_nil _⟩
  env := List.forall_mem_nil _
  run := nofun

/-- The step that sets the credentials names what its gate names, and its token. -/
theorem isGrounded_credentialsStep :
    (credentialsStep (anyOutput Clause.outputTypePresent kinds)
      (s.standardToken ctx.workflow.githubToken)).IsGrounded ctx.Supplies resolves where
  name := .of_count (by decide : "Configure git credentials".toList.count '.' ≤ 1)
  condition := by
    rintro _ ⟨⟩
    exact grounded_anyOutput hagent (by simp)
  action := nofun
  inputs := List.forall_mem_nil _
  env := by
    have hrest : ∀ path ∈ ["github.repository", "github.server_url"],
        (wrapTemplate path).toList.count '.' ≤ 1 := by
      decide
    simp only [credentialsStep, List.forall_mem_cons]
    exact ⟨.of_count (hrest _ (by simp)), .of_count (hrest _ (by simp)),
      Workflow.grounded_standardToken (fun _ => .tokenVariable) hs, List.forall_mem_nil _⟩
  run := by
    rintro _ ⟨⟩
    -- the script is fixed; its parts are cut at characters that no path has in it
    have hparts : ∀ part ∈ ["git config --global user.email ",
        "\"github-actions[bot]@users.noreply.github.com\"\n",
        "git config --global user.name \"github-actions[bot]\"\n",
        "SERVER_URL_STRIPPED=\"$\x7bSERVER_URL#https://\x7d\"\n",
        "git remote set-url origin \"https://x-access-token:$\x7bGIT_TOKEN\x7d",
        "@$\x7bSERVER_URL_STRIPPED\x7d/$\x7bREPO_NAME\x7d.git\""],
        Opens part ∧ part.toList ≠ [] ∧ targets part = [] := by
      decide +kernel
    exact grounded_script hparts

/-- **The project handler** asks of the agent job what kinds it has to handle. -/
theorem isGrounded_projectStep
    (haction : Grounded (ctx.Supplies .action) resolves scriptAction) {strict : Bool}
    (htoken : s.projectToken strict = .ok token) :
    (projectStep s kinds token scriptAction).IsGrounded ctx.Supplies resolves where
  name := .of_count (by decide : "Process project safe outputs".toList.count '.' ≤ 1)
  condition := by
    rintro _ ⟨⟩
    exact grounded_anyOutput hagent (by simp)
  action := by
    rintro _ ⟨⟩
    exact haction
  inputs := by
    have hscript : "safe_output_project_handler_manager.cjs".toList.count '.' ≤ 1 := by decide
    simp only [projectStep, List.forall_mem_cons]
    exact ⟨Workflow.grounded_projectToken (fun _ => .tokenInput (by simp)) hs htoken,
      grounded_handlerScript hscript, List.forall_mem_nil _⟩
  env := List.forall_mem_singleton.mpr (.whole (.settings hs (by simp [configVariables])))
  run := nofun

/-- **The shared handler** also asks for the map of the project handler, if there is one. -/
theorem isGrounded_sharedStep
    (haction : Grounded (ctx.Supplies .action) resolves scriptAction) {hasProjects : Bool}
    (hmap : hasProjects = true → resolves (.stepOutput projectStepId "temporary_project_map")) :
    (sharedStep s kinds hasProjects (s.standardToken ctx.workflow.githubToken)
      scriptAction).IsGrounded ctx.Supplies resolves where
  name := .of_count (by decide : "Process safe outputs".toList.count '.' ≤ 1)
  condition := by
    rintro _ ⟨⟩
    exact grounded_anyOutput hagent (by simp)
  action := by
    rintro _ ⟨⟩
    exact haction
  inputs := by
    have hscript : "safe_output_handler_manager.cjs".toList.count '.' ≤ 1 := by decide
    simp only [sharedStep, List.forall_mem_cons]
    exact ⟨Workflow.grounded_standardToken (fun _ => .tokenInput (by simp)) hs,
      grounded_handlerScript hscript, List.forall_mem_nil _⟩
  env := by
    -- the only reference that is not supplied is the map of the project handler
    have htargets : targets projectMap =
        [.stepOutput projectStepId "temporary_project_map"] := by
      decide +kernel
    simp only [sharedStep, List.singleton_append, List.forall_mem_cons]
    refine ⟨.whole (.settings hs (by simp [configVariables])), fun e he => ?_⟩
    split at he
    · next hprojects =>
      obtain rfl := List.mem_singleton.mp he
      exact .own (by rw [htargets]; exact List.forall_mem_singleton.mpr (hmap hprojects))
    · cases he
  run := nofun

/-- The handler of a kind names what its gate names, and its token. -/
theorem isGrounded_ownStep
    (haction : Grounded (ctx.Supplies .action) resolves scriptAction) (kind : OutputKind) :
    (ownStep s kind (s.kindToken kind ctx.workflow.githubToken) scriptAction).IsGrounded
      ctx.Supplies resolves where
  name := by
    -- the names and scripts are those of the kinds, of which there are finitely many
    have hnames : ∀ kind ∈ OutputKind.all, (ownStepNames kind).1.toList.count '.' ≤ 1 := by
      decide
    exact .of_count (hnames kind (OutputKind.mem_all kind))
  condition := by
    rintro _ ⟨⟩
    exact .own (by rwa [targets_safeOutputType])
  action := by
    rintro _ ⟨⟩
    exact haction
  inputs := by
    have hscripts : ∀ kind ∈ OutputKind.all,
        (ownStepNames kind).2.toList.count '.' ≤ 1 := by
      decide
    simp only [ownStep, List.forall_mem_cons]
    exact ⟨Workflow.grounded_kindToken (fun _ => .tokenInput (by simp)) hs kind,
      grounded_handlerScript (hscripts kind (OutputKind.mem_all kind)), List.forall_mem_nil _⟩
  env := by
    have hbranch : (wrapTemplate "github.ref_name").toList.count '.' ≤ 1 := by decide
    simp only [ownStep, List.singleton_append, List.forall_mem_cons]
    refine ⟨.whole (.settings hs (by simp [configVariables])), fun e he => ?_⟩
    split at he
    · obtain rfl := List.mem_singleton.mp he
      exact .of_count hbranch
    · cases he
  run := nofun

end Steps

end Dispatch

end AgentPipeline
