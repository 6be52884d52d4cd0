import AgentPipeline.Proofs.Pipeline.Dispatch
import AgentPipeline.Proofs.Text.Infix
import AgentPipeline.Proofs.Text.Json
import Mathlib.Data.List.Nodup

/-!
# Every output is handled once

The kinds that are configured are spread over the steps of the safe outputs job by their
categories. A step gets to know its kinds twice, from settings in JSON that its handler reads
(`Step.Configures`), and from its condition, which is a disjunction over the kinds
(`anyOutput_eq`).

Both agree: the settings of a kind are found in just one step, whose condition asks for the
kind, and neither the settings nor the conditions of the steps know any kind that is not
configured (`SafeOutputs.HandledBy`, `exists_handledBy_of_build`). That the settings of a step
have no further keys makes sense because JSON texts are unambiguous, and that a condition does
not ask for a kind is seen by the output type between quotes, which stands inside of no other
clause (`quotedType_infix_safeOutputType`).
-/

namespace AgentPipeline

/-! ### Settings -/

/-- The text is a JSON object with this key. -/
def Json.HasKey (text key : String) : Prop :=
  ∃ members : List (String × Json), text = (object members).render ∧ key ∈ members.map (·.1)

/-- The text of an object has the keys of the object, since it determines the object. -/
theorem Json.hasKey_render {members : List (String × Json)} {key : String} :
    HasKey (object members).render key ↔ key ∈ members.map (·.1) := by
  refine ⟨?_, fun h => ⟨members, rfl, h⟩⟩
  rintro ⟨members', htext, hkey⟩
  obtain rfl := Json.object.inj (render_injective htext)
  exact hkey

/-- The settings of a handler have the output types of its kinds as keys, and no others. -/
theorem SafeOutputs.hasKey_handlerConfig {s : SafeOutputs} {kinds : List OutputKind}
    {kind : OutputKind} :
    Json.HasKey (s.handlerConfig kinds) kind.outputType ↔ kind ∈ kinds ∧ s.has kind = true := by
  change _ ↔ kind ∈ kinds ∧ (s.outputs kind).isSome = true
  rw [handlerConfig, Json.hasKey_render]
  change _ ∈ Dictionary.keys _ ↔ _
  rw [handlerEntries, Dictionary.mem_keys_ofList, List.mem_map]
  constructor
  · rintro ⟨e, he, hkey⟩
    obtain ⟨kind', hkind', he⟩ := List.mem_filterMap.mp he
    obtain ⟨settings, hsettings, rfl⟩ := Option.map_eq_some_iff.mp he
    obtain rfl := OutputKind.outputType_injective hkey
    exact ⟨hkind', Option.isSome_of_eq_some hsettings⟩
  · rintro ⟨hkind, hsome⟩
    obtain ⟨settings, hsettings⟩ := Option.isSome_iff_exists.mp hsome
    exact ⟨_, List.mem_filterMap.mpr ⟨kind, hkind, by rw [hsettings]; rfl⟩, rfl⟩

namespace Dispatch

/-- The variables in which handlers find their settings. -/
def configVariables : List String :=
  ["GH_AW_SAFE_OUTPUTS_PROJECT_HANDLER_CONFIG", "GH_AW_SAFE_OUTPUTS_HANDLER_CONFIG",
    "GH_AW_SAFE_OUTPUT_CONFIG"]

/-- The identifier of the step that handles a kind. -/
def handlerId (kind : OutputKind) : String :=
  match kind.category with
  | .project => projectStepId
  | .message => sharedStepId
  | .workingTree => kind.stepId

end Dispatch

/-- **A step configures a kind** if the settings that its handler reads have the output type
of the kind as a key. -/
def Step.Configures (step : Step) (kind : OutputKind) : Prop :=
  ∃ e ∈ step.env, e.1 ∈ Dispatch.configVariables ∧ Json.HasKey e.2 kind.outputType

/-- **The condition of a step has the term of a kind**: it is a disjunction over configured
kinds, and the kind is one of them. -/
def Step.HasTerm (step : Step) (s : SafeOutputs) (kind : OutputKind) : Prop :=
  ∃ kinds : List OutputKind, kind ∈ kinds ∧ (∀ k ∈ kinds, s.has k = true) ∧
    step.condition = some (" || ".intercalate
      (kinds.map fun k => (Clause.safeOutputType k.outputType).render))

/-- **The condition of a step asks for a kind** somewhere. -/
def Step.AsksFor (step : Step) (kind : OutputKind) : Prop :=
  ∃ condition, step.condition = some condition ∧
    (Clause.outputTypePresent kind.outputType).render.toList <:+: condition.toList

/-! ### Conditions -/

namespace Dispatch

/-- The disjunction over some kinds, on one line. -/
theorem anyOutput_eq (clause : String → Condition) (kinds : List OutputKind) :
    anyOutput clause kinds =
      " || ".intercalate (kinds.map fun kind => (clause kind.outputType).render) := by
  have hterms : ∀ conditions : List Condition,
      (Condition.renderTerms conditions).map (·.2) = conditions.map (·.render) := by
    intro conditions
    induction conditions with
    | nil => rfl
    | cons c cs ih => rw [Condition.renderTerms, List.map_cons, ih, List.map_cons]
  rw [anyOutput, Condition.render]
  cases kinds with
  | nil => rfl
  | cons kind kinds =>
      cases kinds with
      | nil => simp [Condition.renderTerms, Condition.joinTerms]
      | cons kind' kinds =>
          simp only [List.map_cons, Condition.renderTerms, Condition.joinTerms,
            Bool.false_eq_true, if_false, hterms, List.map_map, Function.comp_def]

end Dispatch

namespace Clause

/-- The gate of the shared steps, with the quoted type set apart. -/
theorem toList_outputTypePresent (kind : OutputKind) :
    (outputTypePresent kind.outputType).render.toList =
      "contains(needs.agent.outputs.output_types,".toList ++
        ' ' :: (kind.quotedType ++ ')' :: []) := by
  simp [outputTypePresent, Condition.render, Condition.renderArguments, OutputKind.quotedType,
    Names.agentJob]

/-- The first two operands of the gate of a handler. -/
theorem render_agentCompleted :
    agentCompleted.render = "(!(cancelled())) && (needs.agent.result != 'skipped')" := by
  decide +kernel

/-- The gate of a handler, with the quoted type set apart. -/
theorem toList_safeOutputType (kind : OutputKind) :
    (safeOutputType kind.outputType).render.toList =
      ("((!(cancelled())) && (needs.agent.result != 'skipped')) && " ++
        "(contains(needs.agent.outputs.output_types,").toList ++
        ' ' :: (kind.quotedType ++ ')' :: [')']) := by
  have htext : (safeOutputType kind.outputType).render = "(" ++ agentCompleted.render ++ ") && (" ++
      (outputTypePresent kind.outputType).render ++ ")" := by
    rw [safeOutputType, Condition.render]
  rw [htext, String.toList_append, String.toList_append, toList_outputTypePresent,
    render_agentCompleted]
  simp

/-- Nothing but the clause of a kind has its output type between quotes, if what stands around
it has not. -/
theorem quotedType_infix_iff {a b : OutputKind} {front back : List Char}
    (hfront : ¬a.quotedType <:+: front) (hback : '\'' ∉ back) :
    a.quotedType <:+: front ++ ' ' :: (b.quotedType ++ ')' :: back) ↔ a = b := by
  have hspace : ' ' ∉ a.quotedType :=
    OutputKind.notMem_quotedType (by decide) (by decide) (by decide)
  have hbracket : ')' ∉ a.quotedType :=
    OutputKind.notMem_quotedType (by decide) (by decide) (by decide)
  have hnot : ¬a.quotedType <:+: back := fun h => hback (h.subset List.mem_cons_self)
  rw [Text.infix_append_cons hspace a.quotedType_ne_nil, or_iff_right hfront,
    Text.infix_append_cons hbracket a.quotedType_ne_nil, or_iff_left hnot,
    OutputKind.quotedType_infix_quotedType]

/-- A gate of the shared steps asks for its own kind only. -/
theorem quotedType_infix_outputTypePresent {a b : OutputKind} :
    a.quotedType <:+: (outputTypePresent b.outputType).render.toList ↔ a = b := by
  rw [toList_outputTypePresent]
  refine quotedType_infix_iff (fun h => ?_) List.not_mem_nil
  exact absurd (h.subset List.mem_cons_self) (by decide)

/-- A gate of a handler asks for its own kind only. -/
theorem quotedType_infix_safeOutputType {a b : OutputKind} :
    a.quotedType <:+: (safeOutputType b.outputType).render.toList ↔ a = b := by
  have hall : ∀ kind ∈ OutputKind.all,
      ¬ '\'' :: (kind.key.toList.map fun c => if c = '-' then '_' else c) ++ ['\''] <:+:
        ("((!(cancelled())) && (needs.agent.result != 'skipped')) && " ++
          "(contains(needs.agent.outputs.output_types,").toList := by
    decide +kernel
  rw [toList_safeOutputType]
  refine quotedType_infix_iff (fun h => ?_) (by decide)
  rw [OutputKind.quotedType, OutputKind.toList_outputType] at h
  exact hall a (OutputKind.mem_all a) h

end Clause

namespace Dispatch

variable {ctx : Context} {s : SafeOutputs} {step : Step} {kind : OutputKind}

/-! ### Handlers -/

/-- The step that handles a kind. -/
def handler (ctx : Context) (s : SafeOutputs) (kind : OutputKind) : Step :=
  match kind.category with
  | .project => projectHandler ctx s (s.kindsIn .project)
  | .message => sharedHandler ctx s (s.kindsIn .message)
  | .workingTree => ownHandler ctx s kind

/-- The handler of a configured kind is among the steps. -/
theorem handler_mem_steps (ctx : Context) (h : s.has kind = true) :
    handler ctx s kind ∈ steps ctx s := by
  have hmem : kind ∈ s.kindsIn kind.category := SafeOutputs.mem_kindsIn.mpr ⟨h, rfl⟩
  have hne := List.ne_nil_of_mem hmem
  rw [mem_steps, handler]
  cases hcategory : kind.category with
  | project => exact .inr (.inr (.inl ⟨hcategory ▸ hne, rfl⟩))
  | message => exact .inr (.inr (.inr (.inl ⟨hcategory ▸ hne, rfl⟩)))
  | workingTree => exact .inr (.inr (.inr (.inr ⟨kind, hcategory ▸ hmem, rfl⟩)))

/-- The handler of a kind has the identifier of the kind's step. -/
theorem id_handler (ctx : Context) (s : SafeOutputs) (kind : OutputKind) :
    (handler ctx s kind).id = some (handlerId kind) := by
  rw [handler, handlerId]
  cases kind.category <;> rfl

/-- The project handler has the settings of the configured project kinds. -/
theorem configures_projectHandler {kinds : List OutputKind} :
    (projectHandler ctx s kinds).Configures kind ↔ kind ∈ kinds ∧ s.has kind = true := by
  rw [← SafeOutputs.hasKey_handlerConfig]
  simp [Step.Configures, projectHandler, projectStep, configVariables]

/-- The message handler has the settings of the configured message kinds. -/
theorem configures_sharedHandler {kinds : List OutputKind} :
    (sharedHandler ctx s kinds).Configures kind ↔ kind ∈ kinds ∧ s.has kind = true := by
  rw [← SafeOutputs.hasKey_handlerConfig]
  cases hprojects : decide (s.kindsIn .project ≠ []) <;>
    simp [Step.Configures, sharedHandler, sharedStep, configVariables, hprojects]

/-- A handler of its own has the settings of its kind. -/
theorem configures_ownHandler {k : OutputKind} :
    (ownHandler ctx s k).Configures kind ↔ kind = k ∧ s.has kind = true := by
  rw [← List.mem_singleton, ← SafeOutputs.hasKey_handlerConfig]
  by_cases hbranch : k = .createPullRequest <;>
    simp [Step.Configures, ownHandler, ownStep, configVariables, hbranch]

/-- The project handler handles the project kinds. -/
theorem handlerId_eq_projectStepId_iff :
    projectStepId = handlerId kind ↔ kind.category = .project := by
  rw [handlerId]
  cases kind.category with
  | project => exact iff_of_true rfl rfl
  | message => exact iff_of_false (by decide : projectStepId ≠ sharedStepId) nofun
  | workingTree =>
      exact iff_of_false (fun h => stepId_notMem kind (h ▸ List.mem_cons_self)) nofun

/-- The message handler handles the message kinds. -/
theorem handlerId_eq_sharedStepId_iff :
    sharedStepId = handlerId kind ↔ kind.category = .message := by
  rw [handlerId]
  cases kind.category with
  | project => exact iff_of_false (by decide : sharedStepId ≠ projectStepId) nofun
  | message => exact iff_of_true rfl rfl
  | workingTree =>
      exact iff_of_false (fun h => stepId_notMem kind (h ▸ by simp)) nofun

/-- The step of a kind that needs a working tree handles this kind only. -/
theorem stepId_eq_handlerId_iff {k : OutputKind} (hk : k.category = .workingTree) :
    k.stepId = handlerId kind ↔ kind = k := by
  refine ⟨fun h => ?_, fun h => by rw [h, handlerId, hk]⟩
  rw [handlerId] at h
  cases hcategory : kind.category with
  | project => exact absurd (by simp_all) (stepId_notMem k)
  | message => exact absurd (by simp_all) (stepId_notMem k)
  | workingTree =>
      rw [hcategory] at h
      exact (OutputKind.outputType_injective h).symm

/-- A condition over some kinds asks for no other kind. -/
theorem mem_of_asksFor {clause : String → Condition} {kinds : List OutputKind}
    (hclause : ∀ a b : OutputKind,
      a.quotedType <:+: (clause b.outputType).render.toList ↔ a = b)
    (hcondition : step.condition = some (anyOutput clause kinds)) (h : step.AsksFor kind) :
    kind ∈ kinds := by
  obtain ⟨condition, hcondition', hinfix⟩ := h
  obtain rfl := Option.some.inj (hcondition.symm.trans hcondition')
  have hquoted : kind.quotedType <:+: (anyOutput clause kinds).toList :=
    (Clause.quotedType_infix_outputTypePresent.mpr rfl).trans hinfix
  have hseparator : ∀ c ∈ " || ".toList, c ∉ kind.quotedType := by
    intro c hc
    have hcases : c = ' ' ∨ c = '|' ∨ c = ' ' := by simpa using hc
    rcases hcases with rfl | rfl | rfl <;>
      exact OutputKind.notMem_quotedType (by decide) (by decide) (by decide)
  rw [anyOutput_eq, Text.infix_intercalate hseparator (by decide) kind.quotedType_ne_nil] at hquoted
  obtain ⟨text, htext, hquoted⟩ := hquoted
  obtain ⟨kind', hkind', rfl⟩ := List.mem_map.mp htext
  obtain rfl := (hclause kind kind').mp hquoted
  exact hkind'

/-- **A step serves some kinds**: these are the configured ones whose handler has the
identifier of the step, those that the step configures, and those that its condition has the
terms of. The condition asks for nothing that is not configured. -/
structure Serves (step : Step) (s : SafeOutputs) (kinds : List OutputKind) : Prop where
  id_eq_iff : ∀ kind, s.has kind = true → (step.id = some (handlerId kind) ↔ kind ∈ kinds)
  configures : ∀ kind, step.Configures kind ↔ kind ∈ kinds
  has : ∀ kind ∈ kinds, s.has kind = true
  hasTerm : ∀ kind ∈ kinds, step.HasTerm s kind
  asksFor : ∀ kind, step.AsksFor kind → s.has kind = true

/-- A handler serves the kinds whose settings it gets and which its condition is about. -/
theorem serves_of_condition {kinds : List OutputKind} (hhas : ∀ kind ∈ kinds, s.has kind = true)
    (hid : ∀ kind, s.has kind = true → (step.id = some (handlerId kind) ↔ kind ∈ kinds))
    (hconfigures : ∀ kind, step.Configures kind ↔ kind ∈ kinds ∧ s.has kind = true)
    (hcondition : step.condition = some (anyOutput Clause.safeOutputType kinds)) :
    Serves step s kinds where
  id_eq_iff := hid
  configures kind := (hconfigures kind).trans (and_iff_left_of_imp (hhas kind))
  has := hhas
  hasTerm kind hkind := ⟨kinds, hkind, hhas, by rw [hcondition, anyOutput_eq]⟩
  asksFor kind h :=
    hhas kind (mem_of_asksFor (fun _ _ => Clause.quotedType_infix_safeOutputType) hcondition h)

/-- A step without identifier and settings serves nothing. -/
theorem serves_nil (hid : step.id = none) (henv : ∀ e ∈ step.env, e.1 ∉ configVariables)
    (hasks : ∀ kind, step.AsksFor kind → s.has kind = true) : Serves step s [] where
  id_eq_iff kind _ := by simp [hid]
  configures kind :=
    iff_of_false (fun ⟨e, he, hvariable, _⟩ => henv e he hvariable) List.not_mem_nil
  has := List.forall_mem_nil _
  hasTerm := List.forall_mem_nil _
  asksFor := hasks

/-- **What the steps serve.** -/
theorem exists_serves (hstep : step ∈ steps ctx s) : ∃ kinds, Serves step s kinds := by
  have hhas : ∀ category, ∀ kind ∈ s.kindsIn category, s.has kind = true :=
    fun category kind hkind => (SafeOutputs.mem_kindsIn.mp hkind).1
  rcases mem_steps.mp hstep with rfl | ⟨-, hstep⟩ | ⟨-, rfl⟩ | ⟨-, rfl⟩ | ⟨k, hk, rfl⟩
  · exact ⟨[], serves_nil rfl (List.forall_mem_nil _) nofun⟩
  · have hasks : ∀ kind, step.condition =
        some (anyOutput Clause.outputTypePresent (s.kindsIn .workingTree)) →
        step.AsksFor kind → s.has kind = true := fun kind hcondition h =>
      hhas .workingTree kind
        (mem_of_asksFor (fun _ _ => Clause.quotedType_infix_outputTypePresent) hcondition h)
    refine ⟨[], ?_⟩
    simp only [setupSteps, List.mem_cons, List.not_mem_nil, or_false] at hstep
    rcases hstep with rfl | rfl | rfl
    · exact serves_nil rfl (List.forall_mem_nil _) fun kind => hasks kind rfl
    · exact serves_nil rfl (List.forall_mem_nil _) fun kind => hasks kind rfl
    · refine serves_nil rfl ?_ fun kind => hasks kind rfl
      simp [credentialsStep, configVariables]
  · refine ⟨_, serves_of_condition (hhas .project) (fun kind hkind => ?_)
      (fun kind => configures_projectHandler) rfl⟩
    rw [SafeOutputs.mem_kindsIn, and_iff_right hkind, ← handlerId_eq_projectStepId_iff]
    exact Option.some_inj
  · refine ⟨_, serves_of_condition (hhas .message) (fun kind hkind => ?_)
      (fun kind => configures_sharedHandler) rfl⟩
    rw [SafeOutputs.mem_kindsIn, and_iff_right hkind, ← handlerId_eq_sharedStepId_iff]
    exact Option.some_inj
  · obtain ⟨hkhas, hcategory⟩ := SafeOutputs.mem_kindsIn.mp hk
    refine ⟨[k], serves_of_condition (by simpa using hkhas) (fun kind hkind => ?_)
      (fun kind => by rw [List.mem_singleton]; exact configures_ownHandler) ?_⟩
    · rw [List.mem_singleton, ← stepId_eq_handlerId_iff hcategory]
      exact Option.some_inj
    · rw [anyOutput_eq]
      simp [ownHandler, ownStep]

/-! ### The order of the steps -/

/-- What is computed from the steps of a stage is computed from each. -/
theorem map_stage {α : Type} {category : Category} {f : List OutputKind → List Step}
    (g : Step → α) :
    (stage s category f).map g =
      if s.kindsIn category = [] then [] else (f (s.kindsIn category)).map g := by
  rw [stage]
  split <;> rfl

/-- The names and the identifiers of the steps, in order. -/
def labels (s : SafeOutputs) : List (String × Option String) :=
  [("Download agent output artifact", none)] ++
    (if s.kindsIn .workingTree = [] then []
      else [("Download patch artifact", none), ("Checkout repository", none),
        ("Configure git credentials", none)]) ++
    (if s.kindsIn .project = [] then []
      else [("Process project safe outputs", some "process_project_safe_outputs")]) ++
    (if s.kindsIn .message = [] then []
      else [("Process safe outputs", some "process_safe_outputs")]) ++
    (s.kindsIn .workingTree).map fun kind => ((ownStepNames kind).1, some kind.outputType)

/-- The steps have the names and identifiers listed, in this order. -/
theorem map_label_steps (ctx : Context) (s : SafeOutputs) :
    (steps ctx s).map (fun step => (step.name, step.id)) = labels s := by
  simp only [steps, List.map_append, map_stage, List.map_map]
  rfl

/-- No two steps share an identifier. -/
theorem nodup_ids (ctx : Context) (s : SafeOutputs) : ((steps ctx s).filterMap (·.id)).Nodup := by
  have hlabels : (steps ctx s).filterMap (·.id) = (labels s).filterMap (·.2) := by
    rw [← map_label_steps ctx s, List.filterMap_map]
    rfl
  have hown : ((s.kindsIn .workingTree).map (·.stepId)).Nodup :=
    List.Nodup.map OutputKind.outputType_injective ((OutputKind.nodup_all.filter _).filter _)
  -- the steps without identifiers do not matter; the others have those of the handlers
  have hall : ([projectStepId, sharedStepId] ++ (s.kindsIn .workingTree).map (·.stepId)).Nodup := by
    refine List.nodup_append.mpr ⟨by decide, hown, fun a ha b hb heq => ?_⟩
    obtain ⟨kind, -, rfl⟩ := List.mem_map.mp hb
    exact stepId_notMem kind (heq ▸ ha)
  have hfront : ∀ {p : Prop} [Decidable p] (label : String × Option String) (id : String),
      label.2 = some id →
      ((if p then [] else [label]).filterMap (·.2)).Sublist [id] := by
    intro p _ label id hid
    split <;> simp [hid]
  have htree : ∀ {p : Prop} [Decidable p] (a b c : String),
      (if p then [] else [(a, (none : Option String)), (b, none), (c, none)]).filterMap (·.2) =
        [] := by
    intro p _ a b c
    split <;> rfl
  have hback : ((s.kindsIn .workingTree).map fun kind =>
      ((ownStepNames kind).1, some kind.outputType)).filterMap (·.2) =
        (s.kindsIn .workingTree).map (·.stepId) := by
    rw [List.filterMap_map]
    exact congrFun List.filterMap_eq_map (s.kindsIn .workingTree)
  rw [hlabels, labels, List.filterMap_append, List.filterMap_append, List.filterMap_append,
    List.filterMap_append, htree, hback]
  refine hall.sublist (List.Sublist.append ?_ (List.Sublist.refl _))
  exact (hfront _ _ rfl).append (hfront _ _ rfl)

end Dispatch

/-! ### Each output has one step -/

/-- In a list whose members have different keys, a key belongs to one place. -/
theorem getElem?_unique {α β : Type} {key : α → Option β} {l : List α}
    (h : (l.filterMap key).Nodup) {i j : Nat} {a b : α} {k : β} (hi : l[i]? = some a)
    (hj : l[j]? = some b) (ha : key a = some k) (hb : key b = some k) : i = j := by
  have hpairwise := List.pairwise_iff_getElem.mp (List.pairwise_filterMap.mp h)
  obtain ⟨hilt, rfl⟩ := List.getElem?_eq_some_iff.mp hi
  obtain ⟨hjlt, rfl⟩ := List.getElem?_eq_some_iff.mp hj
  rcases Nat.lt_trichotomy i j with hlt | heq | hlt
  · exact absurd rfl (hpairwise i j hilt hjlt hlt k ha k hb)
  · exact heq
  · exact absurd rfl (hpairwise j i hjlt hilt hlt k hb k ha)

/-- **The outputs are handled by some steps**, each by one of them. -/
structure SafeOutputs.HandledBy (s : SafeOutputs) (steps : List Step) : Prop where
  /-- just one step configures a kind that is configured -/
  once : ∀ kind, s.has kind = true →
    ∃! i : Nat, ∃ step : Step, steps[i]? = some step ∧ step.Configures kind
  /-- this is the step for its category, and its condition has the term of the kind -/
  gated : ∀ kind, s.has kind = true → ∀ step ∈ steps, step.Configures kind →
    step.id = some (Dispatch.handlerId kind) ∧ step.HasTerm s kind
  /-- no step knows a kind that is not configured -/
  absent : ∀ kind, s.has kind = false → ∀ step ∈ steps,
    ¬step.Configures kind ∧ ¬step.AsksFor kind
  /-- the output is downloaded, a working tree is prepared once if a kind needs one, and then
  the project handler, the shared handler and the kinds with steps of their own follow -/
  order : steps.map (fun step => (step.name, step.id)) = Dispatch.labels s

namespace Dispatch

variable {ctx : Context} {s : SafeOutputs}

/-- The steps of the safe outputs job handle what is configured. -/
theorem handledBy_steps (ctx : Context) (s : SafeOutputs) : s.HandledBy (steps ctx s) where
  once := by
    intro kind hkind
    obtain ⟨i, hi⟩ := List.mem_iff_getElem?.mp (handler_mem_steps ctx hkind)
    obtain ⟨kinds, hserves⟩ := exists_serves (handler_mem_steps ctx hkind)
    have hmem := (hserves.id_eq_iff kind hkind).mp (id_handler ctx s kind)
    refine ⟨i, ⟨_, hi, (hserves.configures kind).mpr hmem⟩, ?_⟩
    rintro j ⟨step, hj, hconfigures⟩
    obtain ⟨kinds', hserves'⟩ := exists_serves (List.mem_of_getElem? hj)
    have hid := (hserves'.id_eq_iff kind hkind).mpr ((hserves'.configures kind).mp hconfigures)
    exact getElem?_unique (nodup_ids ctx s) hj hi hid (id_handler ctx s kind)
  gated := by
    intro kind hkind step hstep hconfigures
    obtain ⟨kinds, hserves⟩ := exists_serves hstep
    have hmem := (hserves.configures kind).mp hconfigures
    exact ⟨(hserves.id_eq_iff kind hkind).mpr hmem, hserves.hasTerm kind hmem⟩
  absent := by
    intro kind hkind step hstep
    obtain ⟨kinds, hserves⟩ := exists_serves hstep
    have hnot : ¬s.has kind = true := by simp [hkind]
    exact ⟨fun h => hnot (hserves.has kind ((hserves.configures kind).mp h)),
      fun h => hnot (hserves.asksFor kind h)⟩
  order := map_label_steps ctx s

/-- **Every output is handled once** by the steps of the job, whenever a kind is configured and
the job is built. -/
theorem exists_handledBy_of_build {hasActivation : Bool} {o : Option Job}
    (hs : ctx.workflow.safeOutputs = some s) (hkinds : ∃ kind, s.has kind = true)
    (h : build ctx hasActivation = .ok o) :
    ∃ (job : Job) (steps : List Step), o = some job ∧ job.steps = steps.map .generated ∧
      s.HandledBy steps := by
  obtain ⟨kind, hkind⟩ := hkinds
  have houtputs : ctx.workflow.outputs = some s :=
    Workflow.outputs_eq_some_iff.mpr ⟨hs, List.ne_nil_of_mem (SafeOutputs.mem_kinds.mpr hkind)⟩
  obtain ⟨job, hjob, -, hsteps⟩ := exists_of_build houtputs h
  exact ⟨job, steps ctx s, hjob, hsteps, handledBy_steps ctx s⟩

/-- Settings with kinds of all categories. -/
def mixedOutputs : SafeOutputs :=
  [OutputKind.createProject, .createIssue, .noop, .createPullRequest, .uploadAsset].foldl
    (fun s kind => s.insert kind .default) .empty

/-- A context with these settings, in which a commit is known for every action. -/
def mixedContext : Context :=
  .ofWorkflow { Workflow.named "mixed" with safeOutputs := some mixedOutputs }
    { referenceTime := 0 } (fun _ _ => some "11bd719") none

/-- A job is built for settings with kinds of all categories, and its steps handle them. -/
theorem exists_handledBy_of_build_mixed :
    ∃ (job : Job) (steps : List Step), build mixedContext true = .ok (some job) ∧
      job.steps = steps.map .generated ∧ mixedOutputs.HandledBy steps := by
  obtain ⟨job, hjob⟩ : ∃ job, build mixedContext true = .ok (some job) := ⟨_, rfl⟩
  obtain ⟨_, steps, heq, hsteps, hhandled⟩ :=
    exists_handledBy_of_build (s := mixedOutputs) rfl ⟨.createIssue, rfl⟩ hjob
  obtain rfl := Option.some.inj heq
  exact ⟨job, steps, hjob, hsteps, hhandled⟩

end Dispatch

end AgentPipeline
