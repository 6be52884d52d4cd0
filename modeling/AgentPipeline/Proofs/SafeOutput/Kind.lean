import AgentPipeline.SafeOutput.Kind
import AgentPipeline.Proofs.Text.Infix

/-!
# Output types

An output type is a text of small letters and underscores, and no two kinds share one. Two
output types stand at the start of another one (`outputType_infix_iff`), but none stands inside
of another one with quotes around it (`quotedType_infix_quotedType`).
-/

namespace AgentPipeline.OutputKind

/-- The output type is the key with underscores for dashes. -/
theorem toList_outputType (kind : OutputKind) :
    kind.outputType.toList = kind.key.toList.map fun c => if c = '-' then '_' else c :=
  String.toList_map

/-- No kind is listed twice. -/
theorem nodup_all : all.Nodup := by decide

/-- No output type is empty. -/
theorem outputType_ne_nil (kind : OutputKind) : kind.outputType.toList ≠ [] := by
  have hall : ∀ kind ∈ all, kind.key.toList ≠ [] := by decide
  rw [toList_outputType, ne_eq, List.map_eq_nil_iff]
  exact hall kind (mem_all kind)

/-- An output type consists of small letters and underscores. -/
theorem of_mem_outputType {kind : OutputKind} {c : Char} (h : c ∈ kind.outputType.toList) :
    c.isLower = true ∨ c = '_' := by
  have hall : ∀ kind ∈ all, (kind.key.toList.map fun c => if c = '-' then '_' else c).all
      (fun c => c.isLower || c == '_') = true := by decide +kernel
  rw [toList_outputType] at h
  simpa using List.all_eq_true.mp (hall kind (mem_all kind)) c h

/-- Output types consist of small letters and underscores. -/
theorem notMem_outputType {kind : OutputKind} {c : Char} (hlower : c.isLower = false)
    (hunderscore : c ≠ '_') : c ∉ kind.outputType.toList := by
  intro hmem
  rcases of_mem_outputType hmem with h | h
  · rw [hlower] at h
    cases h
  · exact hunderscore h

/-! ### Types inside of types -/

/-- The kinds whose type stands inside of the one of another kind, and the other kind. -/
def shadowed : List (OutputKind × OutputKind) :=
  [(.createProject, .createProjectStatusUpdate),
    (.createPullRequest, .createPullRequestReviewComment)]

/-- The output types that stand inside of another one. -/
theorem outputType_infix_iff {a b : OutputKind} :
    a.outputType.toList <:+: b.outputType.toList ↔ a = b ∨ (a, b) ∈ shadowed := by
  have hall : ∀ a ∈ all, ∀ b ∈ all,
      ((a.key.toList.map fun c => if c = '-' then '_' else c) <:+:
        (b.key.toList.map fun c => if c = '-' then '_' else c) ↔
          a = b ∨ (a, b) ∈ shadowed) := by
    decide +kernel
  rw [toList_outputType, toList_outputType]
  exact hall a (mem_all a) b (mem_all b)

/-- A type that stands inside of another one is shorter. -/
theorem length_lt_of_shadowed {a b : OutputKind} (h : (a, b) ∈ shadowed) :
    a.outputType.toList.length < b.outputType.toList.length := by
  have hall : ∀ p ∈ shadowed, p.1.key.toList.length < p.2.key.toList.length := by decide
  rw [toList_outputType, toList_outputType, List.length_map, List.length_map]
  exact hall (a, b) h

/-- No two kinds share an output type. -/
theorem outputType_injective : Function.Injective outputType := by
  intro a b h
  have hinfix : a.outputType.toList <:+: b.outputType.toList := h ▸ List.infix_refl _
  rcases outputType_infix_iff.mp hinfix with heq | hshadowed
  · exact heq
  · exact absurd (length_lt_of_shadowed hshadowed) (by simp [h])

/-- The output type of a kind between single quotes. -/
def quotedType (kind : OutputKind) : List Char := '\'' :: (kind.outputType.toList ++ ['\''])

/-- Between quotes no output type is empty. -/
theorem quotedType_ne_nil (kind : OutputKind) : kind.quotedType ≠ [] := nofun

/-- Between quotes an output type has the quotes besides. -/
theorem notMem_quotedType {kind : OutputKind} {c : Char} (hquote : c ≠ '\'')
    (hlower : c.isLower = false) (hunderscore : c ≠ '_') : c ∉ kind.quotedType := by
  rw [quotedType, List.mem_cons, List.mem_append, List.mem_singleton, not_or, not_or]
  exact ⟨hquote, notMem_outputType hlower hunderscore, hquote⟩

/-- Between quotes no output type stands inside of another one. -/
theorem quotedType_infix_quotedType {a b : OutputKind} :
    a.quotedType <:+: b.quotedType ↔ a = b := by
  refine ⟨fun h => ?_, fun h => h ▸ List.infix_refl _⟩
  have hquote : '\'' ∉ a.outputType.toList := notMem_outputType (by decide) (by decide)
  have hne := a.outputType_ne_nil
  have hinfix : a.outputType.toList <:+: [] ++ '\'' :: (b.outputType.toList ++ '\'' :: []) :=
    (List.infix_append' ['\''] _ ['\'']).trans h
  rw [Text.infix_append_cons hquote hne, Text.infix_append_cons hquote hne, List.infix_nil,
    or_iff_right hne, or_iff_left hne, outputType_infix_iff] at hinfix
  rcases hinfix with heq | hshadowed
  · exact heq
  · have hall : ∀ p ∈ shadowed,
        ¬ '\'' :: ((p.1.key.toList.map fun c => if c = '-' then '_' else c) ++ ['\'']) <:+:
          '\'' :: ((p.2.key.toList.map fun c => if c = '-' then '_' else c) ++ ['\'']) := by
      decide +kernel
    rw [quotedType, quotedType, toList_outputType, toList_outputType] at h
    exact absurd h (hall (a, b) hshadowed)

end AgentPipeline.OutputKind
