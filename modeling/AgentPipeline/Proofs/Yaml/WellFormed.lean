import AgentPipeline.Yaml.Document
import Mathlib.Tactic.SplitIfs

/-!
# Well-formed values

In a value that is read no two keys of a mapping are equal, however deep the mapping is nested
(`Reader.yields_value`). What a reader gives is followed through its steps (`Reader.Yields`).
-/

namespace AgentPipeline.Yaml

/-- **Well-formed values**: no two keys of a mapping in them are equal. -/
inductive Value.WellFormed : Value → Prop
  | null : WellFormed .null
  | bool (b : Bool) : WellFormed (.bool b)
  | number (n : Number) : WellFormed (.number n)
  | string (s : String) : WellFormed (.string s)
  | sequence {items : List Value} : (∀ v ∈ items, WellFormed v) → WellFormed (.sequence items)
  | mapping {entries : List (Value × Value)} : Value.keysDistinct entries = true →
      (∀ e ∈ entries, WellFormed e.1) → (∀ e ∈ entries, WellFormed e.2) →
      WellFormed (.mapping entries)
  | tagged (tag : String) {v : Value} : WellFormed v → WellFormed (.tagged tag v)

namespace Value

/-- Null is well-formed. -/
@[simp] theorem wellFormed_null : WellFormed .null := .null

/-- Truth values are well-formed. -/
@[simp] theorem wellFormed_bool (b : Bool) : WellFormed (.bool b) := .bool b

/-- Numbers are well-formed. -/
@[simp] theorem wellFormed_number (n : Number) : WellFormed (.number n) := .number n

/-- Strings are well-formed. -/
@[simp] theorem wellFormed_string (s : String) : WellFormed (.string s) := .string s

/-- A sequence is well-formed if its items are. -/
@[simp] theorem wellFormed_sequence {items : List Value} :
    WellFormed (.sequence items) ↔ ∀ v ∈ items, WellFormed v := by
  refine ⟨fun h => ?_, .sequence⟩
  cases h with
  | sequence h => exact h

/-- A mapping is well-formed if its keys differ and all keys and values are well-formed. -/
@[simp] theorem wellFormed_mapping {entries : List (Value × Value)} :
    WellFormed (.mapping entries) ↔
      keysDistinct entries = true ∧ ∀ e ∈ entries, WellFormed e.1 ∧ WellFormed e.2 := by
  refine ⟨fun h => ?_, fun h => .mapping h.1 (fun e he => (h.2 e he).1) fun e he => (h.2 e he).2⟩
  cases h with
  | mapping hdistinct hkeys hvalues => exact ⟨hdistinct, fun e he => ⟨hkeys e he, hvalues e he⟩⟩

end Value

namespace Reader

variable {α β : Type} {P : α → Prop} {Q : β → Prop} {r : Reader α} {f : α → Reader β}

/-- Whatever a reader gives has a property. -/
def Yields (P : α → Prop) (r : Reader α) : Prop :=
  ∀ d left a left', (r.run d).run left = some (a, left') → P a

namespace Yields

/-- A reader that only returns a value gives this value. -/
theorem pure {a : α} (h : P a) : Yields P (pure a) := by
  intro d left b left' hrun
  obtain ⟨rfl, -⟩ := Prod.mk.inj (Option.some.inj hrun)
  exact h

/-- A reader that fails gives nothing. -/
theorem failure : Yields P failure := nofun

/-- Nothing comes behind a failure. -/
theorem failure_bind : Yields Q (Alternative.failure >>= f) := nofun

/-- What the second of two readers gives depends on what the first one gave. -/
theorem bind (hr : Yields P r) (hf : ∀ a, P a → Yields Q (f a)) : Yields Q (r >>= f) := by
  intro d left b left' hrun
  rw [ReaderT.run_bind, StateT.run_bind] at hrun
  obtain ⟨⟨a, left₁⟩, ha, hb⟩ := Option.bind_eq_some_iff.mp hrun
  exact hf a (hr d left a left₁ ha) d left₁ b left' hb

/-- The first step does not matter if the second one gives nothing else. -/
theorem bind_any (hf : ∀ a, Yields Q (f a)) : Yields Q (r >>= f) :=
  bind (P := fun _ => True) (fun _ _ _ _ _ => trivial) fun a _ => hf a

/-- What a reader gives is mapped together with its property. -/
theorem map {g : α → β} (hr : Yields P r) (hg : ∀ a, P a → Q (g a)) : Yields Q (g <$> r) := by
  rw [map_eq_pure_bind]
  exact hr.bind fun a ha => pure (hg a ha)

/-- A value that may be missing has the property unless it is. -/
theorem optional {inner : Node → Reader α} (h : ∀ n, Yields P (inner n)) (n : Node) :
    Yields (fun o => ∀ a, o = some a → P a) (Reader.optional inner n) := by
  refine bind_any fun n => bind_any fun nothing => ?_
  split
  · exact pure nofun
  · exact (h n).map fun a ha b hb => Option.some.inj hb ▸ ha

/-- The values of a list of readers have the property if each reader keeps to it. -/
theorem mapM {l : List α} (h : ∀ a ∈ l, Yields Q (f a)) :
    Yields (fun bs => ∀ b ∈ bs, Q b) (l.mapM f) := by
  induction l with
  | nil => exact pure (by simp)
  | cons a l ih =>
      rw [List.mapM_cons]
      obtain ⟨ha, hl⟩ := List.forall_mem_cons.mp h
      exact ha.bind fun b hb => (ih hl).bind fun bs hbs =>
        pure (List.forall_mem_cons.mpr ⟨hb, hbs⟩)

end Yields

/-! ### Values -/

open Value (WellFormed)

/-- A tag keeps a value, puts itself in front of it, or makes the reader fail. -/
theorem yields_underTag {p : Properties} {v : Value} (h : WellFormed v) :
    Yields WellFormed (underTag .value p v) := by
  unfold underTag
  split
  · exact .pure h
  · exact .pure (.tagged _ h)
  · exact .failure

/-- A plain scalar stands for a value without parts. -/
theorem wellFormed_of_toValue? {s : String} {v : Value} (h : Plain.toValue? s = some v) :
    WellFormed v := by
  unfold Plain.toValue? at h
  split at h
  · exact Option.some.inj h ▸ .null
  · exact Option.some.inj h ▸ .bool _
  · exact Option.some.inj h ▸ .number _
  · cases h
  · exact Option.some.inj h ▸ .number _
  · exact Option.some.inj h ▸ .string _

/-- So does a scalar of any style. -/
theorem wellFormed_of_spelled {style : Style} {s : String} {v : Value}
    (h : spelled style s = some v) : WellFormed v := by
  unfold spelled at h
  split at h
  · exact wellFormed_of_toValue? h
  · exact Option.some.inj h ▸ .string _

/-- So does a scalar with a tag. -/
theorem wellFormed_of_scalarValue {p : Properties} {style : Style} {s : String} {v : Value}
    (h : scalarValue p style s = some v) : WellFormed v := by
  unfold scalarValue at h
  split at h
  · exact wellFormed_of_spelled h
  · split_ifs at h
    · obtain ⟨b, -, rfl⟩ := Option.map_eq_some_iff.mp h
      exact .bool b
    · split at h
      · exact Option.some.inj h ▸ .number _
      · cases h
    · obtain ⟨x, -, rfl⟩ := Option.map_eq_some_iff.mp h
      exact .number _
    · exact Option.some.inj h ▸ .null
    · exact wellFormed_of_spelled h
    · exact Option.some.inj h ▸ .string _

/-- The value of a scalar node is well-formed. -/
theorem yields_scalar (p : Properties) (style : Style) (text : String) :
    Yields WellFormed (match scalarValue p style text with
      | some v => underTag .value p v
      | none => failure) := by
  split
  · next v hv => exact yields_underTag (wellFormed_of_scalarValue hv)
  · exact .failure

/-- An entry is well-formed if its key and its value are. -/
theorem yields_entry {key value : Reader Value} (hkey : Yields WellFormed key)
    (hvalue : Yields WellFormed value) :
    Yields (fun e : Value × Value => WellFormed e.1 ∧ WellFormed e.2) (do pure (← key, ← value)) :=
  hkey.bind fun _ hk => hvalue.bind fun _ hv => .pure ⟨hk, hv⟩

/-- Values that are read are well-formed. -/
theorem yields_value (depth : Nat) (n : Node) : Yields WellFormed (value depth n) := by
  unfold value
  induction depth generalizing n with
  | zero =>
      rw [valueFor]
      refine .bind_any fun n => ?_
      cases n with
      | scalar p style text => exact yields_scalar p style text
      | _ => exact .failure
  | succ depth ih =>
      rw [valueFor]
      refine .bind_any fun n => ?_
      cases n with
      | scalar p style text => exact yields_scalar p style text
      | sequence p items =>
          exact (Yields.mapM fun n _ => ih n).bind fun vs hvs => yields_underTag (.sequence hvs)
      | mapping p entries =>
          refine Yields.bind
            (Yields.mapM fun e _ => yields_entry (ih e.1) (ih e.2)) fun es hes => ?_
          dsimp only
          split
          · exact .failure_bind
          · next h =>
            have hdistinct : Value.keysDistinct es = true := by simpa using h
            exact yields_underTag (Value.wellFormed_mapping.mpr ⟨hdistinct, hes⟩)
      | _ => exact .failure

end Reader

end AgentPipeline.Yaml
