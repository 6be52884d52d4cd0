import AgentPipeline.Permission.Basic
import AgentPipeline.Proofs.Except

/-!
# Which permissions can come about

Permissions start as a shorthand, as the explicit grant of nothing, from a list of levels or
from a value that an author wrote, and change by single grants and by merging
(`Permissions.Reachable`). Nothing in the type of explicit grants keeps the scope `id-token`
from holding the level read, which it does not have; that it never does is an invariant.

The invariant is stated for all scopes at once: permissions are **proper** if they give the
level read only to scopes that have it. A grant that would break this is passed over, a
shorthand leaves the scope out, and a merge only hands on levels that one of its two sides
gives (`get_merge`).
-/

namespace AgentPipeline.Permissions

variable {p q : Permissions} {scope s : Scope} {level : Level}

/-! ### Levels after each operation -/

/-- Explicit permissions give what is granted. -/
theorem get_explicit (grants : Grants) (s : Scope) : (explicit grants).get s = grants s := rfl

/-- The higher of two levels is one of them. -/
theorem maxLevel_eq (a b : Option Level) : maxLevel a b = a ∨ maxLevel a b = b := by
  cases a with
  | none => exact .inr (by simp [maxLevel])
  | some a =>
      cases b with
      | none => exact .inl rfl
      | some b =>
          have hmax : a.max b = a ∨ a.max b = b := by
            unfold Level.max
            split
            · exact .inr rfl
            · exact .inl rfl
          exact hmax.imp (congrArg some) (congrArg some)

/-- **A merge invents no levels**: in each scope it gives what one of the two sides gives. -/
theorem get_merge (p q : Permissions) (s : Scope) :
    (p.merge q).get s = p.get s ∨ (p.merge q).get s = q.get s := by
  cases p with
  | shorthand a =>
      cases q with
      | shorthand b =>
          simp only [merge, Shorthand.max]
          split
          · exact .inr rfl
          · exact .inl rfl
      | explicit grants => exact .inr rfl
  | explicit grants =>
      cases q with
      | shorthand b =>
          cases b with
          | none => exact .inl rfl
          | readAll | writeAll =>
              simp only [merge, get_explicit]
              cases h : grants s with
              | none => exact .inr rfl
              | some level => exact .inl rfl
      | explicit grants' => exact maxLevel_eq (grants s) (grants' s)

/-- After a grant a scope has its old level or, if it is the one of the grant, the new one. -/
theorem get_set_cases (h : (p.set scope level).get s = some .read) :
    p.get s = some .read ∨ (s = scope ∧ scope.supportsRead = true) := by
  unfold set at h
  split at h
  · exact .inl h
  · next hallowed =>
    have hgrant : ∀ grants : Grants, grant grants scope level s = some .read →
        grants s = some .read ∨ (s = scope ∧ scope.supportsRead = true) := by
      intro grants hread
      unfold grant at hread
      split at hread
      · next heq =>
        obtain rfl := Option.some.inj hread
        exact .inr ⟨heq, by simpa using hallowed⟩
      · exact .inl hread
    cases p with
    | explicit grants => exact hgrant grants h
    | shorthand b =>
        have hread : grant (fun _ => none) scope level s = some .read := h
        rcases hgrant _ hread with hnone | hsupports
        · cases hnone
        · exact .inr hsupports

/-! ### Proper permissions -/

/-- **Proper permissions** give the level read only to scopes that have it. -/
def Proper (p : Permissions) : Prop :=
  ∀ s, p.get s = some .read → s.supportsRead = true

/-- The grant of nothing is proper. -/
theorem proper_empty : Proper empty := nofun

/-- Shorthands are proper. -/
theorem proper_shorthand (b : Shorthand) : Proper (.shorthand b) := by
  intro s hread
  simp only [get, Shorthand.levelFor] at hread
  split at hread
  · cases hread
  · next hallowed => simpa [Option.some.inj hread] using hallowed

/-- A grant keeps permissions proper. -/
theorem Proper.set (hp : p.Proper) (scope : Scope) (level : Level) :
    (p.set scope level).Proper := by
  intro s hread
  rcases get_set_cases hread with hold | ⟨rfl, hsupports⟩
  · exact hp s hold
  · exact hsupports

/-- A merge of proper permissions is proper. -/
theorem Proper.merge (hp : p.Proper) (hq : q.Proper) : (p.merge q).Proper := by
  intro s hread
  rcases get_merge p q s with heq | heq
  · exact hp s (heq ▸ hread)
  · exact hq s (heq ▸ hread)

/-- Permissions made of levels are proper. -/
theorem proper_ofScopes (l : List (Scope × Level)) : (ofScopes l).Proper := by
  suffices h : ∀ p : Permissions, p.Proper → (l.foldl (fun p e => p.set e.1 e.2) p).Proper from
    h empty proper_empty
  induction l with
  | nil => exact fun p hp => hp
  | cons e l ih => exact fun p hp => ih _ (hp.set e.1 e.2)

/-- One more entry of a mapping is one more grant. -/
theorem exists_set_of_addEntry {key value : Yaml.Value} (h : p.addEntry key value = .ok q) :
    ∃ scope level, q = p.set scope level := by
  simp only [addEntry] at h
  split at h
  · next scope level _ _ =>
    split at h
    · cases h
    · exact ⟨scope, level, (Except.ok.inj h).symm⟩
  · cases h

/-- Permissions that are read are proper. -/
theorem proper_of_ofValue {v : Yaml.Value} (h : ofValue v = .ok p) : p.Proper := by
  unfold ofValue at h
  split at h
  · split at h
    · next level _ =>
      obtain rfl := Except.ok.inj h
      exact proper_shorthand level
    · cases h
  · refine foldlM_invariant (fun p e p' hp hstep => ?_) proper_empty h
    obtain ⟨scope, level, rfl⟩ := exists_set_of_addEntry hstep
    exact hp.set scope level
  · cases h

/-! ### Runs of operations -/

/-- **What can come about** from shorthands, the explicit grant of nothing, lists of levels and
values of authors by any number of grants and merges. -/
inductive Reachable : Permissions → Prop
  | shorthand (b : Shorthand) : Reachable (.shorthand b)
  | empty : Reachable .empty
  | ofScopes (l : List (Scope × Level)) : Reachable (.ofScopes l)
  | ofValue {v : Yaml.Value} {p : Permissions} : ofValue v = .ok p → Reachable p
  | set {p : Permissions} (scope : Scope) (level : Level) : Reachable p →
      Reachable (p.set scope level)
  | merge {p q : Permissions} : Reachable p → Reachable q → Reachable (p.merge q)

/-- Whatever comes about is proper. -/
theorem Reachable.proper (h : p.Reachable) : p.Proper := by
  induction h with
  | shorthand b => exact proper_shorthand b
  | empty => exact proper_empty
  | ofScopes l => exact proper_ofScopes l
  | ofValue h => exact proper_of_ofValue h
  | set scope level _ ih => exact ih.set scope level
  | merge _ _ ihp ihq => exact ihp.merge ihq

/-- The entries of an explicit grant are the levels that it gives. -/
theorem mem_entries {grants : Grants} : (s, level) ∈ entries grants ↔ grants s = some level := by
  simp [entries, Scope.mem_all]

/-- **Identity tokens are never read.** Whatever permissions come about, the level of the scope
`id-token` is not read, and read is not among the entries of an explicit grant for it. -/
theorem idToken_ne_read_of_reachable (h : p.Reachable) :
    p.get .idToken ≠ some .read ∧
      ∀ grants, p = .explicit grants → (.idToken, .read) ∉ entries grants := by
  have hget : p.get .idToken ≠ some .read := by
    intro hread
    have hsupports := h.proper .idToken hread
    cases hsupports
  refine ⟨hget, ?_⟩
  rintro grants rfl hmem
  exact hget (mem_entries.mp hmem)

/-- A grant of the level read is passed over, and `read-all` does not bring it along either. -/
theorem idToken_ne_read_readAll :
    let p := ((ofScopes [(.idToken, .read), (.contents, .write)]).set .idToken .read).merge
      (.shorthand .readAll)
    p.Reachable ∧ p.get .issues = some .read ∧ p.get .idToken ≠ some .read := by
  intro p
  have hreachable : p.Reachable :=
    .merge (.set .idToken .read (.ofScopes [(.idToken, .read), (.contents, .write)]))
      (.shorthand .readAll)
  exact ⟨hreachable, by decide, (idToken_ne_read_of_reachable hreachable).1⟩

end AgentPipeline.Permissions
