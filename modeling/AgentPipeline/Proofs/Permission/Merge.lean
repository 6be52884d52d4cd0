import AgentPipeline.Proofs.Permission.Reachable

/-!
# Merging permissions

In a scope, permissions give a level or none at all, and none at all is lower than the level
`none`. The **height** of what they give brings this order to the numbers: a level is known by
its height (`height_injective`), and of two explicit grants a merge takes the greater height in
each scope (`height_maxLevel`), so merging inherits its laws from `max`.

The other merges follow rules of their own, but none of them escalates (`merge_conservative`):
a merge gives only what one of its sides gives, takes nothing away from an explicit grant, and
changes nothing when it is done again.

Merging a whole list of explicit grants into the grant of nothing (`mergeAll`) gives in each
scope the **highest** level of the list (`isHighest_mergeAll`). That depends only on which
grants are in the list, not on their order or number (`mergeAll_eq_of_mem_iff`).
-/

namespace AgentPipeline

/-- A level is known by its rank. -/
theorem Level.rank_injective : Function.Injective Level.rank := by
  intro a b
  cases a <;> cases b <;> decide

/-- The greater of two levels has the greater rank. -/
theorem Level.rank_max (a b : Level) : (a.max b).rank = Max.max a.rank b.rank := by
  unfold Level.max
  split <;> omega

/-- Taking the greater shorthand again changes nothing. -/
theorem Shorthand.max_max_self (a b : Shorthand) : (a.max b).max b = a.max b := by
  cases a <;> cases b <;> rfl

namespace Permissions

variable {p q : Permissions} {s : Scope} {level : Level} {a b : Option Level}

/-! ### Heights -/

/-- The place of what permissions give in a scope, in the order in which no level at all is
lower than each of the levels. -/
def height : Option Level → Nat
  | none => 0
  | some level => level.rank + 1

/-- What is given is known by its height. -/
theorem height_injective : Function.Injective height := by
  intro a b h
  cases a with
  | none =>
      cases b with
      | none => rfl
      | some b => cases h
  | some a =>
      cases b with
      | none => cases h
      | some b => exact congrArg some (Level.rank_injective (Nat.succ.inj h))

/-- The greater of two levels has the greater height. -/
theorem height_maxLevel (a b : Option Level) :
    height (maxLevel a b) = max (height a) (height b) := by
  cases a with
  | none => exact (Nat.zero_max _).symm
  | some a =>
      cases b with
      | none => exact (Nat.max_zero _).symm
      | some b =>
          change (a.max b).rank + 1 = max (a.rank + 1) (b.rank + 1)
          rw [Level.rank_max]
          exact (Nat.add_max_add_right _ _ 1).symm

/-- Taking the greater level again changes nothing. -/
theorem maxLevel_maxLevel_self (a b : Option Level) :
    maxLevel (maxLevel a b) b = maxLevel a b := by
  refine height_injective ?_
  simp only [height_maxLevel]
  omega

/-! ### One merge -/

/-- A shorthand other than `none` fills the scopes that an explicit grant leaves open. -/
theorem merge_shorthand (grants : Grants) {b : Shorthand} (hb : b ≠ .none) :
    (explicit grants).merge (.shorthand b) =
      explicit fun s => (grants s).or (b.levelFor s) := by
  cases b with
  | none => exact absurd rfl hb
  | readAll | writeAll =>
      refine congrArg explicit (funext fun s => ?_)
      cases grants s <;> rfl

/-- A shorthand that is merged into an explicit grant keeps the levels that are there. -/
theorem get_merge_shorthand (grants : Grants) (b : Shorthand) (h : grants s = some level) :
    ((explicit grants).merge (.shorthand b)).get s = some level := by
  by_cases hb : b = .none
  · subst hb
    exact h
  · rw [merge_shorthand grants hb, get_explicit, h, Option.some_or]

/-- A merge takes nothing away from an explicit grant. -/
theorem height_le_merge (grants : Grants) (q : Permissions) (s : Scope) :
    height (grants s) ≤ height (((explicit grants).merge q).get s) := by
  cases q with
  | shorthand b =>
      cases h : grants s with
      | none => exact Nat.zero_le _
      | some level => exact Nat.le_of_eq (congrArg height (get_merge_shorthand grants b h).symm)
  | explicit grants' =>
      change _ ≤ height (maxLevel (grants s) (grants' s))
      rw [height_maxLevel]
      exact Nat.le_max_left _ _

/-- What has been merged is not changed by merging it again. -/
theorem merge_merge_self (p q : Permissions) : (p.merge q).merge q = p.merge q := by
  cases p with
  | shorthand a =>
      cases q with
      | shorthand b => exact congrArg shorthand (Shorthand.max_max_self a b)
      | explicit grants =>
          refine congrArg explicit (funext fun s => ?_)
          exact (maxLevel_eq (grants s) (grants s)).elim id id
  | explicit grants =>
      cases q with
      | shorthand b =>
          by_cases hb : b = .none
          · subst hb
            rfl
          · rw [merge_shorthand grants hb, merge_shorthand _ hb]
            exact congrArg explicit (funext fun s => by rw [Option.or_assoc, Option.or_self])
      | explicit grants' =>
          exact congrArg explicit (funext fun s => maxLevel_maxLevel_self _ _)

/-- **Merging never escalates and is stable.** In each scope a merge gives what one of its two
sides gives. If the first side is an explicit grant, no level is lowered or lost, and a
shorthand leaves each level as it is. Merging the same again changes nothing. -/
theorem merge_conservative (p q : Permissions) :
    (∀ s, (p.merge q).get s = p.get s ∨ (p.merge q).get s = q.get s) ∧
      (p.isShorthand = false →
        (∀ s, height (p.get s) ≤ height ((p.merge q).get s)) ∧
        (q.isShorthand = true →
          ∀ s level, p.get s = some level → (p.merge q).get s = some level)) ∧
      (p.merge q).merge q = p.merge q := by
  refine ⟨get_merge p q, fun hp => ?_, merge_merge_self p q⟩
  cases p with
  | shorthand a => cases hp
  | explicit grants =>
      refine ⟨height_le_merge grants q, fun hq s level hlevel => ?_⟩
      cases q with
      | shorthand b => exact get_merge_shorthand grants b hlevel
      | explicit grants' => cases hq

/-- A shorthand that is merged into an explicit grant fills what is open, but gives no level to
identity tokens. -/
theorem merge_conservative_readAll :
    let p := ofScopes [(.contents, .write)]
    let m := p.merge (.shorthand .readAll)
    p.isShorthand = false ∧ m.get .issues = some .read ∧ m.get .idToken = none ∧
      m.get .contents = some .write ∧ m.merge (.shorthand .readAll) = m := by
  intro p m
  obtain ⟨-, hexplicit, hstable⟩ := merge_conservative p (.shorthand .readAll)
  exact ⟨rfl, rfl, rfl, (hexplicit rfl).2 rfl .contents .write rfl, hstable⟩

/-! ### Merging a list -/

/-- The permissions of a list, merged one after the other into the explicit grant of
nothing. -/
def mergeAll (l : List Permissions) : Permissions := l.foldl merge empty

/-- **The highest level** that the permissions of a list give to a scope; none if none of them
gives any. -/
structure IsHighest (l : List Permissions) (s : Scope) (a : Option Level) : Prop where
  given : ∀ level, a = some level → ∃ p ∈ l, p.get s = some level
  bound : ∀ p ∈ l, height (p.get s) ≤ height a

namespace IsHighest

variable {l l' : List Permissions}

/-- There is no highest level exactly where no level is given. -/
theorem eq_none_iff (h : IsHighest l s a) : a = none ↔ ∀ p ∈ l, p.get s = none := by
  constructor
  · rintro rfl p hp
    exact height_injective (Nat.le_zero.mp (h.bound p hp))
  · intro hnone
    cases a with
    | none => rfl
    | some level =>
        obtain ⟨p, hp, hlevel⟩ := h.given level rfl
        rw [hnone p hp] at hlevel
        cases hlevel

/-- The highest level of a longer list is not lower. -/
theorem height_le (h : IsHighest l s a) (h' : IsHighest l' s b) (hsubset : l ⊆ l') :
    height a ≤ height b := by
  cases a with
  | none => exact Nat.zero_le _
  | some level =>
      obtain ⟨p, hp, hlevel⟩ := h.given level rfl
      exact hlevel ▸ h'.bound p (hsubset hp)

/-- Lists of the same permissions have the same highest level. -/
theorem unique (h : IsHighest l s a) (h' : IsHighest l' s b) (hmem : ∀ p, p ∈ l' ↔ p ∈ l) :
    a = b :=
  height_injective (Nat.le_antisymm (h.height_le h' fun p => (hmem p).mpr)
    (h'.height_le h fun p => (hmem p).mp))

/-- The highest level behind a merge is the highest one behind its two sides. -/
theorem of_merge {grants grants' : Grants}
    (h : IsHighest ((explicit grants).merge (explicit grants') :: l) s a) :
    IsHighest (explicit grants :: explicit grants' :: l) s a := by
  have hmerge : height (maxLevel (grants s) (grants' s)) ≤ height a :=
    h.bound _ List.mem_cons_self
  rw [height_maxLevel] at hmerge
  constructor
  · intro level hlevel
    obtain ⟨p, hp, hget⟩ := h.given level hlevel
    rcases List.mem_cons.mp hp with rfl | hp
    · -- the merge gives what one of the two gives
      rcases get_merge (explicit grants) (explicit grants') s with heq | heq
      · exact ⟨_, List.mem_cons_self, heq ▸ hget⟩
      · exact ⟨_, List.mem_cons_of_mem _ List.mem_cons_self, heq ▸ hget⟩
    · exact ⟨p, List.mem_cons_of_mem _ (List.mem_cons_of_mem _ hp), hget⟩
  · intro p hp
    rcases List.mem_cons.mp hp with rfl | hp
    · exact Nat.le_trans (Nat.le_max_left _ _) hmerge
    · rcases List.mem_cons.mp hp with rfl | hp
      · exact Nat.le_trans (Nat.le_max_right _ _) hmerge
      · exact h.bound p (List.mem_cons_of_mem _ hp)

end IsHighest

/-- Explicit grants that are merged into an explicit grant one after the other give the highest
level of all of them. -/
theorem exists_foldl_merge {l : List Permissions} (hl : ∀ p ∈ l, p.isShorthand = false)
    (grants : Grants) :
    ∃ grants', l.foldl merge (explicit grants) = explicit grants' ∧
      ∀ s, IsHighest (explicit grants :: l) s (grants' s) := by
  induction l generalizing grants with
  | nil =>
      refine ⟨grants, rfl, fun s => ⟨fun level hlevel => ⟨_, List.mem_cons_self, hlevel⟩, ?_⟩⟩
      rintro p hp
      obtain rfl := List.mem_singleton.mp hp
      exact Nat.le_refl _
  | cons p l ih =>
      rw [List.forall_mem_cons] at hl
      cases p with
      | shorthand b => cases hl.1
      | explicit grants₁ =>
          obtain ⟨grants', hfold, hhighest⟩ :=
            ih hl.2 fun s => maxLevel (grants s) (grants₁ s)
          exact ⟨grants', hfold, fun s => (hhighest s).of_merge⟩

/-- **Explicit grants merge to their highest levels.** -/
theorem isHighest_mergeAll {l : List Permissions} (hl : ∀ p ∈ l, p.isShorthand = false) :
    ∃ grants, mergeAll l = explicit grants ∧ ∀ s, IsHighest l s (grants s) := by
  obtain ⟨grants, hfold, hhighest⟩ := exists_foldl_merge hl fun _ => none
  refine ⟨grants, hfold, fun s => ⟨fun level hlevel => ?_, fun p hp =>
    (hhighest s).bound p (List.mem_cons_of_mem _ hp)⟩⟩
  obtain ⟨p, hp, hget⟩ := (hhighest s).given level hlevel
  rcases List.mem_cons.mp hp with rfl | hp
  · cases hget
  · exact ⟨p, hp, hget⟩

/-- The order and the number of explicit grants do not count when they are merged. -/
theorem mergeAll_eq_of_mem_iff {l l' : List Permissions}
    (hl : ∀ p ∈ l, p.isShorthand = false) (hmem : ∀ p, p ∈ l' ↔ p ∈ l) :
    mergeAll l' = mergeAll l := by
  obtain ⟨grants, heq, hhighest⟩ := isHighest_mergeAll hl
  obtain ⟨grants', heq', hhighest'⟩ := isHighest_mergeAll fun p hp => hl p ((hmem p).mp hp)
  rw [heq, heq']
  exact congrArg explicit (funext fun s => ((hhighest s).unique (hhighest' s) hmem).symm)

end Permissions

end AgentPipeline
