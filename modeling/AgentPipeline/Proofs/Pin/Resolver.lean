import AgentPipeline.Pin.Resolver

/-!
# Pinned references

A reference to an action is **pinned** if it names a commit of which the resolver knows that
it belongs to the version: the look-up gives it for just this version of the repository, or
the catalog has it for the version or for another one with the same major version
(`Resolver.Pins`). A strict resolver gives no other references (`Resolver.pins_of_resolve`).
-/

namespace AgentPipeline.Resolver

variable {r : Resolver} {repo version action : String} {candidates : List Pin} {pin : Pin}

/-- A run through the candidates ends at the first pin of the version. If there is none, it gives
the pin that it started with, or else the first one with the same major version. -/
theorem scan_eq (approximate : Option Pin) : scan version approximate candidates =
    (candidates.find? (·.version == version)).or
      (approximate.or (candidates.find? fun pin => Version.sameMajor pin.version version)) := by
  induction candidates generalizing approximate with
  | nil => simp [scan]
  | cons pin rest ih =>
      rw [scan]
      split
      · next heq => simp [heq]
      · next hne =>
        rw [List.find?_cons_of_neg (by simpa using hne)]
        split
        · next hkept =>
          obtain ⟨hnone, hmajor⟩ := Bool.and_eq_true_iff.mp hkept
          rw [ih, Option.isNone_iff_eq_none.mp hnone]
          simp [hmajor]
        · next hpassed =>
          rw [ih]
          cases approximate with
          | none =>
              have hmajor : Version.sameMajor pin.version version = false := by simpa using hpassed
              simp [hmajor]
          | some kept => simp

/-- The first pin of the version is chosen, or else the first one with the same major version. -/
theorem choose_eq : choose version candidates =
    (candidates.find? (·.version == version)).or
      (candidates.find? fun pin => Version.sameMajor pin.version version) := by
  rw [choose, scan_eq, Option.none_or]

/-- A pin that is chosen is a candidate. -/
theorem mem_of_choose (h : choose version candidates = some pin) : pin ∈ candidates := by
  rw [choose_eq] at h
  rcases Option.or_eq_some_iff.mp h with h | ⟨-, h⟩ <;> exact List.mem_of_find?_eq_some h

/-- What is chosen for a version has this version, or the same major version. -/
theorem version_of_choose (h : choose version candidates = some pin) :
    pin.version = version ∨ Version.sameMajor pin.version version = true := by
  rw [choose_eq] at h
  rcases Option.or_eq_some_iff.mp h with h | ⟨-, h⟩
  · have hversion := List.find?_some h
    exact .inl (by simpa using hversion)
  · have hmajor := List.find?_some h
    exact .inr hmajor

/-- A commit that is looked up is used as it is. -/
theorem resolve_of_lookup {sha : String} (h : r.lookup repo version = some sha) :
    r.resolve repo version = .ok (repo ++ "@" ++ sha ++ " # " ++ version) := by
  rw [resolve, h]
  rfl

/-- Otherwise the pin that is chosen is used, with its version. -/
theorem resolve_of_choose (h : r.lookup repo version = none)
    (hchoose : choose version (r.catalog.filter (·.repo == repo)) = some pin) :
    r.resolve repo version = .ok (repo ++ "@" ++ pin.sha ++ " # " ++ pin.version) := by
  rw [resolve, h, hchoose]
  rfl

/-- Without a pin strict mode refuses, and the version stays as it is otherwise. -/
theorem resolve_of_choose_none (h : r.lookup repo version = none)
    (hchoose : choose version (r.catalog.filter (·.repo == repo)) = none) :
    r.resolve repo version =
      if r.strict then .error (.unpinnedAction repo version) else .ok (repo ++ "@" ++ version) := by
  rw [resolve, h, hchoose]

/-- **Pinned references** to a version of an action: to the commit that is looked up, or to a
commit of the catalog if nothing is. -/
inductive Pins (r : Resolver) (repo version : String) : String → Prop
  | lookup {sha : String} : r.lookup repo version = some sha →
      Pins r repo version (repo ++ "@" ++ sha ++ " # " ++ version)
  | catalog {pin : Pin} : r.lookup repo version = none → pin ∈ r.catalog → pin.repo = repo →
      (pin.version = version ∨ Version.sameMajor pin.version version = true) →
      Pins r repo version (repo ++ "@" ++ pin.sha ++ " # " ++ pin.version)

/-- The references that a strict resolver gives are pinned. -/
theorem pins_of_resolve (hstrict : r.strict = true) (h : r.resolve repo version = .ok action) :
    r.Pins repo version action := by
  unfold resolve at h
  split at h
  · next sha hsha =>
    obtain rfl := Except.ok.inj h
    exact .lookup hsha
  · next hnone =>
    split at h
    · next pin hpin =>
      obtain rfl := Except.ok.inj h
      obtain ⟨hmem, hrepo⟩ := List.mem_filter.mp (mem_of_choose hpin)
      exact .catalog hnone hmem (by simpa using hrepo) (version_of_choose hpin)
    · rw [if_pos hstrict] at h
      cases h

end AgentPipeline.Resolver
