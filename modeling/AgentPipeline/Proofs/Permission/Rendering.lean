import AgentPipeline.Proofs.Permission.Reachable
import AgentPipeline.Proofs.Yaml.Document

/-!
# Permissions that are written are read back

The entry of a job is laid out by hand, and read by the reader of YAML documents. What comes back
is the value that was meant (`Permissions.toValue`), because the names of scopes, levels and
shorthands are words that denote themselves; it depends on no two scopes having the same name
that no level is lost. From the value the reader of permissions makes the same permissions, as
long as these are proper: the level read in the scope `id-token` would be written like any other,
but it is refused when it is read.

So permissions are read back exactly if they are proper, and since all that comes about is
proper, writing and reading undo each other for it. Conversely whatever is read has come about,
hence the proper permissions are just those that can come about (`reachable_iff_proper`).
-/

namespace AgentPipeline

open Yaml (isStringWord Value)

/-! ### Names -/

/-- The name of a scope is a word that denotes itself. -/
theorem Scope.isStringWord_name (s : Scope) : isStringWord s.name = true := by
  cases s <;> decide

/-- The name of a level is a word that denotes itself. -/
theorem Level.isStringWord_name (level : Level) : isStringWord level.name = true := by
  cases level <;> decide

/-- The name of a shorthand is a word that denotes itself. -/
theorem Shorthand.isStringWord_name (b : Shorthand) : isStringWord b.name = true := by
  cases b <;> decide

/-- A scope is found by its name. -/
theorem Scope.ofName?_name (s : Scope) : Scope.ofName? s.name = some s := by
  cases s <;> decide

/-- A level is found by its name. -/
theorem Level.ofName?_name (level : Level) : Level.ofName? level.name = some level := by
  cases level <;> decide

/-- A shorthand is found by its name. -/
theorem Shorthand.ofName?_name (b : Shorthand) : Shorthand.ofName? b.name = some b := by
  cases b <;> decide

/-- No two scopes have the same name. -/
theorem Scope.name_injective : Function.Injective Scope.name := by
  intro s s' h
  exact Option.some.inj (by rw [← Scope.ofName?_name s, h, Scope.ofName?_name])

namespace Permissions

variable {p : Permissions} {grants : Grants} {scope : Scope} {level : Level}

/-! ### Writing -/

/-- The value that is written for permissions. -/
def toValue : Permissions → Value
  | .shorthand b => .string b.name
  | .explicit grants =>
    .mapping ((entries grants).map fun e => (.string e.1.name, .string e.2.name))

/-- No two entries have the same name. -/
theorem nodup_names_entries (grants : Grants) : ((entries grants).map (·.1.name)).Nodup := by
  have hall : Scope.all.Nodup := by decide
  have hkey : ∀ {s : Scope} {e : Scope × Level}, (grants s).map (s, ·) = some e → e.1 = s := by
    intro s e he
    obtain ⟨level, -, rfl⟩ := Option.map_eq_some_iff.mp he
    rfl
  rw [List.Nodup, List.pairwise_map, entries, List.pairwise_filterMap]
  refine hall.imp fun {s s'} hne e he e' he' heq => hne ?_
  rw [← hkey he, ← hkey he']
  exact Scope.name_injective heq

/-- The names of an entry. -/
def names (e : Scope × Level) : String × String := (e.1.name, e.2.name)

/-- The entries are written as lines of words. -/
theorem toList_join_entries (es : List (Scope × Level)) :
    (String.join (es.map fun e => "\n  " ++ e.1.name ++ ": " ++ e.2.name)).toList =
      (es.map names).flatMap (Yaml.Scanner.entryLine 2) := by
  have hline : ∀ e : Scope × Level, ("\n  " ++ e.1.name ++ ": " ++ e.2.name).toList =
      Yaml.Scanner.entryLine 2 (names e) := by
    intro e
    simp [String.toList_append, Yaml.Scanner.entryLine, names, List.replicate_succ]
  rw [String.toList_join, List.flatMap_map, List.flatMap_map]
  simp only [hline]

/-- The document of a job's permissions holds their value. -/
theorem holds_render (p : Permissions) :
    Value.ofDocument? p.render = some (.mapping [(.string "permissions", p.toValue)]) := by
  have hkey : isStringWord "permissions" = true := by decide
  cases p with
  | shorthand b =>
      refine Value.ofDocument?_word hkey b.isStringWord_name ?_
      rw [render, String.toList_append]
      rfl
  | explicit grants =>
      cases hes : entries grants with
      | nil =>
          have hrender : (explicit grants).render = "permissions: \x7b\x7d" := by
            rw [render, hes]
          rw [hrender, toValue, hes]
          exact Value.ofDocument?_braces hkey rfl
      | cons e es =>
          have htext : (explicit grants).render.toList = "permissions".toList ++
              ':' :: ((e :: es).map names).flatMap (Yaml.Scanner.entryLine 2) := by
            rw [render, hes]
            dsimp only
            rw [String.toList_append, toList_join_entries]
            rfl
          have hnames : ∀ e' ∈ (e :: es).map names,
              isStringWord e'.1 = true ∧ isStringWord e'.2 = true := by
            rw [List.forall_mem_map]
            exact fun e _ => ⟨e.1.isStringWord_name, e.2.isStringWord_name⟩
          have hnodup : (((e :: es).map names).map (·.1)).Nodup := by
            rw [← hes, List.map_map]
            exact nodup_names_entries grants
          rw [Value.ofDocument?_entries hkey (List.cons_ne_nil _ _) hnames hnodup (by decide) htext,
            toValue, hes]
          simp [names]

/-! ### Reading -/

/-- Setting a level that a scope supports grants it. -/
theorem set_explicit (grants : Grants) (h : level = .read → scope.supportsRead = true) :
    (explicit grants).set scope level = .explicit (grant grants scope level) := by
  have hallowed : ¬(level = .read ∧ (!scope.supportsRead) = true) := by simpa using h
  rw [set, if_neg hallowed]

/-- The entry of a scope and a level sets the level, if the scope supports it. -/
theorem addEntry_name (p : Permissions) (h : level = .read → scope.supportsRead = true) :
    p.addEntry (.string scope.name) (.string level.name) = .ok (p.set scope level) := by
  have hallowed : ¬(level = .read ∧ (!scope.supportsRead) = true) := by simpa using h
  simp only [addEntry, Value.asString?, Value.untag, Option.getD_some, Scope.ofName?_name,
    Level.ofName?_name]
  exact if_neg hallowed

/-- The entries of some scopes and levels set the levels one after the other. -/
theorem foldlM_addEntry {l : List (Scope × Level)}
    (hl : ∀ e ∈ l, e.2 = .read → e.1.supportsRead = true) (p : Permissions) :
    (l.map fun e => (.string e.1.name, .string e.2.name)).foldlM
      (fun (p : Permissions) e => p.addEntry e.1 e.2) p =
        .ok (l.foldl (fun p e => p.set e.1 e.2) p) := by
  induction l generalizing p with
  | nil => rfl
  | cons e l ih =>
      obtain ⟨he, hl⟩ := List.forall_mem_cons.mp hl
      rw [List.map_cons, List.foldlM_cons, addEntry_name p he]
      exact ih hl (p.set e.1 e.2)

/-- Grants that agree with an explicit grant give its levels to their scopes, and change nothing
elsewhere. -/
theorem foldl_set_explicit {l : List (Scope × Level)} (hproper : (explicit grants).Proper)
    (hl : ∀ e ∈ l, grants e.1 = some e.2) (before : Grants) :
    l.foldl (fun (p : Permissions) e => p.set e.1 e.2) (explicit before) =
      explicit fun s => if s ∈ l.map (·.1) then grants s else before s := by
  induction l generalizing before with
  | nil => simp
  | cons e l ih =>
      obtain ⟨he, hl⟩ := List.forall_mem_cons.mp hl
      have hset : (explicit before).set e.1 e.2 = .explicit (grant before e.1 e.2) :=
        set_explicit before fun hread => hproper e.1 (by rw [get_explicit, he, hread])
      rw [List.foldl_cons, hset, ih hl]
      congr 1
      funext s
      by_cases hs : s ∈ l.map (·.1)
      · simp [hs]
      · by_cases heq : s = e.1
        · subst heq
          simp [hs, grant, he]
        · simp [hs, heq, grant]

/-- Proper grants are made again from their entries. -/
theorem ofScopes_entries (h : (explicit grants).Proper) :
    ofScopes (entries grants) = .explicit grants := by
  have hagree : ∀ e ∈ entries grants, grants e.1 = some e.2 := fun e he => mem_entries.mp he
  rw [ofScopes, empty, foldl_set_explicit h hagree]
  congr 1
  funext s
  cases hs : grants s with
  | none => exact ite_self _
  | some level =>
      exact if_pos (List.mem_map.mpr ⟨(s, level), mem_entries.mpr hs, rfl⟩)

/-- Of proper permissions nothing is refused or lost. -/
theorem ofValue_toValue (h : p.Proper) : ofValue p.toValue = .ok p := by
  cases p with
  | shorthand b => simp only [toValue, ofValue, Shorthand.ofName?_name]
  | explicit grants =>
      have hentries : ∀ e ∈ entries grants, e.2 = .read → e.1.supportsRead = true :=
        fun e he hread => h e.1 (by rw [get_explicit, mem_entries.mp he, hread])
      rw [toValue, ofValue, foldlM_addEntry hentries]
      exact congrArg _ (ofScopes_entries h)

/-! ### Both -/

/-- What is read from the value at the key `permissions` of a document. -/
def ofDocument? (text : String) : Option (Except ConfigError Permissions) :=
  ((Value.ofDocument? text).bind (·.get? "permissions")).map ofValue

/-- From the text of permissions the value that was meant is read. -/
theorem ofDocument?_eq (p : Permissions) : ofDocument? p.render = some (ofValue p.toValue) := by
  rw [ofDocument?, holds_render]
  rfl

/-- Permissions are read back from their entry exactly if they are proper. -/
theorem ofDocument?_render_iff : ofDocument? p.render = some (.ok p) ↔ p.Proper := by
  rw [ofDocument?_eq, Option.some_inj]
  exact ⟨proper_of_ofValue, ofValue_toValue⟩

/-- The level read in the scope `id-token` is refused. -/
example : ofValue (toValue (.explicit (grant (fun _ => none) .idToken .read))) =
    .error (.invalidPermission "id-token" "read") := rfl

/-- **Reading undoes writing.** Whatever permissions come about, from the document of their entry
the same permissions are read. -/
theorem ofDocument?_render (h : p.Reachable) : ofDocument? p.render = some (.ok p) :=
  ofDocument?_render_iff.mpr h.proper

/-- A grant to mint identity tokens besides read access, and an explicit grant of nothing. -/
theorem ofDocument?_render_idToken :
    let p := ofScopes [(.idToken, .write), (.contents, .read), (.idToken, .read)]
    p.Reachable ∧ p.render = "permissions:\n  contents: read\n  id-token: write" ∧
      ofDocument? p.render = some (.ok p) ∧ ofDocument? empty.render = some (.ok empty) :=
  ⟨.ofScopes _, rfl, ofDocument?_render (.ofScopes _), ofDocument?_render .empty⟩

/-- **What can come about** is just what is proper. -/
theorem reachable_iff_proper : p.Reachable ↔ p.Proper :=
  ⟨Reachable.proper, fun h => .ofValue (ofValue_toValue h)⟩

end Permissions

end AgentPipeline
