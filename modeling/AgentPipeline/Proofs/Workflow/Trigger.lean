import AgentPipeline.Workflow.Document
import AgentPipeline.Proofs.Except
import AgentPipeline.Proofs.Yaml.WellFormed
import Mathlib.Data.List.Perm.Basic
import Mathlib.Tactic.SplitIfs

/-!
# The section of the triggers

The section is read entry by entry. A key is an event or one of four settings, and what one entry
does (`addEntry_cases`) leads to what has been read after some of them (`Reads.addEntry`,
`reads_of_foldlM`): of each setting and each event what the last key with its text has, and of the
lock whether one of the events asked for it. So a section says what its entries say
(`says_of_ofValue`).

The entry of the lock is taken out of the configuration of an event by moving the last entry into
its place. There is one such entry at most, because a mapping has no equal keys, and so nothing else
is lost (`removeSwapping_perm`, `keeps_eventConfig`). The keys of the section are not equal either,
but keys with different tags may have the same text (`ofValue_tagged`).

The section of a document is well-formed (`Workflow.exists_section_of_parse`), so all of this holds
for documents.
-/

namespace AgentPipeline

open Yaml

namespace Yaml.Value

variable {entries : List (Value × Value)} {key : String} {v : Value}

/-- A value is a string without tags if it is this string. -/
theorem isString_iff : v.isString key = true ↔ v = .string key := by
  cases v with
  | string t => simpa [isString] using eq_comm
  | _ => simp [isString]

/-- The keys of a mapping that are not equal to its first one are not the same string. -/
theorem isString_eq_false_of_same {k : Value} (hk : k.isString key = true)
    (h : k.same v = false) : v.isString key = false := by
  obtain rfl := isString_iff.mp hk
  by_contra hv
  obtain rfl := isString_iff.mp (by simpa using hv)
  simp [same] at h

/-- In a mapping without equal keys a string key has one entry, which a look-up finds. -/
theorem lookup_eq_some_iff (h : keysDistinct entries = true) :
    lookup key entries = some v ↔ (.string key, v) ∈ entries := by
  induction entries with
  | nil => simp [lookup]
  | cons e rest ih =>
      obtain ⟨k, w⟩ := e
      obtain ⟨hk, hrest⟩ : (∀ e ∈ rest, k.same e.1 = false) ∧ keysDistinct rest = true := by
        simpa [keysDistinct] using h
      cases hkey : k.isString key with
      | true =>
          have hnone : (.string key, v) ∉ rest := fun hmem => by
            simpa [isString] using isString_eq_false_of_same hkey (hk _ hmem)
          obtain rfl := isString_iff.mp hkey
          simp [lookup, isString, hnone, eq_comm]
      | false =>
          have hne : k ≠ .string key := by
            rintro rfl
            simp [isString] at hkey
          have hlookup : lookup key ((k, w) :: rest) = lookup key rest := by
            simp [lookup, hkey]
          rw [hlookup, ih hrest, List.mem_cons, Prod.mk.injEq]
          simp [hne.symm]

/-- In a mapping without equal keys there is one entry of a string key at most to take out. -/
theorem eraseP_eq_filter (h : keysDistinct entries = true) :
    entries.eraseP (·.1.isString key) = entries.filter fun e => !e.1.isString key := by
  induction entries with
  | nil => rfl
  | cons e rest ih =>
      obtain ⟨k, w⟩ := e
      obtain ⟨hk, hrest⟩ : (∀ e ∈ rest, k.same e.1 = false) ∧ keysDistinct rest = true := by
        simpa [keysDistinct] using h
      cases hkey : k.isString key with
      | true =>
          have hothers : ∀ e ∈ rest, e.1.isString key = false := fun e he =>
            isString_eq_false_of_same hkey (hk e he)
          have hfilter : (rest.filter fun e => !e.1.isString key) = rest :=
            List.filter_eq_self.mpr fun e he => by simp [hothers e he]
          simp [hkey, hfilter]
      | false => simp [hkey, ih hrest]

end Yaml.Value

namespace TriggerSection

variable {entries : List (Value × Value)} {key event : String} {k v : Value}
  {s s' : TriggerSection}

/-! ### The configuration of an event -/

/-- Nothing is removed where the key is not found. -/
theorem removeSwapping_eq_self (h : ∀ e ∈ entries, e.1.isString key = false) :
    removeSwapping key entries = entries := by
  rw [removeSwapping, List.findIdx?_eq_none_iff.mpr h]

section

variable {front mid : List (Value × Value)} {e last : Value × Value}
  (hfront : ∀ e ∈ front, e.1.isString key = false) (he : e.1.isString key = true)

include hfront he

/-- The key is found behind the entries in front of it. -/
theorem findIdx?_key (back : List (Value × Value)) :
    (front ++ e :: back).findIdx? (·.1.isString key) = some front.length := by
  rw [List.findIdx?_append, List.findIdx?_eq_none_iff.mpr hfront]
  simp [List.findIdx?_cons, he]

/-- The last entry leaves no gap. -/
theorem removeSwapping_last : removeSwapping key (front ++ [e]) = front := by
  rw [removeSwapping, findIdx?_key hfront he]
  simp

/-- The last entry moves into the place of another one. -/
theorem removeSwapping_inner :
    removeSwapping key (front ++ e :: (mid ++ [last])) = front ++ last :: mid := by
  have hset : (front ++ e :: (mid ++ [last])).set front.length last =
      front ++ last :: mid ++ [last] := by simp
  have hlast : (front ++ e :: (mid ++ [last])).getLast? = some last := by
    rw [← List.cons_append, ← List.append_assoc, List.getLast?_concat]
  rw [removeSwapping, findIdx?_key hfront he, hlast]
  change ((front ++ e :: (mid ++ [last])).set front.length last).dropLast = _
  rw [hset, List.dropLast_concat]

end

/-- Taking an entry out changes the order of the others at most. -/
theorem removeSwapping_perm (key : String) (entries : List (Value × Value)) :
    (removeSwapping key entries).Perm (entries.eraseP (·.1.isString key)) := by
  by_cases hmem : ∃ e ∈ entries, e.1.isString key = true
  · obtain ⟨e, he, hkey⟩ := hmem
    obtain ⟨e, front, back, hfront, hkey, rfl, herase⟩ :=
      List.exists_of_eraseP (p := (·.1.isString key)) he hkey
    have hfront' : ∀ e ∈ front, e.1.isString key = false := by simpa using hfront
    rw [herase]
    rcases List.eq_nil_or_concat back with rfl | ⟨mid, last, rfl⟩
    · rw [removeSwapping_last hfront' hkey, List.append_nil]
    · rw [List.concat_eq_append, removeSwapping_inner hfront' hkey]
      exact (List.perm_append_singleton last mid).symm.append_left front
  · have hnone : ∀ e ∈ entries, e.1.isString key = false := by simpa using hmem
    rw [removeSwapping_eq_self hnone, List.eraseP_of_forall_not (by simpa using hmem)]

/-- **The configuration that is kept** of an event: all of it, and of a mapping all entries but the
one of the lock, in any order; a mapping of which nothing is left is null. -/
inductive Keeps : Value → Value → Prop
  | mapping {inner rest : List (Value × Value)} :
      rest.Perm (inner.filter fun e => !e.1.isString lockKey) → rest ≠ [] →
      Keeps (.mapping inner) (.mapping rest)
  | nothing {inner : List (Value × Value)} : inner.filter (fun e => !e.1.isString lockKey) = [] →
      Keeps (.mapping inner) .null
  | other {v : Value} : (∀ inner, v ≠ .mapping inner) → Keeps v v

/-- The configuration of an event is kept, apart from the entry of the lock. -/
theorem keeps_eventConfig (h : v.WellFormed) : Keeps v (eventConfig v) := by
  cases v with
  | mapping inner =>
      have hperm : (removeSwapping lockKey inner).Perm
          (inner.filter fun e => !e.1.isString lockKey) := by
        rw [← Value.eraseP_eq_filter (Value.wellFormed_mapping.mp h).1]
        exact removeSwapping_perm lockKey inner
      rw [eventConfig]
      split
      · next hempty =>
        rw [List.isEmpty_iff.mp hempty] at hperm
        exact .nothing hperm.symm.eq_nil
      · next hne => exact .mapping hperm (by simpa using hne)
  | _ => exact .other nofun

/-! ### One entry -/

/-- The keys that are not events but settings of the workflow. -/
def settingKeys : List String := ["stop-after", "skip-if-match", "skip-if-no-match", "reaction"]

/-- What one entry of the section does. -/
theorem addEntry_cases (h : s.addEntry k v = .ok s') : ∃ key, k.asString? = some key ∧
    ((key = "stop-after" ∧ ∃ t, readStopTime v = .ok t ∧ s' = { s with stopTime := some t }) ∨
      (key = "skip-if-match" ∧
        ∃ q, readSkipQuery key v = .ok q ∧ s' = { s with skipIfMatch := some q }) ∨
      (key = "skip-if-no-match" ∧
        ∃ q, readSkipQuery key v = .ok q ∧ s' = { s with skipIfNoMatch := some q }) ∨
      (key = "reaction" ∧ ∃ r, readReaction v = .ok r ∧ s' = { s with reaction := r }) ∨
      (key ∉ settingKeys ∧ s' = s.addEvent key v)) := by
  unfold addEntry at h
  cases hk : k.asString? with
  | none => simp [hk] at h
  | some key =>
      rw [hk] at h
      refine ⟨key, rfl, ?_⟩
      dsimp only at h
      -- the keys of the settings are asked for one after the other
      split_ifs at h with hstop hmatch hnoMatch hreaction
      · obtain ⟨t, ht, h⟩ := bind_eq_ok_iff.mp h
        exact .inl ⟨hstop, t, ht, (Except.ok.inj h).symm⟩
      · obtain ⟨q, hq, h⟩ := bind_eq_ok_iff.mp h
        exact .inr (.inl ⟨hmatch, q, hq, (Except.ok.inj h).symm⟩)
      · obtain ⟨q, hq, h⟩ := bind_eq_ok_iff.mp h
        exact .inr (.inr (.inl ⟨hnoMatch, q, hq, (Except.ok.inj h).symm⟩))
      · obtain ⟨r, hr, h⟩ := bind_eq_ok_iff.mp h
        exact .inr (.inr (.inr (.inl ⟨hreaction, r, hr, (Except.ok.inj h).symm⟩)))
      · have hevent : key ∉ settingKeys := by
          simp [settingKeys, hstop, hmatch, hnoMatch, hreaction]
        exact .inr (.inr (.inr (.inr ⟨hevent, (Except.ok.inj h).symm⟩)))

/-! ### All entries -/

/-- The value under the last key with a text, whatever its tags. -/
def lastAt (key : String) (entries : List (Value × Value)) : Option Value :=
  (entries.reverse.find? fun e => e.1.asString? = some key).map (·.2)

/-- The last entry with the text counts. -/
theorem lastAt_concat : lastAt key (entries ++ [(k, v)]) =
    if k.asString? = some key then some v else lastAt key entries := by
  rw [lastAt, List.reverse_append, List.reverse_singleton, List.singleton_append,
    List.find?_cons]
  split
  · next h => rw [if_pos (by simpa using h)]; rfl
  · next h => rw [if_neg (by simpa using h)]; rfl

/-- What stands under the last key is the value of an entry. -/
theorem mem_of_lastAt (h : lastAt key entries = some v) : ∃ e ∈ entries, e.2 = v := by
  obtain ⟨e, he, rfl⟩ := Option.map_eq_some_iff.mp h
  exact ⟨e, List.mem_reverse.mp (List.mem_of_find?_eq_some he), rfl⟩

/-- There is a last key if there is any with the text. -/
theorem isSome_lastAt_iff :
    (lastAt key entries).isSome ↔ ∃ e ∈ entries, e.1.asString? = some key := by
  rw [lastAt, Option.isSome_map, List.find?_isSome]
  simp

/-- **What has been read** after some entries: of each setting the last value, of each event the
configuration under its last key, and the lock if any of them asked for it. -/
structure Reads (entries : List (Value × Value)) (s : TriggerSection) : Prop where
  events : ∀ event, s.events.get? event =
    if event ∈ settingKeys then none else (lastAt event entries).map eventConfig
  stopTime : (lastAt "stop-after" entries).map readStopTime = s.stopTime.map .ok
  skipIfMatch : (lastAt "skip-if-match" entries).map (readSkipQuery "skip-if-match") =
    s.skipIfMatch.map .ok
  skipIfNoMatch : (lastAt "skip-if-no-match" entries).map (readSkipQuery "skip-if-no-match") =
    s.skipIfNoMatch.map .ok
  reaction : ((lastAt "reaction" entries).map readReaction).getD (.ok none) = .ok s.reaction
  lockForAgent : s.lockForAgent =
    entries.any fun e => e.1.asString?.any fun event => asksForLock event e.2

/-- In front of the entries nothing has been read. -/
theorem reads_empty : Reads [] empty where
  events event := by simp [lastAt, empty, Dictionary.get?, Dictionary.empty, Dictionary.find?]
  stopTime := rfl
  skipIfMatch := rfl
  skipIfNoMatch := rfl
  reaction := rfl
  lockForAgent := rfl

/-- A setting is no event, so it does not ask for the lock. -/
theorem asksForLock_of_mem_settingKeys (h : key ∈ settingKeys) : asksForLock key v = false := by
  have hevent : Names.lockableEvents.contains key = false := by
    revert key
    decide
  cases v with
  | mapping inner => rw [asksForLock, hevent, Bool.false_and]
  | _ => rfl

section

variable (hr : Reads entries s) (hk : k.asString? = some key)

include hr hk

/-- The lock is asked for by one of the entries read or by the next one. -/
theorem Reads.lockForAgent_concat : (s.lockForAgent || asksForLock key v) =
    (entries ++ [(k, v)]).any fun e => e.1.asString?.any fun event => asksForLock event e.2 := by
  simp [hr.lockForAgent, hk]

/-- A setting leaves the events alone. -/
theorem Reads.events_of_setting (hkey : key ∈ settingKeys) (event : String) :
    s.events.get? event = if event ∈ settingKeys then none
      else (lastAt event (entries ++ [(k, v)])).map eventConfig := by
  rw [hr.events, lastAt_concat, hk]
  split
  · rfl
  · next hevent =>
    have hne : some key ≠ some event := by
      rintro heq
      exact hevent (Option.some.inj heq ▸ hkey)
    rw [if_neg hne]

/-- A setting leaves the lock alone. -/
theorem Reads.lockForAgent_of_setting (hkey : key ∈ settingKeys) : s.lockForAgent =
    (entries ++ [(k, v)]).any fun e => e.1.asString?.any fun event => asksForLock event e.2 := by
  rw [← hr.lockForAgent_concat hk, asksForLock_of_mem_settingKeys hkey, Bool.or_false]

end

/-- Each entry is read. -/
theorem Reads.addEntry (hr : Reads entries s) (h : s.addEntry k v = .ok s') :
    Reads (entries ++ [(k, v)]) s' := by
  obtain ⟨key, hk, hcases⟩ := addEntry_cases h
  have hstop := hr.stopTime
  have hmatch := hr.skipIfMatch
  have hnoMatch := hr.skipIfNoMatch
  have hreaction := hr.reaction
  rcases hcases with ⟨rfl, t, ht, rfl⟩ | ⟨rfl, q, hq, rfl⟩ | ⟨rfl, q, hq, rfl⟩ |
    ⟨rfl, r, hr', rfl⟩ | ⟨hevent, rfl⟩
  -- a setting changes its own field; an event changes the events and the lock
  · exact ⟨hr.events_of_setting hk (by decide), by simp [lastAt_concat, hk, ht],
      by simpa [lastAt_concat, hk] using hmatch, by simpa [lastAt_concat, hk] using hnoMatch,
      by simpa [lastAt_concat, hk] using hreaction, hr.lockForAgent_of_setting hk (by decide)⟩
  · exact ⟨hr.events_of_setting hk (by decide), by simpa [lastAt_concat, hk] using hstop,
      by simp [lastAt_concat, hk, hq], by simpa [lastAt_concat, hk] using hnoMatch,
      by simpa [lastAt_concat, hk] using hreaction, hr.lockForAgent_of_setting hk (by decide)⟩
  · exact ⟨hr.events_of_setting hk (by decide), by simpa [lastAt_concat, hk] using hstop,
      by simpa [lastAt_concat, hk] using hmatch, by simp [lastAt_concat, hk, hq],
      by simpa [lastAt_concat, hk] using hreaction, hr.lockForAgent_of_setting hk (by decide)⟩
  · exact ⟨hr.events_of_setting hk (by decide), by simpa [lastAt_concat, hk] using hstop,
      by simpa [lastAt_concat, hk] using hmatch, by simpa [lastAt_concat, hk] using hnoMatch,
      by simp [lastAt_concat, hk, hr'], hr.lockForAgent_of_setting hk (by decide)⟩
  · obtain ⟨hne₁, hne₂, hne₃, hne₄⟩ : key ≠ "stop-after" ∧ key ≠ "skip-if-match" ∧
        key ≠ "skip-if-no-match" ∧ key ≠ "reaction" := by simpa [settingKeys] using hevent
    refine ⟨fun event => ?_, by simpa [addEvent, lastAt_concat, hk, hne₁] using hstop,
      by simpa [addEvent, lastAt_concat, hk, hne₂] using hmatch,
      by simpa [addEvent, lastAt_concat, hk, hne₃] using hnoMatch,
      by simpa [addEvent, lastAt_concat, hk, hne₄] using hreaction, hr.lockForAgent_concat hk⟩
    rw [lastAt_concat, hk]
    change (s.events.insert key (eventConfig v)).get? event = _
    rw [Dictionary.get?_insert, hr.events]
    by_cases heq : event = key
    · subst heq
      simp [hevent]
    · simp [heq, Ne.symm heq]

/-- All entries are read. -/
theorem reads_of_foldlM (h : entries.foldlM (fun s e => s.addEntry e.1 e.2) empty = .ok s) :
    Reads entries s :=
  foldlM_invariant_append (fun _ _ _ _ hr hstep => hr.addEntry hstep) reads_empty h

/-! ### The section of a mapping -/

/-- An event asks for the lock if it can be locked and its mapping says so. -/
theorem asksForLock_iff (h : v.WellFormed) : asksForLock event v = true ↔
    event ∈ Names.lockableEvents ∧ ∃ inner, v = .mapping inner ∧
      ∃ flag, (.string lockKey, flag) ∈ inner ∧ flag.asBool? = some true := by
  cases v with
  | mapping inner =>
      have hlookup : ((Value.lookup lockKey inner).bind (·.asBool?)).getD false = true ↔
          ∃ flag, (.string lockKey, flag) ∈ inner ∧ flag.asBool? = some true := by
        rw [Option.getD_eq_iff]
        simp [Option.bind_eq_some_iff,
          Value.lookup_eq_some_iff (Value.wellFormed_mapping.mp h).1]
      simp [asksForLock, hlookup]
  | _ => simp [asksForLock]

/-- A reaction that is read is set unless it is `none`. -/
theorem isSome_of_readReaction {r : Option String} (h : readReaction v = .ok r) :
    r.isSome ↔ scalarText? v ≠ some "none" := by
  unfold readReaction at h
  dsimp only at h
  split at h
  · -- the number one is the reaction `+1`
    rw [pure_bind, if_pos (by decide)] at h
    obtain rfl := Except.ok.inj h
    decide
  · split at h
    · next name hname =>
      rw [pure_bind] at h
      split at h
      · obtain rfl := Except.ok.inj h
        rw [hname, Ne, Option.some.injEq]
        split <;> simp [*]
      · cases h
    · cases h

/-- **What a section says**, entry by entry. Keys are compared by their text; if two of them differ
in their tags only, the last one counts. -/
structure Says (entries : List (Value × Value)) (s : TriggerSection) : Prop where
  /-- the events are the keys that are no settings -/
  mem_keys : ∀ event, event ∈ s.events.keys ↔
    event ∉ settingKeys ∧ ∃ e ∈ entries, e.1.asString? = some event
  /-- each event keeps its configuration -/
  config : ∀ event config, s.events.get? event = some config →
    ∃ v, lastAt event entries = some v ∧ Keeps v config
  /-- the lock is asked for in the configuration of an event with an issue -/
  lockForAgent : s.lockForAgent = true ↔ ∃ e ∈ entries,
    (e.1.asString? = some "issues" ∨ e.1.asString? = some "issue_comment") ∧
      ∃ inner, e.2 = .mapping inner ∧
        ∃ flag, (.string "lock-for-agent", flag) ∈ inner ∧ flag.asBool? = some true
  /-- the settings are set if their key occurs -/
  stopTime : s.stopTime.isSome ↔ ∃ e ∈ entries, e.1.asString? = some "stop-after"
  skipIfMatch : s.skipIfMatch.isSome ↔ ∃ e ∈ entries, e.1.asString? = some "skip-if-match"
  skipIfNoMatch : s.skipIfNoMatch.isSome ↔ ∃ e ∈ entries, e.1.asString? = some "skip-if-no-match"
  /-- the reaction `none` counts as none -/
  reaction : s.reaction.isSome ↔
    ∃ v, lastAt "reaction" entries = some v ∧ scalarText? v ≠ some "none"

/-- A setting is read if and only if one of the keys has its text. -/
theorem isSome_of_map_eq {α : Type} {f : Value → Except ConfigError α} {o : Option α}
    (h : (lastAt key entries).map f = o.map .ok) :
    o.isSome ↔ ∃ e ∈ entries, e.1.asString? = some key := by
  have hsome := congrArg Option.isSome h
  rw [Option.isSome_map, Option.isSome_map] at hsome
  rw [← hsome, isSome_lastAt_iff]

/-- What has been read after all entries is what the section says. -/
theorem says_of_reads (hr : Reads entries s) (hvalues : ∀ e ∈ entries, e.2.WellFormed) :
    Says entries s where
  -- by what has been read last under each key
  mem_keys event := by
    rw [← Dictionary.contains_iff_mem_keys, Dictionary.contains, hr.events, ← isSome_lastAt_iff]
    split <;> simp [*]
  config event config h := by
    rw [hr.events] at h
    split at h
    · cases h
    · obtain ⟨v, hv, rfl⟩ := Option.map_eq_some_iff.mp h
      obtain ⟨e, he, rfl⟩ := mem_of_lastAt hv
      exact ⟨e.2, hv, keeps_eventConfig (hvalues e he)⟩
  lockForAgent := by
    rw [hr.lockForAgent, List.any_eq_true]
    refine exists_congr fun e => and_congr_right fun he => ?_
    rw [Option.any_eq_true]
    constructor
    · rintro ⟨event, hevent, hasks⟩
      obtain ⟨hlockable, hflag⟩ := (asksForLock_iff (hvalues e he)).mp hasks
      rw [hevent]
      exact ⟨by simpa [Names.lockableEvents] using hlockable, hflag⟩
    · rintro ⟨hevent | hevent, hflag⟩
      · exact ⟨_, hevent, (asksForLock_iff (hvalues e he)).mpr ⟨by decide, hflag⟩⟩
      · exact ⟨_, hevent, (asksForLock_iff (hvalues e he)).mpr ⟨by decide, hflag⟩⟩
  stopTime := isSome_of_map_eq hr.stopTime
  skipIfMatch := isSome_of_map_eq hr.skipIfMatch
  skipIfNoMatch := isSome_of_map_eq hr.skipIfNoMatch
  reaction := by
    have hreaction := hr.reaction
    cases hlast : lastAt "reaction" entries with
    | none =>
        rw [hlast] at hreaction
        obtain hnone : none = s.reaction := Except.ok.inj hreaction
        simp [← hnone]
    | some v =>
        rw [hlast] at hreaction
        rw [isSome_of_readReaction hreaction]
        simp

/-- **The section of a mapping** that is accepted says what its entries say. -/
theorem says_of_ofValue (hv : (Value.mapping entries).WellFormed)
    (h : ofValue (.mapping entries) = .ok s) : Says entries s := by
  obtain ⟨-, hentries⟩ := Value.wellFormed_mapping.mp hv
  obtain ⟨s', hread, h⟩ := bind_eq_ok_iff.mp h
  split at h
  · cases h
  · obtain rfl := Except.ok.inj h
    exact says_of_reads (reads_of_foldlM hread) fun e he => (hentries e he).2

/-- The lock leaves the configuration of the issues, whose last entry moves into its place, and
the empty configuration of the pushes becomes null. -/
theorem says_of_ofValue_lock :
    let entries : List (Value × Value) :=
      [(.string "issues", .mapping [(.string "lock-for-agent", .bool true),
          (.string "types", .sequence [.string "opened"]), (.string "names", .null)]),
        (.string "stop-after", .string "+7d"), (.string "push", .mapping []),
        (.string "reaction", .number (.int 1)), (.string "schedule", .string "daily")]
    (Value.mapping entries).WellFormed ∧
      ∃ s, ofValue (.mapping entries) = .ok s ∧ Says entries s ∧
        s.events.entries = [("issues", .mapping [(.string "names", .null),
          (.string "types", .sequence [.string "opened"])]), ("push", .null),
          ("schedule", .string "daily")] ∧
        s.lockForAgent = true ∧ s.stopTime = some "+7d" ∧ s.skipIfMatch = none ∧
        s.skipIfNoMatch = none ∧ s.reaction = some "+1" := by
  intro entries
  have hv : (Value.mapping entries).WellFormed := by
    simp [entries, Value.keysDistinct, Value.same]
  refine ⟨hv, _, rfl, says_of_ofValue hv rfl, ?_⟩
  exact ⟨rfl, rfl, rfl, rfl, rfl, rfl⟩

/-- Keys with different tags are not equal, but tags do not tell events apart, so one of two
configurations is lost. The lock is asked for whatever the tag of the answer. -/
theorem ofValue_tagged :
    let entries : List (Value × Value) :=
      [(.string "issues", .mapping [(.string "types", .sequence [.string "opened"]),
          (.string "lock-for-agent", .tagged "ask" (.bool true))]),
        (.tagged "again" (.string "issues"),
          .mapping [(.string "types", .sequence [.string "closed"])])]
    (Value.mapping entries).WellFormed ∧
      ∃ s, ofValue (.mapping entries) = .ok s ∧
        s.events.entries =
          [("issues", .mapping [(.string "types", .sequence [.string "closed"])])] ∧
        s.lockForAgent = true := by
  intro entries
  have hv : (Value.mapping entries).WellFormed := by
    simp [entries, Value.keysDistinct, Value.same, Value.WellFormed.tagged]
  exact ⟨hv, _, rfl, rfl, rfl⟩

end TriggerSection

/-! ### The section of a document -/

namespace Frontmatter

open Yaml.Reader (Yields)

/-- What a field gives has the property that its reader keeps to, if there is the field. -/
theorem yields_field {α : Type} {P : α → Prop} {fields : List (String × Node)} {name : String}
    {inner : Node → Yaml.Reader α} (h : ∀ n, Yields P (inner n)) :
    Yields (fun o => ∀ a, o = some a → P a) (field fields name inner) := by
  unfold field
  split
  · exact .optional h _
  · exact .pure nofun

/-- The section of the triggers is well-formed. -/
theorem yields_read (n : Node) :
    Yields (fun f : Frontmatter => ∀ v, f.triggers = some v → v.WellFormed) (read n) := by
  unfold read
  refine .bind_any fun fields => ?_
  dsimp only
  split
  · exact .failure_bind
  · refine .bind_any fun name => .bind_any fun description => ?_
    refine Yields.bind (yields_field (Yaml.Reader.yields_value depth)) fun triggers htriggers => ?_
    -- the other fields are read as they may be
    iterate 11 refine .bind_any fun _ => ?_
    split
    all_goals
      refine .bind_any fun jobs => ?_
      split <;> exact .bind_any fun steps => .pure htriggers

/-- The section of the triggers of a frontmatter is well-formed. -/
theorem wellFormed_triggers {yaml : String} {f : Frontmatter} {v : Value}
    (h : parse? yaml = some f) (hv : f.triggers = some v) : v.WellFormed := by
  unfold parse? at h
  split at h
  · obtain rfl := Option.some.inj h
    cases hv
  · obtain ⟨d, -, hread⟩ := Option.bind_eq_some_iff.mp h
    obtain ⟨⟨f, left⟩, hrun, rfl⟩ := Option.map_eq_some_iff.mp hread
    exact yields_read _ _ _ f left hrun v hv

end Frontmatter

namespace Workflow

/-- The triggers of a workflow and the settings beside them are those of a section. -/
structure HasSection (w : Workflow) (s : TriggerSection) : Prop where
  triggers : w.triggers = s.events
  stopTime : w.stopTime = s.stopTime
  skipIfMatch : w.skipIfMatch = s.skipIfMatch
  skipIfNoMatch : w.skipIfNoMatch = s.skipIfNoMatch
  reaction : w.reaction = s.reaction
  lockForAgent : w.lockForAgent = s.lockForAgent

/-- A workflow is made from the section of its triggers. -/
theorem exists_section_of_ofFrontmatter {f : Frontmatter} {body : String} {w : Workflow}
    (h : ofFrontmatter f body = .ok w) :
    ∃ v s, f.triggers = some v ∧ TriggerSection.ofValue v = .ok s ∧ w.HasSection s := by
  unfold ofFrontmatter at h
  split at h
  · cases h
  · next v hv =>
    dsimp only at h
    split at h
    all_goals
      obtain ⟨safeOutputs, -, h⟩ := bind_eq_ok_iff.mp h
      obtain ⟨s, hs, h⟩ := bind_eq_ok_iff.mp h
      obtain rfl := Except.ok.inj h
      exact ⟨v, s, hv, hs, rfl, rfl, rfl, rfl, rfl, rfl⟩

/-- **The triggers of a document** come from a section that is well-formed. -/
theorem exists_section_of_parse {content : String} {w : Workflow} (h : parse content = .ok w) :
    ∃ v s, v.WellFormed ∧ TriggerSection.ofValue v = .ok s ∧ w.HasSection s := by
  unfold parse at h
  split at h
  · cases h
  · split at h
    · cases h
    · next f hf =>
      obtain ⟨v, s, hv, hs, hw⟩ :=
        exists_section_of_ofFrontmatter (mapError_eq_ok_iff.mp h)
      exact ⟨v, s, Frontmatter.wellFormed_triggers hf hv, hs, hw⟩

end Workflow

end AgentPipeline
