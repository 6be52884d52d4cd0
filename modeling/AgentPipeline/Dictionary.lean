/-!
# Dictionaries

A **dictionary** maps strings to values. Its entries are kept in the order of the keys,
which compare by code points, with one entry for each key. The order belongs to the
type, so two dictionaries with the same look-ups are equal and whatever is rendered from
one has a single text.

A **name set** is a dictionary without values.

## Main definitions

* `Dictionary`, with `get?`, `insert`, `ofList`, `keys` and `values`.
* `NameSet`, with `ofList`, `union` and `toList`.

## Main statements

* `Dictionary.get?_insert`: an insertion changes the look-up at its key and no other.
* `Dictionary.contains_iff_mem_keys`: the keys are those with an entry.
* `Dictionary.mem_keys_insert`: the keys after an insertion.
* `Dictionary.nodup_keys`, `Dictionary.get?_eq_some_iff`: each key has one entry, and a
  look-up finds it.
* `Dictionary.eq_of_get?_eq`: dictionaries with the same look-ups are equal.
* `NameSet.mem_toList_ofList`, `NameSet.mem_toList_union`: the members of a list and of two
  sets.
-/

namespace AgentPipeline

/-- Entries in the strict order of their keys. -/
structure Dictionary (α : Type) where
  /-- the entries, in the order of the keys -/
  entries : List (String × α)
  /-- the keys ascend -/
  sorted : entries.Pairwise fun a b => a.1 < b.1

namespace Dictionary

variable {α : Type}

/-- The dictionary without entries. -/
def empty : Dictionary α := ⟨[], .nil⟩

instance : Inhabited (Dictionary α) := ⟨empty⟩

/-- The keys, in order. -/
def keys (d : Dictionary α) : List String := d.entries.map (·.1)

/-- The values, in the order of their keys. -/
def values (d : Dictionary α) : List α := d.entries.map (·.2)

/-- Whether there are no entries. -/
def isEmpty (d : Dictionary α) : Bool := d.entries.isEmpty

/-- The number of entries. -/
def size (d : Dictionary α) : Nat := d.entries.length

/-- The value at a key in a list of entries. -/
def find? (key : String) : List (String × α) → Option α
  | [] => none
  | (k, v) :: rest => if key = k then some v else find? key rest

/-- The value at a key. -/
def get? (d : Dictionary α) (key : String) : Option α := find? key d.entries

/-- Whether a key has an entry. -/
def contains (d : Dictionary α) (key : String) : Bool := (d.get? key).isSome

/-- A key has an entry exactly if it is one of the keys. -/
theorem contains_iff_mem_keys {d : Dictionary α} {key : String} :
    d.contains key = true ↔ key ∈ d.keys := by
  suffices h : ∀ l : List (String × α),
      (find? key l).isSome = true ↔ key ∈ l.map (·.1) from h d.entries
  intro l
  induction l with
  | nil => simp [find?]
  | cons a rest ih =>
      rw [find?, List.map_cons, List.mem_cons, ← ih]
      split
      · next heq => simp [heq]
      · next hne => simp [hne]

/-- Put an entry into its place, over the one with the same key if there is one. -/
def insertEntry (key : String) (value : α) : List (String × α) → List (String × α)
  | [] => [(key, value)]
  | (k, v) :: rest =>
    if key < k then (key, value) :: (k, v) :: rest
    else if key = k then (key, value) :: rest
    else (k, v) :: insertEntry key value rest

theorem mem_insertEntry {key : String} {value : α} {l : List (String × α)}
    {e : String × α} (h : e ∈ insertEntry key value l) : e = (key, value) ∨ e ∈ l := by
  induction l with
  | nil => simpa [insertEntry] using h
  | cons a rest ih =>
      obtain ⟨k, v⟩ := a
      unfold insertEntry at h
      split at h
      · simpa using h
      · split at h
        · rcases List.mem_cons.1 h with h | h
          · exact .inl h
          · exact .inr (List.mem_cons_of_mem _ h)
        · rcases List.mem_cons.1 h with h | h
          · exact .inr (h ▸ List.mem_cons_self)
          · exact (ih h).imp_right (List.mem_cons_of_mem _)

theorem pairwise_insertEntry (key : String) (value : α) {l : List (String × α)}
    (h : l.Pairwise fun a b => a.1 < b.1) :
    (insertEntry key value l).Pairwise fun a b => a.1 < b.1 := by
  induction l with
  | nil => simp [insertEntry]
  | cons a rest ih =>
      obtain ⟨k, v⟩ := a
      rw [List.pairwise_cons] at h
      unfold insertEntry
      split
      · next hlt =>
        refine List.pairwise_cons.2 ⟨fun e he => ?_, List.pairwise_cons.2 h⟩
        rcases List.mem_cons.1 he with rfl | he
        · exact hlt
        · exact String.lt_trans hlt (h.1 e he)
      · split
        · next heq => exact heq ▸ List.pairwise_cons.2 h
        · next hlt hne =>
          refine List.pairwise_cons.2 ⟨fun e he => ?_, ih h.2⟩
          rcases mem_insertEntry he with rfl | he
          · grind
          · exact h.1 e he

/-- The dictionary with this value at this key. -/
def insert (d : Dictionary α) (key : String) (value : α) : Dictionary α :=
  ⟨insertEntry key value d.entries, pairwise_insertEntry key value d.sorted⟩

/-- The dictionary of a list of entries, where the last entry of a key counts. -/
def ofList (l : List (String × α)) : Dictionary α :=
  l.foldl (fun d e => d.insert e.1 e.2) empty

theorem find?_insertEntry (key : String) (value : α) (k : String) (l : List (String × α)) :
    find? k (insertEntry key value l) = if k = key then some value else find? k l := by
  induction l with
  | nil => simp [insertEntry, find?]
  | cons a rest ih =>
      obtain ⟨k', v'⟩ := a
      unfold insertEntry
      split
      · simp [find?]
      · split
        · next heq => subst heq; simp only [find?]; split <;> simp_all
        · simp only [find?, ih]
          grind

/-- An insertion changes the look-up at its key and no other. -/
theorem get?_insert (d : Dictionary α) (key : String) (value : α) (k : String) :
    (d.insert key value).get? k = if k = key then some value else d.get? k :=
  find?_insertEntry key value k d.entries

/-- A key is one of an insertion's keys if it is the new one or was one before. -/
theorem mem_keys_insert {d : Dictionary α} {key : String} {value : α} {k : String} :
    k ∈ (d.insert key value).keys ↔ k = key ∨ k ∈ d.keys := by
  suffices h : ∀ l : List (String × α),
      k ∈ (insertEntry key value l).map (·.1) ↔ k = key ∨ k ∈ l.map (·.1) from h d.entries
  intro l
  induction l with
  | nil => simp [insertEntry]
  | cons a rest ih =>
      obtain ⟨k', v'⟩ := a
      unfold insertEntry
      split
      · simp
      · split
        · next heq => subst heq; simp
        · rw [List.map_cons, List.mem_cons, ih, List.map_cons, List.mem_cons]
          exact or_left_comm

/-- The keys of the dictionary of a list are those of its entries. -/
theorem mem_keys_ofList {l : List (String × α)} {k : String} :
    k ∈ (ofList l).keys ↔ k ∈ l.map (·.1) := by
  suffices h : ∀ d : Dictionary α,
      k ∈ (l.foldl (fun d e => d.insert e.1 e.2) d).keys ↔ k ∈ d.keys ∨ k ∈ l.map (·.1) from
    (h empty).trans (or_iff_right List.not_mem_nil)
  induction l with
  | nil => simp
  | cons e l ih =>
      intro d
      rw [List.foldl_cons, ih, mem_keys_insert, List.map_cons, List.mem_cons, or_assoc,
        or_left_comm]

/-- A value is one of an insertion's values only if it is the new one or was one before. -/
theorem of_mem_values_insert {d : Dictionary α} {key : String} {value v : α}
    (h : v ∈ (d.insert key value).values) : v = value ∨ v ∈ d.values := by
  obtain ⟨e, he, rfl⟩ := List.mem_map.mp h
  rcases mem_insertEntry he with rfl | he
  · exact .inl rfl
  · exact .inr (List.mem_map_of_mem he)

/-- Each key occurs once. -/
theorem nodup_keys (d : Dictionary α) : d.keys.Nodup :=
  List.pairwise_map.mpr (d.sorted.imp fun h => String.ne_of_lt h)

/-- Dictionaries with the same keys list them in the same order. -/
theorem keys_eq_of_mem_iff {β : Type} {d : Dictionary α} {d' : Dictionary β}
    (h : ∀ key, key ∈ d.keys ↔ key ∈ d'.keys) : d.keys = d'.keys := by
  have hperm : d.keys.Perm d'.keys :=
    (List.perm_ext_iff_of_nodup d.nodup_keys d'.nodup_keys).mpr h
  have hantisymm : ∀ a b, a ∈ d.keys → b ∈ d'.keys → a < b → b < a → a = b :=
    fun a b _ _ hab hba => absurd (String.lt_trans hab hba) (String.lt_irrefl a)
  exact hperm.eq_of_pairwise hantisymm (List.pairwise_map.mpr d.sorted)
    (List.pairwise_map.mpr d'.sorted)

/-- A look-up finds the entry with the key. -/
theorem get?_eq_some_iff {d : Dictionary α} {key : String} {value : α} :
    d.get? key = some value ↔ (key, value) ∈ d.entries := by
  obtain ⟨l, hsorted⟩ := d
  change find? key l = some value ↔ (key, value) ∈ l
  induction l with
  | nil => simp [find?]
  | cons e rest ih =>
      obtain ⟨k, v⟩ := e
      rw [List.pairwise_cons] at hsorted
      rw [find?, List.mem_cons, Prod.mk.injEq]
      split
      · next heq =>
        subst heq
        -- all other entries have greater keys
        have hrest : (key, value) ∉ rest := fun h => String.ne_of_lt (hsorted.1 _ h) rfl
        simp [hrest, eq_comm]
      · next hne => simp [hne, ih hsorted.2]

/-- Dictionaries with the same look-ups are equal. -/
theorem eq_of_get?_eq {d d' : Dictionary α} (h : ∀ key, d.get? key = d'.get? key) : d = d' := by
  have hmem : ∀ e, e ∈ d.entries ↔ e ∈ d'.entries := fun e => by
    rw [← get?_eq_some_iff, ← get?_eq_some_iff, h]
  have hnodup : ∀ d : Dictionary α, d.entries.Nodup := fun d =>
    d.sorted.imp fun hlt heq => String.ne_of_lt hlt (congrArg Prod.fst heq)
  have hperm : d.entries.Perm d'.entries :=
    (List.perm_ext_iff_of_nodup (hnodup d) (hnodup d')).mpr hmem
  have hantisymm : ∀ a b, a ∈ d.entries → b ∈ d'.entries → a.1 < b.1 → b.1 < a.1 → a = b :=
    fun a b _ _ hab hba => absurd (String.lt_trans hab hba) (String.lt_irrefl a.1)
  have hentries : d.entries = d'.entries := hperm.eq_of_pairwise hantisymm d.sorted d'.sorted
  obtain ⟨l, _⟩ := d
  obtain rfl : l = d'.entries := hentries
  rfl

end Dictionary

/-- A set of strings, in order. -/
abbrev NameSet := Dictionary Unit

namespace NameSet

/-- The members of a list as a set. -/
def ofList (l : List String) : NameSet :=
  Dictionary.ofList (l.map (·, ()))

/-- The members of either set. -/
def union (a b : NameSet) : NameSet :=
  b.keys.foldl (fun s name => s.insert name ()) a

/-- The members, in order. -/
def toList (s : NameSet) : List String := s.keys

@[simp] theorem mem_toList_empty {name : String} : name ∉ toList .empty := List.not_mem_nil

/-- Names that are put in one after the other are members. -/
theorem mem_toList_foldl_insert {names : List String} {s : NameSet} {name : String} :
    name ∈ toList (names.foldl (fun s x => s.insert x ()) s) ↔
      name ∈ s.toList ∨ name ∈ names := by
  induction names generalizing s with
  | nil => simp
  | cons x names ih =>
      rw [List.foldl_cons, ih, toList, Dictionary.mem_keys_insert, List.mem_cons, or_assoc,
        or_left_comm]
      rfl

theorem mem_toList_ofList {names : List String} {name : String} :
    name ∈ (ofList names).toList ↔ name ∈ names := by
  rw [ofList, Dictionary.ofList, List.foldl_map, mem_toList_foldl_insert,
    or_iff_right mem_toList_empty]

theorem mem_toList_union {a b : NameSet} {name : String} :
    name ∈ (a.union b).toList ↔ name ∈ a.toList ∨ name ∈ b.toList :=
  mem_toList_foldl_insert

/-- The sets of some values are joined one after the other. -/
theorem mem_toList_foldl_union {β : Type} {names : β → NameSet} {l : List β} {s : NameSet}
    {name : String} :
    name ∈ (l.foldl (fun s b => s.union (names b)) s).toList ↔
      name ∈ s.toList ∨ ∃ b ∈ l, name ∈ (names b).toList := by
  induction l generalizing s with
  | nil => simp
  | cons b l ih => simp [ih, mem_toList_union, or_assoc]

/-- Sets with the same members are equal. -/
theorem eq_of_mem_iff {a b : NameSet} (h : ∀ name, name ∈ a.toList ↔ name ∈ b.toList) :
    a = b := by
  refine Dictionary.eq_of_get?_eq fun key => ?_
  have hsome : (a.get? key).isSome = (b.get? key).isSome := by
    rw [Bool.eq_iff_iff]
    exact Dictionary.contains_iff_mem_keys.trans
      ((h key).trans Dictionary.contains_iff_mem_keys.symm)
  cases ha : a.get? key <;> cases hb : b.get? key <;> simp_all

end NameSet

end AgentPipeline
