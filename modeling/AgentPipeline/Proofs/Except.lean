/-!
# Results that may be errors

When a computation built from `>>=` and `<$>` succeeds, each of its steps did. The lemmas
below take such a computation apart, and put it together again, one step at a time. In the
same way the errors of a computation are those of its steps (`FailsWith`).
-/

namespace AgentPipeline

variable {ε α β : Type}

/-- A sequence of two steps succeeds exactly when both steps do. -/
theorem bind_eq_ok_iff {x : Except ε α} {f : α → Except ε β} {b : β} :
    x >>= f = .ok b ↔ ∃ a, x = .ok a ∧ f a = .ok b := by
  cases x with
  | error e => simp [bind, Except.bind]
  | ok a => simp [bind, Except.bind]

/-- A function of a result succeeds exactly when there is a result. -/
theorem map_eq_ok_iff {x : Except ε α} {f : α → β} {b : β} :
    f <$> x = .ok b ↔ ∃ a, x = .ok a ∧ f a = b := by
  cases x with
  | error e => simp [Functor.map, Except.map]
  | ok a => simp [Functor.map, Except.map]

/-- A sequence of two steps fails exactly when the first step does, or the second one on its
result. -/
theorem bind_eq_error_iff {x : Except ε α} {f : α → Except ε β} {e : ε} :
    x >>= f = .error e ↔ x = .error e ∨ ∃ a, x = .ok a ∧ f a = .error e := by
  cases x with
  | error e => simp [bind, Except.bind]
  | ok a => simp [bind, Except.bind]

/-- A function of a result fails exactly when there is none. -/
theorem map_eq_error_iff {x : Except ε α} {f : α → β} {e : ε} :
    f <$> x = .error e ↔ x = .error e := by
  cases x with
  | error e => simp [Functor.map, Except.map]
  | ok a => simp [Functor.map, Except.map]

/-- A function of an optional value gives an optional result. -/
theorem isSome_of_mapM {x : Option α} {f : α → Except ε β} {y : Option β}
    (h : x.mapM f = .ok y) : y.isSome = x.isSome := by
  cases x with
  | none =>
      obtain rfl : none = y := Except.ok.inj h
      rfl
  | some a =>
      obtain ⟨b, -, rfl⟩ := map_eq_ok_iff.mp h
      rfl

/-- A change of the errors leaves the results as they are. -/
theorem mapError_eq_ok_iff {ε' : Type} {x : Except ε α} {f : ε → ε'} {a : α} :
    x.mapError f = .ok a ↔ x = .ok a := by
  cases x with
  | error e => exact iff_of_false nofun nofun
  | ok b =>
      constructor
      · intro h
        rw [Except.ok.inj h]
      · intro h
        rw [Except.ok.inj h]
        rfl

/-- A check of all members of a list succeeds exactly when it succeeds for each of them. -/
theorem forM_eq_ok_iff {l : List α} {f : α → Except ε Unit} :
    l.forM f = .ok () ↔ ∀ a ∈ l, f a = .ok () := by
  induction l with
  | nil => exact iff_of_true rfl (by simp)
  | cons a l ih =>
      change (f a >>= fun _ => l.forM f) = .ok () ↔ _
      rw [bind_eq_ok_iff, ih, List.forall_mem_cons]
      exact ⟨fun ⟨_, ha, hl⟩ => ⟨ha, hl⟩, fun ⟨ha, hl⟩ => ⟨(), ha, hl⟩⟩

/-- A function of the members of a list succeeds with the results for each of them. -/
theorem mem_of_mapM {l : List α} {f : α → Except ε β} {l' : List β} (h : l.mapM f = .ok l')
    {b : β} : b ∈ l' ↔ ∃ a ∈ l, f a = .ok b := by
  induction l generalizing l' with
  | nil =>
      obtain rfl := Except.ok.inj h
      simp
  | cons a l ih =>
      rw [List.mapM_cons] at h
      obtain ⟨b₁, hb₁, h⟩ := bind_eq_ok_iff.mp h
      obtain ⟨l₁, hl₁, h⟩ := bind_eq_ok_iff.mp h
      obtain rfl := Except.ok.inj h
      simp only [List.mem_cons, ih hl₁, exists_eq_or_imp, hb₁, Except.ok.injEq,
        eq_comm (a := b)]

/-- What a function keeps of each member, it keeps of the list. -/
theorem map_eq_of_mapM {γ : Type} {l : List α} {f : α → Except ε β} {l' : List β} {g : β → γ}
    {g' : α → γ} (hf : ∀ a b, f a = .ok b → g b = g' a) (h : l.mapM f = .ok l') :
    l'.map g = l.map g' := by
  induction l generalizing l' with
  | nil =>
      obtain rfl := Except.ok.inj h
      rfl
  | cons a l ih =>
      rw [List.mapM_cons] at h
      obtain ⟨b, hb, h⟩ := bind_eq_ok_iff.mp h
      obtain ⟨l₁, hl₁, h⟩ := bind_eq_ok_iff.mp h
      obtain rfl := Except.ok.inj h
      rw [List.map_cons, List.map_cons, hf a b hb, ih hl₁]

/-- If a function of the members succeeds, then it does so for each of them. -/
theorem exists_of_mapM {l : List α} {f : α → Except ε β} {l' : List β} (h : l.mapM f = .ok l')
    {a : α} (ha : a ∈ l) : ∃ b, f a = .ok b := by
  induction l generalizing l' with
  | nil => cases ha
  | cons a₁ l ih =>
      rw [List.mapM_cons] at h
      obtain ⟨b₁, hb₁, h⟩ := bind_eq_ok_iff.mp h
      obtain ⟨l₁, hl₁, -⟩ := bind_eq_ok_iff.mp h
      rcases List.mem_cons.mp ha with rfl | ha
      · exact ⟨b₁, hb₁⟩
      · exact ih hl₁ ha

/-- What each step of a loop preserves holds at its end. -/
theorem foldlM_invariant {P : β → Prop} {l : List α} {f : β → α → Except ε β} {b b' : β}
    (hstep : ∀ b a b', P b → f b a = .ok b' → P b') (hb : P b)
    (h : l.foldlM f b = .ok b') : P b' := by
  induction l generalizing b with
  | nil => exact Except.ok.inj h ▸ hb
  | cons a l ih =>
      rw [List.foldlM_cons] at h
      obtain ⟨b₁, hb₁, h⟩ := bind_eq_ok_iff.mp h
      exact ih (hstep b a b₁ hb hb₁) h

/-- A loop with an invariant about the members that have been run through. -/
theorem foldlM_invariant_append {P : List α → β → Prop} {l : List α} {f : β → α → Except ε β}
    {b b' : β} (hstep : ∀ done b a b', P done b → f b a = .ok b' → P (done ++ [a]) b')
    (hb : P [] b) (h : l.foldlM f b = .ok b') : P l b' := by
  suffices hrun : ∀ done b, P done b → l.foldlM f b = .ok b' → P (done ++ l) b' from
    hrun [] b hb h
  clear hb h b
  induction l with
  | nil =>
      intro done b hb h
      obtain rfl := Except.ok.inj h
      rwa [List.append_nil]
  | cons a l ih =>
      intro done b hb h
      rw [List.foldlM_cons] at h
      obtain ⟨b₁, hb₁, h⟩ := bind_eq_ok_iff.mp h
      rw [← List.singleton_append, ← List.append_assoc]
      exact ih (done ++ [a]) b₁ (hstep done b a b₁ hb hb₁) h

/-- A step that succeeds hands its value on. -/
@[simp] theorem ok_bind (a : α) (f : α → Except ε β) : Except.ok a >>= f = f a := rfl

/-- A function of a step that succeeds. -/
@[simp] theorem map_ok (f : α → β) (a : α) :
    f <$> (Except.ok a : Except ε α) = .ok (f a) := rfl

/-- A computation that succeeds gives its value, whatever stands in for a missing one. -/
theorem eq_ok_getD {x : Except ε α} {a : α} (h : x = .ok a) (b : α) :
    x = .ok (x.toOption.getD b) := by
  subst h
  rfl

/-! ### Errors -/

/-- **The errors of a computation**: if it fails, then with an error of this kind. -/
def FailsWith (P : ε → Prop) (x : Except ε α) : Prop := ∀ e, x = .error e → P e

namespace FailsWith

variable {P : ε → Prop} {x : Except ε α}

/-- What succeeds has no errors. -/
theorem ok (a : α) : FailsWith P (.ok a : Except ε α) := nofun

/-- What fails with an error has this one. -/
theorem error {e : ε} (h : P e) : FailsWith P (.error e : Except ε α) := by
  rintro _ ⟨⟩
  exact h

/-- The errors of a sequence are those of its steps. -/
theorem bind {f : α → Except ε β} (hx : FailsWith P x) (hf : ∀ a, FailsWith P (f a)) :
    FailsWith P (x >>= f) := by
  cases x with
  | error e => exact error (hx e rfl)
  | ok a => exact hf a

/-- The second step counts only for what the first one gives. -/
theorem bind_of_ok {f : α → Except ε β} (hx : FailsWith P x)
    (hf : ∀ a, x = .ok a → FailsWith P (f a)) : FailsWith P (x >>= f) := by
  cases x with
  | error e => exact error (hx e rfl)
  | ok a => exact hf a rfl

/-- Errors of a kind are errors of a wider kind. -/
theorem mono {Q : ε → Prop} (hPQ : ∀ e, P e → Q e) (hx : FailsWith P x) : FailsWith Q x :=
  fun e he => hPQ e (hx e he)

/-- Mapping a result adds no errors. -/
theorem map {f : α → β} (hx : FailsWith P x) : FailsWith P (f <$> x) := by
  cases x with
  | error e => exact error (hx e rfl)
  | ok a => exact ok (f a)

/-- An optional step fails with the errors of the step. -/
theorem optionMapM {o : Option α} {f : α → Except ε β} (hf : ∀ a, FailsWith P (f a)) :
    FailsWith P (o.mapM f) := by
  cases o with
  | none => exact ok none
  | some a => exact (hf a).map

/-- Errors are mapped together with their kind. -/
theorem mapError {ε' : Type} {x : Except ε' α} {f : ε' → ε}
    (hx : FailsWith (fun e => P (f e)) x) : FailsWith P (x.mapError f) := by
  cases x with
  | error e => exact error (hx e rfl)
  | ok a => exact ok a

/-- A choice fails with the errors of its branches. -/
theorem ite {p : Prop} [Decidable p] {y : Except ε α} (hx : FailsWith P x)
    (hy : FailsWith P y) : FailsWith P (if p then x else y) := by
  split
  · exact hx
  · exact hy

/-- The errors of a loop are those of its steps. -/
theorem foldlM {f : β → α → Except ε β} {l : List α} {b : β}
    (hf : ∀ b a, FailsWith P (f b a)) : FailsWith P (l.foldlM f b) := by
  induction l generalizing b with
  | nil => exact ok b
  | cons a l ih =>
      rw [List.foldlM_cons]
      exact (hf b a).bind fun b' => ih

/-- A loop fails with the errors of its rounds. -/
theorem forM {f : α → Except ε Unit} {l : List α} (hf : ∀ a, FailsWith P (f a)) :
    FailsWith P (l.forM f) := by
  induction l with
  | nil => exact ok ()
  | cons a l ih => exact (hf a).bind fun _ => ih

end FailsWith

end AgentPipeline
