import AgentPipeline.Proofs.Reference.Templates

/-!
# A template inside of a text

An expression stands between its braces somewhere in a text: in front of it no template starts, and
it has no closing brace itself. Then it is found among the templates of the text exactly if it
stands on one line (`mem_templates_enclosed_iff`), and so are the references in it. An expression
that goes on over several lines leaves no trace, unless another template starts in it.
-/

namespace AgentPipeline.Reference

open AgentPipeline

variable {c : Char} {cs xs ys body : List Char} {skip : Nat}

/-- The braces that a template starts with. -/
def opening : List Char := ['$', '\x7b', '\x7b']

/-- The braces that a template ends with. -/
def closing : List Char := ['\x7d', '\x7d']

/-! ### Scanning up to a template -/

/-- A template starts with its opening braces. -/
theorem prefix_of_templateAt (h : templateAt cs = some body) : opening <+: cs := by
  unfold templateAt at h
  split at h
  · exact ⟨_, rfl⟩
  · cases h

/-- A template does not start in a text without its opening braces, even if other text follows it
that does not complete them. -/
theorem templateAt_append_cons (hopen : ¬opening <:+: xs) (hne : xs ≠ []) (hc : c ≠ '\x7b') :
    templateAt (xs ++ c :: ys) = none := by
  cases hat : templateAt (xs ++ c :: ys) with
  | none => rfl
  | some body =>
      have hprefix : opening <+: xs := by
        have h := prefix_of_templateAt hat
        rcases xs with _ | ⟨x, _ | ⟨y, _ | ⟨z, xs⟩⟩⟩
        · exact absurd rfl hne
        · obtain ⟨-, heq, -⟩ : '$' = x ∧ '\x7b' = c ∧ _ := by
            simpa [opening, List.cons_prefix_cons] using h
          exact absurd heq.symm hc
        · obtain ⟨-, -, heq⟩ : '$' = x ∧ '\x7b' = y ∧ '\x7b' = c := by
            simpa [opening, List.cons_prefix_cons] using h
          exact absurd heq.symm hc
        · simpa [opening, List.cons_prefix_cons] using h
      exact absurd hprefix.isInfix hopen

/-- A text without opening braces in front adds no templates. -/
theorem templatesFrom_append_cons (hopen : ¬opening <:+: xs) (hc : c ≠ '\x7b') :
    templatesFrom 0 (xs ++ c :: ys) = templatesFrom 0 (c :: ys) := by
  induction xs with
  | nil => rfl
  | cons x xs ih =>
      have hrest : ¬opening <:+: xs := fun h => hopen (h.trans (List.suffix_cons x xs).isInfix)
      have hnone : templateAt (x :: (xs ++ c :: ys)) = none :=
        templateAt_append_cons hopen (List.cons_ne_nil x xs) hc
      rw [List.cons_append, templatesFrom, hnone]
      exact ih hrest

/-- Skipping characters is leaving them out. -/
theorem templatesFrom_eq_drop (skip : Nat) (cs : List Char) :
    templatesFrom skip cs = templatesFrom 0 (cs.drop skip) := by
  induction cs generalizing skip with
  | nil => simp [templatesFrom]
  | cons c cs ih =>
      cases skip with
      | zero => rfl
      | succ skip => rw [templatesFrom, ih, List.drop_succ_cons]

/-! ### Expressions on one line -/

/-- An expression on one line ends at its closing braces. -/
theorem templateBody_append_closing (hclose : '\x7d' ∉ xs) (hline : '\n' ∉ xs) :
    templateBody (xs ++ closing ++ ys) = some xs := by
  induction xs with
  | nil => rfl
  | cons x xs ih =>
      rw [List.mem_cons, not_or] at hclose hline
      have hbraces : ∀ tail, x = '\x7d' → xs ++ closing ++ ys = '\x7d' :: tail → False :=
        fun _ hx _ => hclose.1 hx.symm
      rw [List.cons_append, List.cons_append, templateBody.eq_3 x _ hbraces,
        if_neg fun hx => hline.1 hx.symm, ih hclose.2 hline.2]
      rfl

/-- **A template on one line** comes first, and what stands behind it is scanned on its own. -/
theorem templatesFrom_template (hclose : '\x7d' ∉ xs) (hline : '\n' ∉ xs) :
    templatesFrom 0 (opening ++ xs ++ closing ++ ys) = xs :: templatesFrom 0 ys := by
  have hat : templateAt ('$' :: '\x7b' :: '\x7b' :: (xs ++ closing ++ ys)) = some xs :=
    templateBody_append_closing hclose hline
  have hdrop : ('\x7b' :: '\x7b' :: (xs ++ closing ++ ys)).drop (xs.length + 4) = ys := by
    rw [List.drop_succ_cons, List.drop_succ_cons, List.drop_left' (by simp [closing])]
  have htext : opening ++ xs ++ closing ++ ys =
      '$' :: '\x7b' :: '\x7b' :: (xs ++ closing ++ ys) := by
    simp [opening]
  rw [htext, templatesFrom, hat]
  simp only [templatesFrom_eq_drop (xs.length + 4), hdrop]

/-- The body of a template stays on its line. -/
theorem notMem_of_templateBody (h : templateBody cs = some body) : '\n' ∉ body := by
  fun_induction templateBody cs generalizing body with
  | case1 => cases h
  | case2 =>
      obtain rfl := Option.some.inj h
      exact List.not_mem_nil
  | case3 => cases h
  | case4 c cs _ hne ih =>
      obtain ⟨rest, hrest, rfl⟩ := Option.map_eq_some_iff.mp h
      rw [List.mem_cons, not_or]
      exact ⟨fun heq => hne heq.symm, ih hrest⟩

/-- No template goes on over several lines. -/
theorem notMem_of_mem_templatesFrom (h : body ∈ templatesFrom skip cs) : '\n' ∉ body := by
  induction cs generalizing skip with
  | nil => cases h
  | cons c cs ih =>
      cases skip with
      | succ skip => exact ih h
      | zero =>
          rw [templatesFrom] at h
          split at h
          · next body' hat =>
            rcases List.mem_cons.mp h with rfl | h
            · unfold templateAt at hat
              split at hat
              · exact notMem_of_templateBody hat
              · cases hat
            · exact ih h
          · exact ih h

/-! ### Expressions on several lines -/

/-- Nothing closes a template in a text without closing braces. -/
theorem templatesFrom_of_notMem (hclose : '\x7d' ∉ cs) : templatesFrom skip cs = [] := by
  induction cs generalizing skip with
  | nil => rfl
  | cons c cs ih =>
      have hcs := List.not_mem_of_not_mem_cons hclose
      cases skip with
      | succ skip => exact ih hcs
      | zero =>
          have hnone : templateAt (c :: cs) = none := by
            unfold templateAt
            split
            · next cs heq =>
              obtain ⟨rfl, rfl⟩ := List.cons.inj heq
              refine (Unclosing.of_notMem ?_).templateBody_eq
              exact List.not_mem_of_not_mem_cons (List.not_mem_of_not_mem_cons hcs)
            · rfl
          rw [templatesFrom, hnone]
          exact ih hcs

/-- **A template on several lines** is passed over up to the end of its line. -/
theorem templatesFrom_lines {above below : List Char} (hclose : '\x7d' ∉ above) :
    templatesFrom 0 (opening ++ (above ++ '\n' :: below) ++ closing ++ ys) =
      templatesFrom 0 (below ++ closing ++ ys) := by
  have hfront : '\x7d' ∉ opening ++ above := by
    rw [List.mem_append, not_or]
    exact ⟨by decide, hclose⟩
  have htext : opening ++ (above ++ '\n' :: below) ++ closing ++ ys =
      (opening ++ above) ++ '\n' :: (below ++ closing ++ ys) := by
    simp
  rw [htext, templatesFrom_newline, templatesFrom_of_notMem hfront, List.nil_append]

/-! ### Enclosed expressions -/

/-- The text has an expression between the braces of a template. -/
def enclosed (front expression back : String) : String :=
  front ++ "$\x7b\x7b" ++ expression ++ "\x7d\x7d" ++ back

variable {front expression back : String}

/-- In front of the template there is none. -/
theorem templates_enclosed (hfront : ¬opening <:+: front.toList) :
    templates (enclosed front expression back) =
      (templatesFrom 0 (opening ++ expression.toList ++ closing ++ back.toList)).map
        String.ofList := by
  have htext : (enclosed front expression back).toList =
      front.toList ++ '$' :: ('\x7b' :: '\x7b' :: expression.toList ++ closing ++ back.toList) := by
    simp [enclosed, closing]
  rw [templates, htext, templatesFrom_append_cons hfront (by decide)]
  rfl

/-- **Which expressions are found.** An expression that stands between braces in a text is found
exactly if it stands on one line. Then it comes first, in front of the templates of the text behind
it, and the jobs it refers to are among those of the text. Otherwise only what stands behind its
line breaks is scanned, as if no braces were open. -/
theorem mem_templates_enclosed_iff (hfront : ¬opening <:+: front.toList)
    (hclose : '\x7d' ∉ expression.toList) :
    (expression ∈ templates (enclosed front expression back) ↔ '\n' ∉ expression.toList) ∧
      ('\n' ∉ expression.toList →
        templates (enclosed front expression back) = expression :: templates back ∧
          (needsReferences expression).toList ⊆
            (templateReferences (enclosed front expression back)).toList) ∧
      ∀ above below, expression = above ++ "\n" ++ below →
        templates (enclosed front expression back) = templates (below ++ "\x7d\x7d" ++ back) := by
  have hline (h : '\n' ∉ expression.toList) :
      templates (enclosed front expression back) = expression :: templates back := by
    rw [templates_enclosed hfront, templatesFrom_template hclose h, List.map_cons,
      String.ofList_toList, templates]
  have hnever (h : '\n' ∈ expression.toList) :
      expression ∉ templates (enclosed front expression back) := by
    intro hmem
    obtain ⟨body, hbody, rfl⟩ := List.mem_map.mp hmem
    rw [String.toList_ofList] at h
    exact notMem_of_mem_templatesFrom hbody h
  refine ⟨⟨fun hmem h => hnever h hmem, fun h => ?_⟩, fun h => ⟨hline h, fun name hname => ?_⟩, ?_⟩
  · rw [hline h]
    exact List.mem_cons_self
  · refine mem_templateReferences.mpr ⟨expression, ?_, hname⟩
    rw [hline h]
    exact List.mem_cons_self
  · rintro above below rfl
    have habove : '\x7d' ∉ above.toList := fun hmem => hclose (by simp [hmem])
    have htext : (above ++ "\n" ++ below).toList = above.toList ++ '\n' :: below.toList := by simp
    have hbelow : (below ++ "\x7d\x7d" ++ back).toList =
        below.toList ++ closing ++ back.toList := by
      simp [closing]
    rw [templates_enclosed hfront, htext, templatesFrom_lines habove, templates, hbelow]

/-- An expression is found behind braces that start no template, and with it its reference. -/
theorem mem_templates_enclosed_iff_fetch :
    templates (enclosed "a $\x7b $" " needs.fetch.result " "$\x7b\x7bx\x7d\x7d") =
        " needs.fetch.result " :: templates "$\x7b\x7bx\x7d\x7d" ∧
      "fetch" ∈ (templateReferences
        (enclosed "a $\x7b $" " needs.fetch.result " "$\x7b\x7bx\x7d\x7d")).toList := by
  have hfront : ¬opening <:+: "a $\x7b $".toList := by decide
  have hclose : '\x7d' ∉ " needs.fetch.result ".toList := by decide
  have hname : "fetch" ∈ (needsReferences " needs.fetch.result ").toList := by decide
  obtain ⟨htemplates, hsubset⟩ := (mem_templates_enclosed_iff hfront hclose).2.1 (by decide)
  exact ⟨htemplates, hsubset hname⟩

/-- An expression that is broken into lines is not found, nor is its reference. -/
theorem notMem_templates_enclosed_lines :
    "\nneeds.fetch.result\n" ∉ templates (enclosed "" "\nneeds.fetch.result\n" "") ∧
      "fetch" ∈ (needsReferences "\nneeds.fetch.result\n").toList ∧
        "fetch" ∉ (templateReferences (enclosed "" "\nneeds.fetch.result\n" "")).toList := by
  decide

end AgentPipeline.Reference
