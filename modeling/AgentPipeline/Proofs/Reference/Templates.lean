import AgentPipeline.Proofs.Condition.Reference
import AgentPipeline.Proofs.Condition.Wrap
import AgentPipeline.Proofs.Text.Line
import AgentPipeline.Yaml.Entry

/-!
# Templates of composed texts

A template starts with a dollar sign and ends at the first pair of closing braces on its
line. So a text without dollar signs in front of another one adds no templates to it, nor
does a text without closing braces behind it; and the templates of several lines are those
of each line (`templates_intercalate`). Texts are laid out as lines, and so an entry of a
document has the templates of its text.
-/

namespace AgentPipeline.Reference

variable {c : Char} {cs xs ys body : List Char} {skip : Nat}

/-! ### Single templates -/

/-- The body of a template has the closing braces behind it. -/
theorem length_of_templateBody (h : templateBody cs = some body) :
    body.length + 2 ≤ cs.length := by
  fun_induction templateBody cs generalizing body with
  | case1 => cases h
  | case2 => obtain rfl := Option.some.inj h; simp
  | case3 => cases h
  | case4 c cs _ _ ih =>
      obtain ⟨rest, hrest, rfl⟩ := Option.map_eq_some_iff.mp h
      have := ih hrest
      simp only [List.length_cons]
      omega

/-- A template has its marks at both ends. -/
theorem length_of_templateAt (h : templateAt cs = some body) : body.length + 5 ≤ cs.length := by
  unfold templateAt at h
  split at h
  · have := length_of_templateBody h
    simp only [List.length_cons]
    omega
  · cases h

/-- **Texts that close no template**: neither on their own nor behind other text. -/
structure Unclosing (ys : List Char) : Prop where
  templateBody_eq : templateBody ys = none
  head_ne : ys.head? ≠ some '\x7d'

namespace Unclosing

/-- A text behind a line feed closes no template. -/
theorem newline (ys : List Char) : Unclosing ('\n' :: ys) := ⟨by simp [templateBody], by simp⟩

/-- A text without closing braces closes no template. -/
theorem of_notMem (h : '\x7d' ∉ ys) : Unclosing ys := by
  refine ⟨?_, fun hhead => h (List.mem_of_head? hhead)⟩
  fun_induction templateBody ys with
  | case1 => rfl
  | case2 => simp at h
  | case3 => rfl
  | case4 c cs _ _ ih => rw [ih (List.not_mem_of_not_mem_cons h), Option.map_none]

/-- A body that is cut off in front of such a text is not closed by it. -/
theorem templateBody_append (h : Unclosing ys) : templateBody (xs ++ ys) = templateBody xs := by
  fun_induction templateBody xs with
  | case1 => exact h.templateBody_eq
  | case2 => rfl
  | case3 cs => simp [templateBody]
  | case4 c cs hbraces hne ih =>
      have hbraces' : ∀ tail, c = '\x7d' → cs ++ ys = '\x7d' :: tail → False := by
        intro tail hc htail
        cases cs with
        | nil => exact h.head_ne (by rw [List.nil_append] at htail; rw [htail]; rfl)
        | cons d ds => exact hbraces ds hc (by rw [(List.cons.inj htail).1])
      rw [List.cons_append, templateBody.eq_3 c _ hbraces', if_neg hne, ih]

/-- Nor does such a text hold the rest of the opening braces and a body. -/
theorem templateAt_append (h : Unclosing ys) : templateAt (xs ++ ys) = templateAt xs := by
  obtain ⟨hbody, -⟩ := id h
  rcases xs with _ | ⟨a, _ | ⟨b, _ | ⟨d, xs⟩⟩⟩
  -- the braces would have to be completed by the text behind
  case nil =>
    refine Eq.trans (b := none) ?_ (templateAt.eq_2 _ (by simp)).symm
    rw [List.nil_append]
    unfold templateAt
    split
    · simpa [templateBody] using hbody
    · rfl
  case cons.nil =>
    refine Eq.trans (b := none) ?_ (templateAt.eq_2 _ (by simp)).symm
    unfold templateAt
    split
    · next heq =>
      obtain ⟨rfl, rfl⟩ := List.cons.inj heq
      simpa [templateBody] using hbody
    · rfl
  case cons.cons.nil =>
    refine Eq.trans (b := none) ?_ (templateAt.eq_2 _ (by simp)).symm
    unfold templateAt
    split
    · next heq =>
      obtain ⟨rfl, rfl, rfl⟩ : a = '$' ∧ b = '\x7b' ∧ _ := by simpa using heq
      simpa [templateBody] using hbody
    · rfl
  case cons.cons.cons =>
    by_cases hopen : a = '$' ∧ b = '\x7b' ∧ d = '\x7b'
    · obtain ⟨rfl, rfl, rfl⟩ := hopen
      exact h.templateBody_append
    · simp only [List.cons_append]
      rw [templateAt.eq_2, templateAt.eq_2] <;> grind

end Unclosing

/-! ### Scanning a text -/

/-- A text that closes no template is scanned apart from what stands in front of it. -/
theorem templatesFrom_append (h : Unclosing ys) (hskip : skip ≤ xs.length) :
    templatesFrom skip (xs ++ ys) = templatesFrom skip xs ++ templatesFrom 0 ys := by
  induction xs generalizing skip with
  | nil =>
      obtain rfl : skip = 0 := by simpa using hskip
      simp [templatesFrom]
  | cons x xs ih =>
      rw [List.cons_append]
      cases skip with
      | succ skip => exact ih (by simpa using hskip)
      | zero =>
          rw [templatesFrom, templatesFrom, ← List.cons_append, h.templateAt_append]
          split
          · next body hbody =>
            have hlength : body.length + 4 ≤ xs.length := by
              have hlength := length_of_templateAt hbody
              rw [List.length_cons] at hlength
              omega
            rw [ih hlength, List.cons_append]
          · exact ih (Nat.zero_le _)

/-- A text without dollar signs in front adds no templates. -/
theorem templatesFrom_append_of_notMem (h : '$' ∉ xs) :
    templatesFrom 0 (xs ++ cs) = templatesFrom 0 cs := by
  induction xs with
  | nil => rfl
  | cons x xs ih =>
      have hnone : templateAt (x :: (xs ++ cs)) = none := templateAt.eq_2 _ fun rest hrest =>
        h ((List.cons.inj hrest).1 ▸ List.mem_cons_self)
      rw [List.cons_append, templatesFrom, hnone]
      exact ih (List.not_mem_of_not_mem_cons h)

/-- A text without closing braces and dollar signs behind adds no templates. -/
theorem templatesFrom_append_plain (hclose : '\x7d' ∉ ys) (hopen : '$' ∉ ys) :
    templatesFrom 0 (xs ++ ys) = templatesFrom 0 xs := by
  rw [templatesFrom_append (.of_notMem hclose) (Nat.zero_le _),
    templatesFrom_eq_nil (.inl hopen), List.append_nil]

/-- A template ends on its line. -/
theorem templatesFrom_newline (xs ys : List Char) :
    templatesFrom 0 (xs ++ '\n' :: ys) = templatesFrom 0 xs ++ templatesFrom 0 ys := by
  have hnewline : '$' ∉ ['\n'] := by decide
  rw [templatesFrom_append (.newline ys) (Nat.zero_le _),
    ← List.singleton_append, templatesFrom_append_of_notMem hnewline]

/-- Nor do line feeds at the end. -/
theorem templatesFrom_dropTail (cs : List Char) :
    templatesFrom 0 (Text.dropTail (· == '\n') cs) = templatesFrom 0 cs := by
  obtain ⟨tail, happend, hbreaks⟩ := Text.exists_dropTail (· == '\n') cs
  conv => rhs; rw [happend]
  refine (templatesFrom_append_plain ?_ ?_).symm <;>
    exact fun h => absurd (hbreaks _ h) (by decide)

/-! ### Lines -/

/-- The end of a line belongs to no template. -/
theorem templatesFrom_dropLineEnd (piece : List Char) :
    templatesFrom 0 (Text.dropLineEnd piece) = templatesFrom 0 piece := by
  unfold Text.dropLineEnd
  split
  · next rest heq =>
    rw [← List.reverse_reverse piece, heq, List.reverse_cons, List.reverse_cons,
      List.append_assoc]
    exact (templatesFrom_append_plain (by decide) (by decide)).symm
  · next rest heq =>
    rw [← List.reverse_reverse piece, heq, List.reverse_cons]
    exact (templatesFrom_append_plain (by decide) (by decide)).symm
  · rfl

/-- **Templates of lines**: the templates of a text are those of its lines. -/
theorem flatMap_lines (cs : List Char) :
    (Text.lines cs).flatMap (templatesFrom 0) = templatesFrom 0 cs := by
  suffices h : (Text.pieces cs).flatMap (templatesFrom 0) = templatesFrom 0 cs by
    rw [Text.lines, List.flatMap_map]
    simpa only [templatesFrom_dropLineEnd] using h
  induction cs using Text.lines_induction with
  | line cs h =>
      cases cs with
      | nil => rfl
      | cons c cs => rw [Text.pieces_of_notMem h (by simp), List.flatMap_singleton]
  | cons xs ys h ih =>
      have hline : templatesFrom 0 (xs ++ ['\n']) = templatesFrom 0 xs :=
        templatesFrom_append_plain (by decide) (by decide)
      rw [Text.pieces_newline h, List.flatMap_cons, ih, hline, templatesFrom_newline]

/-- **Templates of composed lines**: texts that are put together line by line. -/
theorem templates_intercalate (texts : List String) :
    templates ("\n".intercalate texts) = texts.flatMap templates := by
  have hlines : ∀ lines : List (List Char),
      templatesFrom 0 (['\n'].intercalate lines) = lines.flatMap (templatesFrom 0) := by
    intro lines
    induction lines with
    | nil => rfl
    | cons xs lines ih =>
        cases lines with
        | nil => simp
        | cons ys lines =>
            rw [List.intercalate_cons_cons, List.append_assoc, List.singleton_append,
              templatesFrom_newline, ih, ← List.flatMap_cons]
  rw [templates, String.toList_intercalate]
  change (templatesFrom 0 (['\n'].intercalate (texts.map String.toList))).map _ = _
  rw [hlines, List.flatMap_map, List.map_flatMap]
  rfl

/-! ### Entries -/

open Yaml

/-- A front without dollar signs adds no templates. -/
theorem templates_append_of_notMem {front text : String} (h : '$' ∉ front.toList) :
    templates (front ++ text) = templates text := by
  rw [templates, String.toList_append, templatesFrom_append_of_notMem h, templates]

/-- The margin consists of spaces. -/
theorem eq_of_mem_pad {indent : Nat} {c : Char} (h : c ∈ (pad indent).toList) : c = ' ' := by
  rw [pad, String.toList_ofList] at h
  exact List.eq_of_mem_replicate h

/-- A block without lines has no text. -/
theorem blockLines_nil (indent : Nat) : blockLines indent [] = "" := rfl

/-- Each line of a block stands behind a line feed and maybe some spaces. -/
theorem toList_blockLines_cons (indent : Nat) (line : String) (lines : List String) :
    ∃ margin, '$' ∉ margin ∧ (blockLines indent (line :: lines)).toList =
      '\n' :: (margin ++ line.toList ++ (blockLines indent lines).toList) := by
  unfold blockLines
  simp only [String.toList_join, List.map_cons, List.flatMap_cons]
  split
  · next hline => exact ⟨[], by simp, by simp [hline]⟩
  · refine ⟨(pad indent).toList, fun h => absurd (eq_of_mem_pad h) (by decide), ?_⟩
    simp

/-- The lines of a block close no template, as each starts with a line feed. -/
theorem unclosing_blockLines (indent : Nat) (lines : List String) :
    Unclosing (blockLines indent lines).toList := by
  cases lines with
  | nil => exact .of_notMem (by simp [blockLines_nil])
  | cons line lines =>
      obtain ⟨margin, -, hlines⟩ := toList_blockLines_cons indent line lines
      exact hlines ▸ .newline _

/-- The lines of a block have the templates of each line. -/
theorem templates_blockLines (indent : Nat) (lines : List String) :
    templates (blockLines indent lines) = lines.flatMap templates := by
  induction lines with
  | nil => rfl
  | cons line lines ih =>
      obtain ⟨margin, hmargin, hlines⟩ := toList_blockLines_cons indent line lines
      have hfront : '$' ∉ '\n' :: margin := by simpa using hmargin
      rw [templates] at ih ⊢
      rw [hlines, ← List.cons_append, ← List.cons_append,
        templatesFrom_append (unclosing_blockLines ..) (Nat.zero_le _),
        templatesFrom_append_of_notMem hfront, List.map_append, ih, List.flatMap_cons, templates]

/-- **Templates of an entry**: those of its text, if that has several lines. -/
theorem templates_entry {indent : Nat} {key text : String} (hkey : '$' ∉ key.toList)
    (htext : '\n' ∈ text.toList) : templates (entry indent key text) = templates text := by
  have hpad : '$' ∉ (pad indent).toList := fun h => absurd (eq_of_mem_pad h) (by decide)
  rw [entry, literalBlock, if_pos (List.contains_iff_mem.mpr htext)]
  rw [templates_append_of_notMem, templates_blockLines, List.flatMap_map]
  · simp only [templates, String.toList_ofList, ← List.map_flatMap, flatMap_lines,
      templatesFrom_dropTail]
  · simp only [String.toList_append, List.mem_append, not_or]
    refine ⟨⟨⟨⟨hpad, hkey⟩, by decide⟩, ?_⟩, ?_⟩ <;> split <;> decide

/-- A scalar has no character that its text does not have, but for quotes. -/
theorem notMem_scalar {c : Char} {text : String} (hc : c ≠ '\'') (h : c ∉ text.toList) :
    c ∉ (scalar text).toList := by
  have hdoubled : c ∉ doubleSingleQuotes text.toList := by
    intro hmem
    obtain ⟨d, hd, hcd⟩ := List.mem_flatMap.mp hmem
    split at hcd
    · simp [hc] at hcd
    · exact h (List.mem_singleton.mp hcd ▸ hd)
  unfold scalar
  split
  · simp [hc, hdoubled]
  · exact h

/-- An entry has no templates if its text lacks one of the characters that each template
starts with. -/
theorem templates_entry_eq_nil {indent : Nat} {key text : String} (hkey : '$' ∉ key.toList)
    (htext : '$' ∉ text.toList ∨ '\x7b' ∉ text.toList) :
    templates (entry indent key text) = [] := by
  by_cases hlines : '\n' ∈ text.toList
  · rw [templates_entry hkey hlines, templates_eq_nil htext]
  · have hpad : '$' ∉ (pad indent).toList := fun h => absurd (eq_of_mem_pad h) (by decide)
    have hscalar : templates (scalar text) = [] :=
      templates_eq_nil (htext.imp (notMem_scalar (by decide)) (notMem_scalar (by decide)))
    rw [entry, literalBlock, if_neg (mt List.contains_iff_mem.mp hlines),
      templates_append_of_notMem (by simp [hpad, hkey]), hscalar]

/-- The lines of a condition have no characters but those of the condition and spaces. -/
theorem foldedLines_subset {expression line : String} (h : line ∈ foldedLines expression) :
    line.toList ⊆ ' ' :: expression.toList := by
  obtain ⟨_, htext, hline⟩ := List.mem_flatMap.mp h
  obtain ⟨part, hpart, rfl⟩ := List.mem_map.mp htext
  obtain ⟨cs, hcs, rfl⟩ := List.mem_map.mp hline
  rw [String.toList_ofList] at hcs ⊢
  have hwrapped : cs ⊆ ' ' :: part := fun _ hc =>
    Wrap.breakLines_subset (List.mem_flatten.mpr ⟨cs, hcs, hc⟩)
  have hcut : part ⊆ expression.toList := fun _ hc =>
    Text.lines_subset _ (List.mem_flatten.mpr ⟨part, hpart, hc⟩)
  exact List.Subset.trans hwrapped (List.cons_subset_cons _ hcut)

/-- A condition without dollar signs has no templates, on however many lines it stands. -/
theorem templates_ifEntry_eq_nil {indent : Nat} {expression : String}
    (h : '$' ∉ expression.toList) : templates (ifEntry indent expression) = [] := by
  have hpad : ∀ n, '$' ∉ (pad n).toList := fun n hmem => absurd (eq_of_mem_pad hmem) (by decide)
  have hline : ∀ line ∈ foldedLines expression, '$' ∉ line.toList := fun line hmem hdollar => by
    rcases List.mem_cons.mp (foldedLines_subset hmem hdollar) with hspace | hdollar
    · exact absurd hspace (by decide)
    · exact h hdollar
  refine templates_eq_nil (.inl ?_)
  unfold ifEntry
  split
  · simpa [String.toList_join, hpad] using hline
  · simp [hpad, h]

/-- Texts that are joined have no character that neither they nor the separator have. -/
theorem notMem_intercalate {c : Char} {sep : String} {texts : List String}
    (hsep : c ∉ sep.toList) (h : ∀ text ∈ texts, c ∉ text.toList) :
    c ∉ (sep.intercalate texts).toList := by
  induction texts with
  | nil => simp
  | cons text texts ih =>
      rw [List.forall_mem_cons] at h
      cases texts with
      | nil => simpa using h.1
      | cons text' texts =>
          rw [String.intercalate_cons_cons, String.toList_append, String.toList_append,
            List.mem_append, List.mem_append, not_or, not_or]
          exact ⟨⟨h.1, hsep⟩, ih h.2⟩

/-- The references in the templates of a text are those in the expressions. -/
theorem mem_templateReferences {text name : String} :
    name ∈ (templateReferences text).toList ↔
      ∃ body ∈ templates text, name ∈ (needsReferences body).toList := by
  rw [templateReferences, NameSet.mem_toList_foldl_union, or_iff_right NameSet.mem_toList_empty]

end AgentPipeline.Reference
