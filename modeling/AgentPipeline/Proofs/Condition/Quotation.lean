import AgentPipeline.Proofs.Condition.Clause
import AgentPipeline.Proofs.Condition.ErrorKinds

/-!
# Strings in generated comparisons

A generated clause puts quotes around its string and leaves the string as it is. Whether the text is
read as one leaf is then up to the string. It is if each quote and each backslash in it is
protected. Otherwise the string is a protected text with one of two things behind it
(`protected_cases`): a last backslash, which takes the closing quote out of consideration, so that
the string never ends; or a quote, which ends the string, so that everything behind it is read as
the text of a condition (`parse_eventIs_cases`).
-/

namespace AgentPipeline

namespace Token

variable {a cs lit rest x : List Char}

/-- A text is protected, or it is protected up to a last backslash or up to a quote. -/
theorem protected_cases : ∀ cs : List Char, Protected '\'' cs ∨
    (∃ a, Protected '\'' a ∧ cs = a ++ ['\\']) ∨ ∃ a b, Protected '\'' a ∧ cs = a ++ '\'' :: b
  | [] => .inl .nil
  | [c] => by
      by_cases hquote : c = '\''
      · exact .inr (.inr ⟨[], [], .nil, by rw [hquote]; rfl⟩)
      · by_cases hbackslash : c = '\\'
        · exact .inr (.inl ⟨[], .nil, by rw [hbackslash]; rfl⟩)
        · exact .inl (.plain hquote hbackslash .nil)
  | c :: d :: cs => by
      by_cases hquote : c = '\''
      · exact .inr (.inr ⟨[], d :: cs, .nil, by rw [hquote]; rfl⟩)
      · by_cases hbackslash : c = '\\'
        · subst hbackslash
          rcases protected_cases cs with h | ⟨a, ha, rfl⟩ | ⟨a, b, ha, rfl⟩
          · exact .inl h.escaped
          · exact .inr (.inl ⟨'\\' :: d :: a, ha.escaped, rfl⟩)
          · exact .inr (.inr ⟨'\\' :: d :: a, b, ha.escaped, rfl⟩)
        · rcases protected_cases (d :: cs) with h | ⟨a, ha, heq⟩ | ⟨a, b, ha, heq⟩
          · exact .inl (h.plain hquote hbackslash)
          · exact .inr (.inl ⟨c :: a, ha.plain hquote hbackslash, by rw [heq]; rfl⟩)
          · exact .inr (.inr ⟨c :: a, b, ha.plain hquote hbackslash, by rw [heq]; rfl⟩)

/-! ### Behind the quotes of a string -/

/-- The cursor behind the quote that opens a string. -/
def inString : Cursor := ⟨0, .inside '\'', some '\''⟩

/-- The cursor behind the quote that closes a string. -/
def behindString : Cursor := ⟨0, .outside, some '\''⟩

/-- The first quote opens the string. -/
theorem after_opening {s : Cursor} (h : s.Closed) : s.after '\'' = inString := by
  simp [Cursor.after, inString, h.1, h.2, Quotes.next, Quotes.opens]

/-- The second one closes it. -/
theorem after_closing {s : Cursor} (hquotes : s.quotes = .inside '\'') (hdepth : s.depth = 0) :
    s.after '\'' = behindString := by
  simp [Cursor.after, behindString, hquotes, hdepth, Quotes.next]

/-- No literal ends in front of a quote. -/
theorem not_ends_quote (s : Cursor) (next : Option Char) : ¬s.Ends '\'' next := by
  rintro ⟨-, -, hsymbol⟩
  simp [symbolAt] at hsymbol

/-- The literal goes on to the end of the text and leaves nothing open. -/
def RunsOut (s : Cursor) (cs : List Char) : Prop := s.Covers cs none ∧ (s.afterAll cs).Closed

/-- A protected text with its closing quote is passed over. -/
theorem runsOut_inString_iff (ha : Protected '\'' a) :
    RunsOut inString (a ++ '\'' :: x) ↔ RunsOut behindString x := by
  have hinside : inString.Covers a (some '\'') ∧ (inString.afterAll a).quotes = .inside '\'' ∧
      (inString.afterAll a).depth = 0 := covers_inside rfl ha
  obtain ⟨hcovers, hquotes, hdepth⟩ := hinside
  have hbehind := after_closing hquotes hdepth
  rw [RunsOut, Cursor.covers_append, Cursor.afterAll_append, Cursor.afterAll_cons, Cursor.Covers,
    hbehind, RunsOut]
  simp [hcovers, not_ends_quote]

/-- A string behind inert characters is a literal text if what is behind its first quote runs out
with the text. -/
theorem isLiteral_string_iff (hinert : ∀ c ∈ a, Inert c)
    (hhead : ∀ c ∈ a.head?, Text.isBlank c = false) :
    IsLiteral (a ++ '\'' :: (x ++ ['\''])) ↔ RunsOut inString (x ++ ['\'']) := by
  obtain ⟨hcovers, hclosed⟩ := solid_of_inert hinert .start (some '\'') ⟨rfl, rfl⟩
  have hopened := after_opening hclosed
  have hlast : (a ++ '\'' :: (x ++ ['\''])).getLast? = some '\'' := by
    rw [← List.cons_append, ← List.append_assoc, List.getLast?_concat]
  have htrimmed : Text.Trimmed (a ++ '\'' :: (x ++ ['\''])) := by
    refine ⟨fun c hc => ?_, fun c hc => ?_⟩
    · cases a with
      | nil => obtain rfl : '\'' = c := by simpa using hc
               decide
      | cons d a => exact hhead c hc
    · obtain rfl : '\'' = c := by simpa [hlast] using hc
      decide
  have hruns : RunsOut .start (a ++ '\'' :: (x ++ ['\''])) ↔ RunsOut inString (x ++ ['\'']) := by
    rw [RunsOut, Cursor.covers_append, Cursor.afterAll_append, Cursor.afterAll_cons, Cursor.Covers,
      hopened, RunsOut]
    simp [hcovers, not_ends_quote]
  rw [← hruns]
  exact ⟨fun h => ⟨h.covers, h.closed⟩, fun h => ⟨by simp, htrimmed, h.1, h.2⟩⟩

/-! ### A string that never ends -/

/-- Inert characters are passed over. -/
theorem span_append_of_inert {s : Cursor} {m : Marks} (h : ∀ c ∈ a, Inert c) (hs : s.Closed) :
    s.span m (a ++ x) = (· + a.length) <$>
      (s.afterAll a).span { m with position := m.position + a.length } x := by
  induction a generalizing s m with
  | nil => simp
  | cons c a ih =>
      rw [List.forall_mem_cons] at h
      have hends : ¬s.Ends c (a ++ x).head? := by
        rintro ⟨-, -, hsymbol⟩
        simp [h.1.symbolAt_eq_none] at hsymbol
      have hinert := h.1
      simp only [Inert, List.mem_cons, List.not_mem_nil, not_or] at hinert
      have hmarks : m.after s c = { m with position := m.position + 1 } := by
        simp [Marks.after, Quotes.opens, hinert]
      rw [List.cons_append, Cursor.span_cons, if_neg hends, ih h.2 (h.1.after_closed hs), hmarks,
        ← comp_map]
      simp [Function.comp_def, Nat.add_assoc, Nat.add_comm 1]

/-- Quotes that are never closed are blamed. -/
theorem span_eq_error {s : Cursor} {m : Marks}
    (h : ∀ front, front <+: cs → s.quotes.after front ≠ .outside) :
    s.span m cs = .error (.unterminatedString m.quote) := by
  induction cs generalizing s m with
  | nil =>
      have hquotes : s.quotes ≠ .outside := h [] List.nil_prefix
      rw [Cursor.span, literalSpan, if_pos hquotes]
  | cons c cs ih =>
      have hquotes : s.quotes ≠ .outside := h [] List.nil_prefix
      have hrest : ∀ front, front <+: cs → (s.after c).quotes.after front ≠ .outside :=
        fun front hfront => h (c :: front) (List.cons_prefix_cons.mpr ⟨rfl, hfront⟩)
      rw [Cursor.span_cons, if_neg fun hends => hquotes hends.1.1, ih hrest]
      simp [Marks.after, hquotes]

/-- Quotes around a protected text stay open up to what stands behind it. -/
theorem Protected.after_ne_outside {q : Char} (h : Protected q a)
    (hx : ∀ front, front <+: x → Quotes.after (.inside q) front ≠ .outside) :
    ∀ front, front <+: a ++ x → Quotes.after (.inside q) front ≠ .outside := by
  induction h with
  | nil => exact hx
  | @plain c cs hquote hbackslash _ ih =>
      intro front hfront
      rw [List.cons_append, List.prefix_cons_iff] at hfront
      rcases hfront with rfl | ⟨front, rfl, hrest⟩
      · nofun
      · simpa [Quotes.after, Quotes.next, hquote, hbackslash] using ih front hrest
  | @escaped c cs _ ih =>
      intro front hfront
      rw [List.cons_append, List.cons_append, List.prefix_cons_iff] at hfront
      rcases hfront with rfl | ⟨tail, rfl, htail⟩
      · nofun
      rcases List.prefix_cons_iff.mp htail with rfl | ⟨rest, rfl, hrest⟩
      · simp [Quotes.after, Quotes.next]
      · simpa [Quotes.after, Quotes.next] using ih rest hrest

/-- A last backslash leaves the quotes open. -/
theorem span_string_eq_error {s : Cursor} {m : Marks} (hs : s.Closed) (ha : Protected '\'' a) :
    s.span m ('\'' :: (a ++ ['\\', '\''])) = .error (.unterminatedString m.position) := by
  have hlast : ∀ front, front <+: ['\\', '\''] →
      Quotes.after (.inside '\'') front ≠ .outside := by
    intro front hfront
    rcases List.prefix_cons_iff.mp hfront with rfl | ⟨tail, rfl, htail⟩
    · nofun
    rcases List.prefix_cons_iff.mp htail with rfl | ⟨rest, rfl, hrest⟩
    · decide
    · obtain rfl := List.prefix_nil.mp hrest
      decide
  have hopen : ∀ front, front <+: a ++ ['\\', '\''] →
      (s.after '\'').quotes.after front ≠ .outside := by
    rw [after_opening hs]
    exact ha.after_ne_outside hlast
  have hmark : (m.after s '\'').quote = m.position := if_pos ⟨hs.1, rfl⟩
  rw [Cursor.span_cons, if_neg (not_ends_quote _ _), span_eq_error hopen, hmark]
  rfl

end Token

/-! ### Clauses about events -/

namespace Condition

open Token (IsLiteral)

/-- A text is read as one leaf if it is a literal text. -/
theorem parse_eq_leaf_iff {text : String} :
    parse text = .ok (leaf text) ↔ IsLiteral text.toList := by
  constructor
  · intro h
    cases spells_of_parse h with
    | atom _ hliteral => simpa [leaf, render] using hliteral
  · intro h
    have hspells : Spells (leaf text) (leaf (leaf text).render) :=
      .atom trivial (by simpa [leaf, render] using h)
    simpa [leaf, render] using hspells.parse_render

end Condition

namespace Clause

open Condition (parse leaf parse_eq_leaf_iff parse_eq_ok_iff)
open Token

/-- What stands in front of the string in a clause about an event. -/
def eventFront : List Char := ("github.event_name" ++ " " ++ Comparison.eq.symbol ++ " ").toList

/-- The clause on the name of the event, with the string set apart. -/
theorem toList_eventIs (event : String) :
    (eventIs event).render.toList = eventFront ++ '\'' :: (event.toList ++ ['\'']) := by
  have htext : (eventIs event).render =
      "github.event_name" ++ " " ++ Comparison.eq.symbol ++ " " ++ ("'" ++ event ++ "'") := by
    simp only [eventIs, equals, Condition.render]
  have hstring : ("'" ++ event ++ "'").toList = '\'' :: (event.toList ++ ['\'']) := by simp
  unfold eventFront
  rw [htext, String.toList_append, hstring]

/-- What stands in front of the string is inert. -/
theorem inert_eventFront : ∀ c ∈ eventFront, Inert c := by
  have hall : eventFront.all (fun c => decide (Inert c)) = true := by decide +kernel
  simpa only [List.all_eq_true, decide_eq_true_eq] using hall

/-- The clause is read as one leaf if the string runs out at its last quote. -/
theorem parse_eventIs_eq_leaf_iff (event : String) :
    parse (eventIs event).render = .ok (leaf (eventIs event).render) ↔
      RunsOut inString (event.toList ++ ['\'']) := by
  have hhead : ∀ c ∈ eventFront.head?, Text.isBlank c = false := by
    rintro c hc
    obtain rfl : 'g' = c := Option.some.inj hc
    decide
  rw [parse_eq_leaf_iff, toList_eventIs, isLiteral_string_iff inert_eventFront hhead]

/-- A last backslash in the string takes the closing quote out of consideration. -/
theorem parse_eventIs_backslash {event : String} {a : List Char} (ha : Protected '\'' a)
    (hevent : event.toList = a ++ ['\\']) :
    parse (eventIs event).render = .error (.unterminatedString 21) := by
  have hlength : eventFront.length = 21 := by decide +kernel
  obtain ⟨-, hclosed⟩ := solid_of_inert inert_eventFront .start none ⟨rfl, rfl⟩
  have hspan : Cursor.start.span ⟨0, 0, 0⟩ (eventIs event).render.toList =
      .error (.unterminatedString 21) := by
    rw [toList_eventIs, hevent, List.append_assoc, span_append_of_inert inert_eventFront ⟨rfl, rfl⟩,
      hlength]
    exact map_eq_error_iff.mpr (span_string_eq_error hclosed ha)
  have htext : ∃ cs, (eventIs event).render.toList = 'g' :: cs := ⟨_, toList_eventIs event⟩
  obtain ⟨cs, hcs⟩ := htext
  have hblank : Text.Str.isBlank (eventIs event).render = false := by
    rw [Text.Str.isBlank, hcs, List.all_cons]
    rfl
  have hsymbol : symbolAt 'g' cs.head? = none := by simp [symbolAt]
  rw [hcs] at hspan
  refine (Condition.parse_eq_error_iff hblank).mpr (.inl ?_)
  rw [hcs]
  exact scanFrom_of_span_eq_error (by decide) hsymbol hspan

/-- **The string of a clause about an event**: it is protected, and the clause is read as one leaf;
or it is protected up to a last backslash, and the string never ends; or it is protected up to a
quote, and whether the clause is read as one leaf depends on what stands behind the quote in the
same way as if the string were empty. -/
theorem parse_eventIs_cases (event : String) :
    let text := (eventIs event).render
    (Protected '\'' event.toList ∧ parse text = .ok (leaf text)) ∨
    (∃ a, Protected '\'' a ∧ event.toList = a ++ ['\\'] ∧
      parse text = .error (.unterminatedString 21)) ∨
    ∃ a b, Protected '\'' a ∧ event.toList = a ++ '\'' :: b ∧
      let rest := "''" ++ String.ofList b ++ "'"
      (parse text = .ok (leaf text) ↔ parse rest = .ok (leaf rest)) := by
  intro text
  rcases protected_cases event.toList with h | ⟨a, ha, hevent⟩ | ⟨a, b, ha, hevent⟩
  · refine .inl ⟨h, ?_⟩
    rw [parse_eventIs_eq_leaf_iff, runsOut_inString_iff h]
    exact ⟨trivial, rfl, rfl⟩
  · exact .inr (.inl ⟨a, ha, hevent, parse_eventIs_backslash ha hevent⟩)
  · refine .inr (.inr ⟨a, b, ha, hevent, ?_⟩)
    intro rest
    have hrest : rest.toList = [] ++ '\'' :: (('\'' :: b) ++ ['\'']) := by simp [rest]
    rw [parse_eventIs_eq_leaf_iff, hevent, List.append_assoc, List.cons_append,
      runsOut_inString_iff ha, parse_eq_leaf_iff, hrest,
      isLiteral_string_iff (List.forall_mem_nil _) (by simp), List.cons_append]
    exact (runsOut_inString_iff .nil).symm

/-- A quote in the string ends it, and what stands behind it is the text of a condition. -/
theorem parse_eventIs_quote :
    parse (eventIs "it's").render = .error (.unterminatedString 26) ∧
    parse (eventIs "a' || 'b").render =
      .ok (.or (leaf "github.event_name == 'a'") (leaf "'b'")) := by
  have hquote : (eventIs "it's").render = "github.event_name == 'it's'" := by decide +kernel
  have hor : (eventIs "a' || 'b").render = "github.event_name == 'a' || 'b'" := by
    decide +kernel
  rw [hquote, hor]
  constructor
  · exact (Condition.parse_eq_error_iff (by decide)).mpr (.inl (by decide +kernel))
  · have hscan : Token.scan "github.event_name == 'a' || 'b'".toList =
        .ok [⟨.literal "github.event_name == 'a'", 0⟩, ⟨.or, 25⟩, ⟨.literal "'b'", 28⟩] := by
      decide +kernel
    exact parse_eq_ok_iff.mpr ⟨_, hscan,
      .or (.conjunct (.unary (.primary (.literal _)))) (.unary (.primary (.literal _)))⟩

end Clause

end AgentPipeline
