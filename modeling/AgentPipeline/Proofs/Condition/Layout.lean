import AgentPipeline.Proofs.Condition.Position

/-!
# How the tokens lie in a text

The tokens of a text lie in it one behind the other, each as it is spelled, with nothing but white
space in front of them, between them and behind them (`Layout`, `Scans.layout`). The stretch of a
literal is one of the text too, although the scanner gathers it from strings, calls and single
characters: only the white space at its end is cut off.

From the layout it can be read off where the tokens are and that nothing else is lost
(`accountsFor_of_scan`).
-/

namespace AgentPipeline.Token

variable {position : Nat} {cs : List Char} {tokens : List Token} {token : Token}

/-- The position behind the last character of a token. -/
def stop (token : Token) : Nat := token.position + token.kind.text.length

/-! ### Layouts -/

/-- **The layout of tokens**: from this position on, the text consists of their texts, with white
space in front of each of them and at the end. -/
inductive Layout : Nat → List Char → List Token → Prop
  | blanks {position : Nat} {cs : List Char} : Text.Blanks cs → Layout position cs []
  | token {position start : Nat} {cs blanks rest : List Char} {kind : TokenKind}
      {tokens : List Token} :
      cs = blanks ++ (kind.text.toList ++ rest) → Text.Blanks blanks →
      start = position + blanks.length → Layout (start + kind.text.length) rest tokens →
      Layout position cs (⟨kind, start⟩ :: tokens)

namespace Layout

/-- White space may stand in front of a layout. -/
theorem blanks_append {front : List Char} (hfront : Text.Blanks front)
    (h : Layout (position + front.length) cs tokens) : Layout position (front ++ cs) tokens := by
  have happend {back : List Char} (hback : Text.Blanks back) : Text.Blanks (front ++ back) :=
    fun c hc => (List.mem_append.mp hc).elim (hfront c) (hback c)
  cases h with
  | blanks hcs => exact .blanks (happend hcs)
  | @token _ start _ blanks rest kind tokens heq hblanks hstart hrest =>
      refine .token ?_ (happend hblanks) ?_ hrest
      · rw [heq, List.append_assoc]
      · rw [hstart, List.length_append, Nat.add_assoc]

theorem position_le (h : Layout position cs tokens) (htoken : token ∈ tokens) :
    position ≤ token.position := by
  induction h with
  | blanks => cases htoken
  | token heq hblanks hstart hrest ih =>
      rcases List.mem_cons.mp htoken with rfl | htoken
      · exact hstart ▸ Nat.le_add_right _ _
      · have hle := ih htoken
        omega

/-- A token begins where the one in front of it has ended, or further behind. -/
theorem pairwise_stop (h : Layout position cs tokens) :
    tokens.Pairwise fun a b => a.stop ≤ b.position := by
  induction h with
  | blanks => exact .nil
  | token _ _ _ hrest ih => exact .cons (fun _ htoken => hrest.position_le htoken) ih

/-- **Nothing but white space lies beside the tokens.** -/
theorem isBlank (h : Layout position cs tokens) {i : Nat} {c : Char} (hc : cs[i]? = some c)
    (hbeside : ∀ token ∈ tokens, position + i < token.position ∨ token.stop ≤ position + i) :
    Text.isBlank c = true := by
  induction h generalizing i with
  | blanks hblanks => exact hblanks c (List.mem_of_getElem? hc)
  | @token position start cs blanks rest kind tokens heq hblanks hstart hrest ih =>
      rw [List.forall_mem_cons] at hbeside
      obtain ⟨hfirst, hothers⟩ := hbeside
      have hlength : kind.text.toList.length = kind.text.length := String.length_toList
      by_cases hfront : i < blanks.length
      · rw [heq, List.getElem?_append_left hfront] at hc
        exact hblanks c (List.mem_of_getElem? hc)
      · -- behind the white space stands the token, and behind that the rest
        have hbehind : kind.text.length ≤ i - blanks.length := by
          simp only [stop] at hfirst
          omega
        rw [heq, List.getElem?_append_right (by omega),
          List.getElem?_append_right (by omega), hlength] at hc
        refine ih hc fun token htoken => ?_
        have hother := hothers token htoken
        omega

end Layout

/-- **The tokens that are scanned have a layout**, one step of the scanner at a time. -/
theorem Scans.layout (h : Scans position cs tokens) : Layout position cs tokens := by
  induction h with
  | nil => exact .blanks Text.blanks_nil
  | @blank position c cs tokens hc _ ih =>
      have hfront : Text.Blanks [c] := Text.blanks_cons.mpr ⟨hc, Text.blanks_nil⟩
      exact Layout.blanks_append hfront ih
  | @symbol position c cs kind width tokens hsymbol _ ih =>
      have htake := take_of_symbolAt hsymbol
      have hwidth : kind.text.length = width := by
        rw [← String.length_toList, ← htake, List.length_take_of_le (width_le_of_symbolAt hsymbol)]
      have hrest : Layout (position + kind.text.length) ((c :: cs).drop width) tokens := by
        rwa [hwidth]
      refine .token ?_ Text.blanks_nil rfl hrest
      rw [List.nil_append, ← htake, List.take_append_drop]
  | @literal position lit rest tokens _ hhead _ _ _ ih =>
      obtain ⟨back, hlit, hback⟩ := exists_literalText hhead
      have hlength : lit.length = (literalText lit).length + back.length := by
        conv_lhs => rw [hlit, List.length_append, String.length_toList]
      have hrest : Layout (position + (literalText lit).length) (back ++ rest) tokens := by
        refine .blanks_append hback ?_
        rwa [hlength, ← Nat.add_assoc] at ih
      refine .token ?_ Text.blanks_nil rfl hrest
      conv_lhs => rw [hlit, List.append_assoc]
      rfl

/-! ### Accounts -/

/-- **The tokens account for a text.** -/
structure AccountFor (tokens : List Token) (text : List Char) : Prop where
  /-- the positions increase -/
  increasing : tokens.Pairwise fun a b => a.position < b.position
  /-- no two tokens overlap -/
  disjoint : tokens.Pairwise fun a b => a.stop ≤ b.position
  /-- each token stands in the text at its position -/
  standsAt : ∀ token ∈ tokens, StandsAt token.kind.text.toList text token.position
  /-- what stands beside the tokens is white space -/
  isBlank : ∀ i c, text[i]? = some c →
    (∀ token ∈ tokens, i < token.position ∨ token.stop ≤ i) → Text.isBlank c = true
  /-- literals are not empty, and no white space stands at their ends -/
  literal : ∀ lit position, ⟨.literal lit, position⟩ ∈ tokens →
    lit ≠ "" ∧ Text.Trimmed lit.toList

/-- **Scanning loses nothing**: the tokens of a text account for it. -/
theorem accountFor_of_scan {text : String} {tokens : List Token}
    (h : scan text.toList = .ok tokens) : AccountFor tokens text.toList := by
  have hscans : Scans 0 text.toList tokens := scan_eq_ok_iff.mp h
  have hlayout := hscans.layout
  refine ⟨?_, hlayout.pairwise_stop, fun token => Condition.standsAt_of_mem h, ?_, ?_⟩
  · refine hlayout.pairwise_stop.imp_of_mem fun {a b} ha _ hle => ?_
    have hpos := List.length_pos_of_ne_nil (hscans.text_ne_nil ha)
    rw [String.length_toList] at hpos
    rw [stop] at hle
    omega
  · intro i c hc hbeside
    refine hlayout.isBlank hc fun token htoken => ?_
    rw [Nat.zero_add]
    exact hbeside token htoken
  · intro lit position hmem
    have hliteral : IsLiteral lit.toList := hscans.isLiteral (List.mem_map_of_mem hmem)
    exact ⟨fun hempty => hliteral.ne_nil (by rw [hempty]; rfl), hliteral.trimmed⟩

/-- A call and a string belong to one literal, and the white space at its end to none. -/
theorem accountFor_of_scan_call :
    scan "!f( ')' , a )  == 'b c'  ||( d )".toList =
        .ok [⟨.not, 0⟩, ⟨.literal "f( ')' , a )  == 'b c'", 1⟩, ⟨.or, 25⟩, ⟨.openParen, 27⟩,
          ⟨.literal "d", 29⟩, ⟨.closeParen, 31⟩] ∧
      StandsAt "f( ')' , a )  == 'b c'".toList "!f( ')' , a )  == 'b c'  ||( d )".toList 1 := by
  have hscan : scan "!f( ')' , a )  == 'b c'  ||( d )".toList =
      .ok [⟨.not, 0⟩, ⟨.literal "f( ')' , a )  == 'b c'", 1⟩, ⟨.or, 25⟩, ⟨.openParen, 27⟩,
        ⟨.literal "d", 29⟩, ⟨.closeParen, 31⟩] := by decide
  exact ⟨hscan, (accountFor_of_scan hscan).standsAt
    ⟨.literal "f( ')' , a )  == 'b c'", 1⟩ (by simp)⟩

end AgentPipeline.Token
