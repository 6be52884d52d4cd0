/-!
# Conditions

A **condition** decides whether a job or a step runs. Its leaves are texts that the
runner evaluates; `and`, `or` and `not` combine them, and the remaining forms spell the
comparisons, calls and literals that generated conditions are made of.

`render` writes a condition on one line. The logical operators put parentheses around
each operand, so that the tree can be read back from the text whatever the precedence of
the operators inside. A `disjunction` is flat: its terms stand side by side, without
parentheses of their own, on one line or on one line each with descriptions as comments.

## Main definitions

* `Condition`, `Leaf`, `Comparison`: the trees.
* `Condition.render`, `Condition.renderLines`: the one-line text and the text with one
  term per line.
* `Condition.leaves`, `Condition.visitLeaves`: the leaves from left to right, as a list
  and as the steps of a monadic walk.
* `conjunction`: the left-nested `and` of a list of conditions.
-/

namespace AgentPipeline

/-- A text that the runner evaluates, with an optional description for readers. -/
structure Leaf where
  /-- the expression, as it is rendered -/
  text : String
  /-- what the expression checks, in words -/
  description : Option String
  deriving Repr, DecidableEq, Inhabited

/-- Comparison operators. -/
inductive Comparison where
  | eq | ne | gt | ge | lt | le
  deriving Repr, DecidableEq, Inhabited

/-- The spelling of a comparison operator. -/
def Comparison.symbol : Comparison → String
  | .eq => "=="
  | .ne => "!="
  | .gt => ">"
  | .ge => ">="
  | .lt => "<"
  | .le => "<="

/-- A condition. -/
inductive Condition where
  /-- an expression that is rendered as it stands -/
  | expression (leaf : Leaf)
  | and (left right : Condition)
  | or (left right : Condition)
  | not (child : Condition)
  | compare (left : Condition) (op : Comparison) (right : Condition)
  /-- a dotted path such as `github.event_name` -/
  | property (path : String)
  /-- a string between single quotes -/
  | string (value : String)
  /-- a number in its own spelling -/
  | number (text : String)
  | boolean (value : Bool)
  /-- a call with its arguments in order -/
  | call (function : String) (arguments : List Condition)
  /-- whether an array or a text has a value in it -/
  | contains (array value : Condition)
  | ternary (condition ifTrue ifFalse : Condition)
  /-- a flat `or` over any number of terms, on one line or on one line per term -/
  | disjunction (terms : List Condition) (multiline : Bool)
  deriving Repr, Inhabited

namespace Condition

/-- The leaf with this text and no description. -/
def leaf (text : String) : Condition :=
  .expression ⟨text, none⟩

/-- The description of a leaf, unless it is empty. -/
def description : Condition → Option String
  | .expression ⟨_, some d⟩ => if d = "" then none else some d
  | _ => none

/-- The comment line that introduces a term with a description. -/
def comment (term : Condition) : List String :=
  match term.description with
  | some d => ["# " ++ d]
  | none => []

/-- Rendered terms on one line each, every line but the last ending with the operator,
under the comments that introduce them. -/
def joinLines : List (List String × String) → List String
  | [] => []
  | [(comments, text)] => comments ++ [text]
  | (comments, text) :: rest => comments ++ (text ++ " ||") :: joinLines rest

/-- The terms of a disjunction: nothing for none, the term alone for one, and otherwise
the terms on one line or on one line each. -/
def joinTerms (multiline : Bool) : List (List String × String) → String
  | [] => ""
  | [(_, text)] => text
  | terms =>
    if multiline then "\n".intercalate (joinLines terms)
    else " || ".intercalate (terms.map (·.2))

mutual

/-- The text of a condition. -/
def render : Condition → String
  | .expression l => l.text
  | .and l r => "(" ++ l.render ++ ") && (" ++ r.render ++ ")"
  | .or l r => "(" ++ l.render ++ ") || (" ++ r.render ++ ")"
  | .not c => "!(" ++ c.render ++ ")"
  | .compare l op r => l.render ++ " " ++ op.symbol ++ " " ++ r.render
  | .property path => path
  | .string v => "'" ++ v ++ "'"
  | .number t => t
  | .boolean b => if b then "true" else "false"
  | .call f args => f ++ "(" ++ ", ".intercalate (renderArguments args) ++ ")"
  | .contains array value => "contains(" ++ array.render ++ ", " ++ value.render ++ ")"
  | .ternary c t f => c.render ++ " ? " ++ t.render ++ " : " ++ f.render
  | .disjunction terms multiline => joinTerms multiline (renderTerms terms)

/-- The texts of the arguments of a call. -/
def renderArguments : List Condition → List String
  | [] => []
  | c :: cs => c.render :: renderArguments cs

/-- The texts of the terms of a disjunction, under their comments. -/
def renderTerms : List Condition → List (List String × String)
  | [] => []
  | c :: cs => (c.comment, c.render) :: renderTerms cs

end

/-- The text of a condition with the terms of a disjunction on one line each. -/
def renderLines : Condition → String
  | .disjunction terms _ => joinTerms true (renderTerms terms)
  | c => c.render

/-- The empty disjunction, which renders to nothing. -/
def isEmpty : Condition → Bool
  | .disjunction [] _ => true
  | _ => false

/-! ### Leaves -/

mutual

/-- The expression leaves of a condition, from left to right. -/
def leaves : Condition → List Leaf
  | .expression l => [l]
  | .and l r => l.leaves ++ r.leaves
  | .or l r => l.leaves ++ r.leaves
  | .not c => c.leaves
  | .compare l _ r => l.leaves ++ r.leaves
  | .property _ => []
  | .string _ => []
  | .number _ => []
  | .boolean _ => []
  | .call _ args => leavesOfList args
  | .contains array value => array.leaves ++ value.leaves
  | .ternary c t f => c.leaves ++ t.leaves ++ f.leaves
  | .disjunction terms _ => leavesOfList terms

/-- The expression leaves of several conditions, from left to right. -/
def leavesOfList : List Condition → List Leaf
  | [] => []
  | c :: cs => c.leaves ++ leavesOfList cs

end

mutual

/-- Visit the expression leaves of a condition from left to right. In a monad with
failure the first leaf that the visitor rejects ends the walk. -/
def visitLeaves {m : Type → Type} [Monad m] (visit : Leaf → m Unit) : Condition → m Unit
  | .expression l => visit l
  | .and l r => do l.visitLeaves visit; r.visitLeaves visit
  | .or l r => do l.visitLeaves visit; r.visitLeaves visit
  | .not c => c.visitLeaves visit
  | .compare l _ r => do l.visitLeaves visit; r.visitLeaves visit
  | .property _ => pure ()
  | .string _ => pure ()
  | .number _ => pure ()
  | .boolean _ => pure ()
  | .call _ args => visitLeavesOfList visit args
  | .contains array value => do array.visitLeaves visit; value.visitLeaves visit
  | .ternary c t f => do
      c.visitLeaves visit; t.visitLeaves visit; f.visitLeaves visit
  | .disjunction terms _ => visitLeavesOfList visit terms

/-- Visit the expression leaves of several conditions from left to right. -/
def visitLeavesOfList {m : Type → Type} [Monad m] (visit : Leaf → m Unit) :
    List Condition → m Unit
  | [] => pure ()
  | c :: cs => do c.visitLeaves visit; visitLeavesOfList visit cs

end

/-! ### Conjunctions -/

/-- The conjunction of a list of conditions, nested to the left; none for no condition. -/
def conjunction : List Condition → Option Condition
  | [] => none
  | c :: cs => some (cs.foldl .and c)

end Condition

end AgentPipeline
