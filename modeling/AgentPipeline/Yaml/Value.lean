import AgentPipeline.Number.Double
import AgentPipeline.Text.Quoted

/-!
# YAML values

A YAML document denotes a value: null, a boolean, a number, a string, a sequence, a
mapping, or a value under a local tag. The entries of a mapping keep their order, and any
value may be a key.

## Main definitions

* `Yaml.Number`, `Yaml.Value`: the values.
* `Value.untag`, `Value.asString?`, `Value.asBool?`, `Value.entries?`, `Value.get?`:
  access that looks through tags.
* `Value.isUntagged`: whether there are no tags in a value.
* `Value.same`: equality of values, in which the order of a mapping's entries does not
  count.
* `Value.describe`: the text by which diagnostics show a value.
-/

namespace AgentPipeline.Yaml

/-- A number: an integer or a double. -/
inductive Number where
  | int (n : Int)
  | float (x : Double)
  deriving Repr, DecidableEq, Inhabited

namespace Number

/-- The text of a number. -/
def text : Number → String
  | .int n => toString n
  | .float x => x.text

/-- The number as a natural number below `2 ^ 32`. -/
def asUInt32? : Number → Option Nat
  | .int n => if 0 ≤ n ∧ n.toNat < Nat.pow 2 32 then some n.toNat else none
  | .float _ => none

/-- Equality of numbers. -/
def same : Number → Number → Bool
  | .int n, .int m => n == m
  | .float x, .float y => x.same y
  | _, _ => false

end Number

/-- A YAML value. -/
inductive Value where
  | null
  | bool (b : Bool)
  | number (n : Number)
  | string (s : String)
  | sequence (items : List Value)
  | mapping (entries : List (Value × Value))
  /-- a value under a local tag, whose exclamation mark is left out -/
  | tagged (tag : String) (value : Value)
  deriving Repr, Inhabited

namespace Value

/-- The value without its tags. -/
def untag : Value → Value
  | .tagged _ v => v.untag
  | v => v

/-- The string that a value is, whatever its tags. -/
def asString? (v : Value) : Option String :=
  match v.untag with
  | .string s => some s
  | _ => none

/-- The boolean that a value is, whatever its tags. -/
def asBool? (v : Value) : Option Bool :=
  match v.untag with
  | .bool b => some b
  | _ => none

/-- The entries of the mapping that a value is, whatever its tags. -/
def entries? (v : Value) : Option (List (Value × Value)) :=
  match v.untag with
  | .mapping entries => some entries
  | _ => none

/-- Whether a value is this string, without tags. -/
def isString (s : String) : Value → Bool
  | .string t => s == t
  | _ => false

/-- The value at a string key among the entries of a mapping. -/
def lookup (key : String) (entries : List (Value × Value)) : Option Value :=
  (entries.find? fun e => e.1.isString key).map (·.2)

/-- The value at a string key of the mapping that a value is. -/
def get? (v : Value) (key : String) : Option Value :=
  v.entries?.bind (lookup key)

/-! ### Equality -/

mutual

/-- Equality of values. Mappings are equal if they have equally many entries and each
entry of one occurs in the other. -/
def same : Value → Value → Bool
  | .null, .null => true
  | .bool a, .bool b => a == b
  | .number a, .number b => a.same b
  | .string a, .string b => a == b
  | .sequence a, .sequence b => sameItems a b
  | .mapping a, .mapping b => a.length == b.length && sameEntries a b
  | .tagged s a, .tagged t b => s == t && same a b
  | _, _ => false

/-- Equality of sequences, item by item. -/
def sameItems : List Value → List Value → Bool
  | [], [] => true
  | a :: as, b :: bs => same a b && sameItems as bs
  | _, _ => false

/-- Whether each entry of a list occurs in another list. -/
def sameEntries : List (Value × Value) → List (Value × Value) → Bool
  | [], _ => true
  | (k, v) :: rest, other =>
    other.any (fun e => same k e.1 && same v e.2) && sameEntries rest other

end

/-- Whether no two keys of a mapping are equal. -/
def keysDistinct : List (Value × Value) → Bool
  | [] => true
  | (k, _) :: rest => rest.all (fun e => !k.same e.1) && keysDistinct rest

/-! ### Tags -/

mutual

/-- Whether there are no tags in a value. -/
def isUntagged : Value → Bool
  | .sequence items => areUntagged items
  | .mapping entries => entriesUntagged entries
  | .tagged _ _ => false
  | _ => true

/-- Whether there are no tags in a list of values. -/
def areUntagged : List Value → Bool
  | [] => true
  | v :: vs => v.isUntagged && areUntagged vs

/-- Whether there are no tags in the entries of a mapping. -/
def entriesUntagged : List (Value × Value) → Bool
  | [] => true
  | (k, v) :: rest => k.isUntagged && v.isUntagged && entriesUntagged rest

end

/-! ### Diagnostics -/

/-- The text of a tag. -/
def tagText (tag : String) : String := "!" ++ tag

mutual

/-- The text by which diagnostics show a value. -/
def describe : Value → String
  | .null => "Null"
  | .bool b => "Bool(" ++ toString b ++ ")"
  | .number n => "Number(" ++ n.text ++ ")"
  | .string s => "String(" ++ Text.Str.quoted s ++ ")"
  | .sequence items => "Sequence [" ++ ", ".intercalate (describeItems items) ++ "]"
  | .mapping entries =>
    "Mapping \x7b" ++ ", ".intercalate (describeEntries entries) ++ "\x7d"
  | .tagged tag v =>
    "TaggedValue \x7b tag: " ++ tagText tag ++ ", value: " ++ v.describe ++ " \x7d"

/-- The texts by which diagnostics show the items of a sequence. -/
def describeItems : List Value → List String
  | [] => []
  | v :: vs => v.describe :: describeItems vs

/-- The texts by which diagnostics show the entries of a mapping. -/
def describeEntries : List (Value × Value) → List String
  | [] => []
  | (k, v) :: rest => (k.describeKey ++ ": " ++ v.describe) :: describeEntries rest

/-- The text by which diagnostics show a key: scalars without their kind. -/
def describeKey : Value → String
  | .null => "Null"
  | .bool b => toString b
  | .number n => n.text
  | .string s => Text.Str.quoted s
  | .sequence items => "Sequence [" ++ ", ".intercalate (describeItems items) ++ "]"
  | .mapping entries =>
    "Mapping \x7b" ++ ", ".intercalate (describeEntries entries) ++ "\x7d"
  | .tagged tag v =>
    "TaggedValue \x7b tag: " ++ tagText tag ++ ", value: " ++ v.describe ++ " \x7d"

end

/-- The kind and content of a value, as a reader that expected something else names
it. -/
def unexpected : Value → String
  | .null => "unit value"
  | .bool b => "boolean \x60" ++ toString b ++ "\x60"
  | .number (.int n) => "integer \x60" ++ toString n ++ "\x60"
  | .number (.float x) => "floating point \x60" ++ x.positional ++ "\x60"
  | .string s => "string " ++ Text.Str.quoted s
  | .sequence _ => "sequence"
  | .mapping _ => "map"
  | .tagged _ _ => "enum"

end Value

end AgentPipeline.Yaml
