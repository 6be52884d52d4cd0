import AgentPipeline.Yaml.Character
import AgentPipeline.Number.Decimal

/-!
# Tags

A **tag** in front of a node says of what kind the node is. It is a sequence of bytes, most
often the text of the address of a core type of YAML, or of an exclamation mark with a local
name. In a document the bytes of a tag may be written as percent escapes, which have to look
like characters in their encoding, but need not be any; a zero byte ends a tag.

A local name that starts with a further exclamation mark is the same name without it, and
an exclamation mark alone is a name.

## Main definitions

* `Tag`, `Tag.core`: tags, and those of the core types.
* `Tag.localName?`: the local name of a tag.
* `Tag.unescape?`: the bytes of a tag as it is written.
-/

namespace AgentPipeline.Yaml

/-- A tag. -/
structure Tag where
  bytes : List UInt8
  deriving Repr, DecidableEq, Inhabited

namespace Tag

/-- The tag with a text. -/
def ofText (text : String) : Tag :=
  ⟨text.toUTF8.toList⟩

/-- The text that a tag is, if it is one. -/
def text? (t : Tag) : Option String :=
  String.fromUTF8? t.bytes.toByteArray

/-- What the addresses of the core types have in common. -/
def coreAddress : String := "tag:yaml.org,2002:"

/-- The tag of a core type of YAML. -/
def core (name : String) : Tag := ofText (coreAddress ++ name)

/-- Whether a tag starts with an exclamation mark. -/
def isLocal (t : Tag) : Bool :=
  t.bytes.head?.any (·.toNat == '!'.toNat)

/-- A text without the exclamation mark at its start, unless it is nothing else. -/
def dropBang : List Char → List Char
  | ['!'] => ['!']
  | '!' :: cs => cs
  | cs => cs

/-- The local name of a tag: what follows its exclamation mark. -/
def localName? (t : Tag) : Option String :=
  if t.isLocal then t.text?.map fun s => String.ofList (dropBang (dropBang s.toList))
  else none

/-! ### Percent escapes -/

/-- The number of bytes in the encoding of a character whose first byte is `b`. -/
def encodedWidth (b : Nat) : Option Nat :=
  if b < 0x80 then some 1
  else if 0xC0 ≤ b ∧ b < 0xE0 then some 2
  else if 0xE0 ≤ b ∧ b < 0xF0 then some 3
  else if 0xF0 ≤ b ∧ b < 0xF8 then some 4
  else none

/-- The bytes of ASCII characters with their percent escapes resolved, inside an encoded
character of which `pending` bytes are still to come. -/
def unescapeFrom (pending : Nat) : List Char → Option (List UInt8)
  | [] => if pending = 0 then some [] else none
  | '%' :: a :: b :: cs =>
    if digitValue a < 16 ∧ digitValue b < 16 then do
      let byte := digitValue a * 16 + digitValue b
      let pending ←
        match pending with
        | 0 => (encodedWidth byte).map (· - 1)
        | pending + 1 => if 0x80 ≤ byte ∧ byte < 0xC0 then some pending else none
      (byte.toUInt8 :: ·) <$> unescapeFrom pending cs
    else none
  | c :: cs =>
    if pending ≠ 0 ∨ c = '%' then none
    else (c.toNat.toUInt8 :: ·) <$> unescapeFrom 0 cs

/-- The bytes of a tag, or of a part of one, as it is written. -/
def unescape? (cs : List Char) : Option (List UInt8) :=
  (unescapeFrom 0 cs).map (·.takeWhile (· != 0))

end Tag

end AgentPipeline.Yaml
