import Playbook.Value
import Playbook.Text.Quoted

/-! Tags as bytes. A document writes a byte that it cannot show as a percent sign and two
hexadecimal digits, so that a tag need not be a text. -/

namespace Playbook.Yaml

abbrev Tag := List UInt8

namespace Tag

def ofText (s : String) : Tag := s.toUTF8.toList

def untilNull (t : Tag) : Tag := t.takeWhile (· != 0)

def core (name : String) : Tag := ofText ("tag:yaml.org,2002:" ++ name)

def isOwn (t : Tag) : Bool := t.head? == some '!'.toUInt8

/-- The name of a tag of the document's own, if it is a text. A lone mark is its own name. -/
def name? (t : Tag) : Option String :=
  if !t.isOwn then none
  else String.fromUTF8? ⟨(if t.length = 1 then t else t.drop 1).toArray⟩

def ofValueTag (tag : String) : Tag :=
  let name := Value.bareTag tag
  untilNull (ofText (if name.startsWith "!" then name else "!" ++ name))

def byteText (b : UInt8) : String :=
  let c := Char.ofNat b.toNat
  if c.isAlphanum || "-_;/?:@&=+$,.~*'()[]".toList.contains c then c.toString
  else "%" ++ (Text.hexPadded 2 b.toNat).toUpper

/-- The form of a tag of the document's own: the mark, and the name with escapes. A lone mark stands
in angle brackets. -/
def text (t : Tag) : String :=
  if t.length = 1 then "!<" ++ String.join (t.map byteText) ++ ">"
  else "!" ++ String.join ((t.drop 1).map byteText)

end Tag
end Playbook.Yaml
