import Playbook.Yaml.Glyph
import Playbook.Yaml.Token.Basic

/-! Anchors, aliases, tags and directives as tokens. -/

namespace Playbook.Yaml

def isNameChar (c : Char) : Bool := c.isAlphanum || c = '_' || c = '-'

def name? (gs : List Glyph) : Option (String × List Glyph) :=
  let (name, rest) := spanChars isNameChar gs
  if name.isEmpty || !(atGap rest || nextIs ("?:,]\x7d%@`".toList.contains ·) rest) then none
  else some (String.ofList name, rest)

def isUriChar (verbatim : Bool) (c : Char) : Bool :=
  isNameChar c || ";/?:@&=+$.!~*'()".toList.contains c || (verbatim && ",[]".toList.contains c)

def following? (lead : UInt8) : Option Nat :=
  if lead < 0x80 then some 0
  else if lead < 0xC0 then none
  else if lead < 0xE0 then some 1
  else if lead < 0xF0 then some 2
  else if lead < 0xF8 then some 3
  else none

def isFollowing (b : UInt8) : Bool := 0x80 ≤ b && b < 0xC0

/-- The bytes of a tag up to the first character that no tag holds, where `left` more bytes of an
escaped character have to come first. Escapes are a percent sign and two hexadecimal digits, and
those of one character stand together; the character need not exist. -/
def uri (verbatim : Bool) (left : Nat) : List Glyph → Option (List UInt8 × List Glyph)
  | [] => if left = 0 then some ([], []) else none
  | g :: r =>
    if g.char = '%' then
      match r with
      | a :: b :: r => do
        let byte := .ofNat (16 * (← Plain.digit? 16 a.char) + (← Plain.digit? 16 b.char))
        let left ←
          if left = 0 then following? byte
          else if isFollowing byte then some (left - 1) else none
        let (bytes, rest) ← uri verbatim left r
        return (byte :: bytes, rest)
      | _ => none
    else if left != 0 then none
    else if isUriChar verbatim g.char then do
      let (bytes, rest) ← uri verbatim 0 r
      return (.ofNat g.char.toNat :: bytes, rest)
    else some ([], g :: r)

def handle? (gs : List Glyph) : Option (List Char × List Glyph) :=
  match gs with
  | g :: r =>
    if g.char != '!' then none
    else
      let (name, rest) := spanChars isNameChar r
      match rest with
      | h :: r' =>
        if h.char = '!' then some ('!' :: name ++ ['!'], r') else some ('!' :: name, rest)
      | [] => some ('!' :: name, rest)
  | [] => none

/-- A tag: verbatim in angle brackets, or a handle with a suffix. A mark without a suffix has no
handle, and is itself the suffix. -/
def tag? (inFlow : Bool) (gs : List Glyph) : Option (Token × List Glyph) := do
  let (token, rest) ←
    match gs with
    | a :: b :: r =>
      if b.char = '<' then do
        let (suffix, rest) ← uri true 0 r
        if suffix.isEmpty || !nextIs (· = '>') rest then none
        else some (Token.tag "" (Tag.untilNull suffix), rest.drop 1)
      else do
        let (handle, rest) ← handle? (a :: b :: r)
        if 1 < handle.length && handle.getLast? = some '!' then
          let (suffix, rest) ← uri false 0 rest
          if suffix.isEmpty then none
          else some (Token.tag (String.ofList handle) (Tag.untilNull suffix), rest)
        else
          let (more, rest) ← uri false 0 rest
          let suffix := Tag.untilNull (Tag.ofText (String.ofList (handle.drop 1)) ++ more)
          if suffix.isEmpty then some (Token.tag "" (Tag.ofText "!"), rest)
          else some (Token.tag "!" suffix, rest)
    | _ => none
  if atGap rest || (inFlow && nextIs (· = ',') rest) then some (token, rest) else none

def endOfDirective? (gs : List Glyph) : Option (List Glyph) :=
  let rest := dropBlanks gs
  let rest := if nextIs (· = '#') rest then rest.dropWhile fun g => !g.endsLine else rest
  match rest with
  | [] => some []
  | g :: r => if g.isBreak then some r else if g.isEnd then some (g :: r) else none

def versionNumber? (gs : List Glyph) : Option (Nat × List Glyph) :=
  let (digits, rest) := spanChars Char.isDigit gs
  if digits.isEmpty || 9 < digits.length then none else some (Decimal.valueOf digits, rest)

def version? (gs : List Glyph) : Option (Token × List Glyph) := do
  let (major, rest) ← versionNumber? (dropBlanks gs)
  if !nextIs (· = '.') rest then none
  else
    let (minor, rest) ← versionNumber? (rest.drop 1)
    return (.version major minor, rest)

def tagHandle? (gs : List Glyph) : Option (Token × List Glyph) := do
  let (handle, rest) ← handle? (dropBlanks gs)
  let complete := handle = ['!'] || (1 < handle.length && handle.getLast? = some '!')
  if !complete || !nextIs (fun c => c = ' ' || c = '\t') rest then none
  else
    let (expansion, rest) ← uri true 0 (dropBlanks rest)
    if expansion.isEmpty || !atGap rest then none
    else return (.tagHandle (String.ofList handle) (Tag.untilNull expansion), rest)

def directive? (gs : List Glyph) : Option (Token × List Glyph) := do
  let (name, rest) := spanChars isNameChar gs
  let (token, rest) ←
    if !atGap rest then none
    else if name = "YAML".toList then version? rest
    else if name = "TAG".toList then tagHandle? rest
    else none
  return (token, ← endOfDirective? rest)

end Playbook.Yaml
