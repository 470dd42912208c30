import Playbook.Yaml.Scalar

/-! Characters of a document with their places. A null character, which no document holds, marks the
end. -/

namespace Playbook.Yaml

structure Glyph where
  char : Char
  line : Nat
  column : Nat
  /-- The number of bytes before it; places on one line are compared by it. -/
  offset : Nat
deriving Inhabited

def isReadable (c : Char) : Bool :=
  let n := c.toNat
  n == 0x09 || n == 0x0A || n == 0x0D || (0x20 ≤ n && n ≤ 0x7E) || n == 0x85 ||
    (0xA0 ≤ n && n ≤ 0xD7FF) || (0xE000 ≤ n && n ≤ 0xFFFD) || 0x10000 ≤ n

/-- Every line break but the line and paragraph separators as a line feed. -/
def unifyBreaks : List Char → List Char
  | '\r' :: '\n' :: r => '\n' :: unifyBreaks r
  | c :: r => (if c = '\r' || c = '\u0085' then '\n' else c) :: unifyBreaks r
  | [] => []

def locate (line column offset : Nat) : List Char → List Glyph
  | [] => [⟨'\x00', line, column, offset⟩]
  | c :: r =>
    ⟨c, line, column, offset⟩ ::
      if isBreak c then locate (line + 1) 0 (offset + c.utf8Size) r
      else locate line (column + 1) (offset + c.utf8Size) r

def glyphs? (text : String) : Option (List Glyph) :=
  if text.toList.all isReadable then some (locate 0 0 0 (unifyBreaks text.toList)) else none

namespace Glyph

def isBlank (g : Glyph) : Bool := g.char = ' ' || g.char = '\t'

def isBreak (g : Glyph) : Bool := Yaml.isBreak g.char

def isEnd (g : Glyph) : Bool := g.char = '\x00'

def endsLine (g : Glyph) : Bool := g.isBreak || g.isEnd

end Glyph

def atGap : List Glyph → Bool
  | [] => true
  | g :: _ => g.isBlank || g.endsLine

def nextIs (p : Char → Bool) : List Glyph → Bool
  | [] => false
  | g :: _ => p g.char

/-- Three hyphens or dots at the start of a line, by which documents begin and end. -/
def atMarker (c : Char) : List Glyph → Bool
  | a :: b :: d :: r => a.column = 0 && a.char = c && b.char = c && d.char = c && atGap r
  | _ => false

def atDocumentEdge (gs : List Glyph) : Bool := atMarker '-' gs || atMarker '.' gs

def spanChars (p : Char → Bool) : List Glyph → List Char × List Glyph
  | [] => ([], [])
  | g :: r =>
    if p g.char && !g.isEnd then
      let (cs, rest) := spanChars p r
      (g.char :: cs, rest)
    else ([], g :: r)

def dropBlanks (gs : List Glyph) : List Glyph := gs.dropWhile Glyph.isBlank

end Playbook.Yaml
