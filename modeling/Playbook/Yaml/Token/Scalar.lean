import Playbook.Yaml.Glyph
import Playbook.Yaml.Token.Basic

/-! Scalars as tokens: plain and quoted ones, which may run over several lines, and blocks of
literal or folded lines. Texts are gathered in reverse. A malformed scalar gives no token. -/

namespace Playbook.Yaml

inductive Gap where
  | none
  | blanks (reversed : List Char)
  /-- The first line break, if it counts, and those after it. -/
  | breaks (first : Option Char) (reversed : List Char)

namespace Gap

def isBreaks : Gap → Bool
  | breaks .. => true
  | _ => false

def isNone : Gap → Bool
  | none => true
  | _ => false

/-- The gap as it stands in the text, in reverse: a lone line feed is folded into a space. -/
def reversedText : Gap → List Char
  | none => []
  | blanks cs => cs
  | breaks (some '\n') [] => [' ']
  | breaks (some '\n') cs => cs
  | breaks first cs => cs ++ first.toList

def addBlank (c : Char) : Gap → Gap
  | none => blanks [c]
  | blanks cs => blanks (c :: cs)
  | g => g

def addBreak (c : Char) : Gap → Gap
  | breaks first cs => breaks first (c :: cs)
  | _ => breaks (some c) []

end Gap

def ofReversed (cs : List Char) : String := String.ofList cs.reverse

def plainScalar (inFlow : Bool) (indent : Int) (text : List Char) (gap : Gap) :
    List Glyph → Option (String × Bool × List Glyph)
  | [] => some (ofReversed text, gap.isBreaks, [])
  | g :: r =>
    let finished := some (ofReversed text, gap.isBreaks, g :: r)
    if g.isBreak then plainScalar inFlow indent text (gap.addBreak g.char) r
    else if g.isBlank then
      if gap.isBreaks && g.char = '\t' && (g.column : Int) < indent then Option.none
      else plainScalar inFlow indent text (gap.addBlank g.char) r
    else if g.isEnd || atDocumentEdge (g :: r) then finished
    else if !gap.isNone && g.char = '#' then finished
    else if gap.isBreaks && !inFlow && (g.column : Int) < indent then finished
    else if inFlow && g.char = ':' && nextIs (",?[]\x7b\x7d".toList.contains ·) r then Option.none
    else if (g.char = ':' && atGap r) || (inFlow && ",[]\x7b\x7d".toList.contains g.char) then
      finished
    else plainScalar inFlow indent (g.char :: (gap.reversedText ++ text)) .none r

def singleQuotedScalar (text : List Char) (gap : Gap) : List Glyph → Option (String × List Glyph)
  | [] => Option.none
  | g :: r =>
    if g.isBreak then singleQuotedScalar text (gap.addBreak g.char) r
    else if g.isBlank then singleQuotedScalar text (gap.addBlank g.char) r
    else if g.isEnd || atDocumentEdge (g :: r) then Option.none
    else
      let text := gap.reversedText ++ text
      if g.char = '\'' then
        match r with
        | h :: r' =>
          if h.char = '\'' then singleQuotedScalar ('\'' :: text) .none r'
          else some (ofReversed text, h :: r')
        | [] => some (ofReversed text, [])
      else singleQuotedScalar (g.char :: text) .none r

def escape? : Char → Option (Char ⊕ Nat)
  | '0' => some (.inl '\x00')
  | 'a' => some (.inl '\x07')
  | 'b' => some (.inl '\x08')
  | 't' => some (.inl '\t')
  | '\t' => some (.inl '\t')
  | 'n' => some (.inl '\n')
  | 'v' => some (.inl '\x0b')
  | 'f' => some (.inl '\x0c')
  | 'r' => some (.inl '\r')
  | 'e' => some (.inl '\x1b')
  | ' ' => some (.inl ' ')
  | '"' => some (.inl '"')
  | '/' => some (.inl '/')
  | '\\' => some (.inl '\\')
  | 'N' => some (.inl '\u0085')
  | '_' => some (.inl '\u00a0')
  | 'L' => some (.inl '\u2028')
  | 'P' => some (.inl '\u2029')
  | 'x' => some (.inr 2)
  | 'u' => some (.inr 4)
  | 'U' => some (.inr 8)
  | _ => Option.none

def charOfCode? (n : Nat) : Option Char :=
  if n.isValidChar then some (Char.ofNat n) else Option.none

inductive EscapeState where
  | outside
  | backslash
  | digits (left value : Nat)

def doubleQuotedScalar (text : List Char) (gap : Gap) (state : EscapeState) :
    List Glyph → Option (String × List Glyph)
  | [] => Option.none
  | g :: r =>
    match state with
    | .digits left value =>
      match Plain.digit? 16 g.char with
      | Option.none => Option.none
      | some d =>
        let value := 16 * value + d
        if left ≤ 1 then
          match charOfCode? value with
          | some c => doubleQuotedScalar (c :: text) .none .outside r
          | Option.none => Option.none
        else doubleQuotedScalar text .none (.digits (left - 1) value) r
    | .backslash =>
      if g.isBreak then doubleQuotedScalar text (.breaks Option.none []) .outside r
      else match escape? g.char with
        | some (.inl c) => doubleQuotedScalar (c :: text) .none .outside r
        | some (.inr n) => doubleQuotedScalar text .none (.digits n 0) r
        | Option.none => Option.none
    | .outside =>
      if g.isBreak then doubleQuotedScalar text (gap.addBreak g.char) .outside r
      else if g.isBlank then doubleQuotedScalar text (gap.addBlank g.char) .outside r
      else if g.isEnd || atDocumentEdge (g :: r) then Option.none
      else
        let text := gap.reversedText ++ text
        if g.char = '"' then some (ofReversed text, r)
        else if g.char = '\\' then doubleQuotedScalar text .none .backslash r
        else doubleQuotedScalar (g.char :: text) .none .outside r

inductive Chomping where
  | strip
  | clip
  | keep
deriving DecidableEq

structure BlockHeader where
  chomping : Chomping
  increment : Option Nat

def chomping? (g : Glyph) : Option Chomping :=
  if g.char = '+' then some .keep else if g.char = '-' then some .strip else Option.none

def increment? (g : Glyph) : Option Nat :=
  if g.char.isDigit then some (g.char.toNat - '0'.toNat) else Option.none

def blockHeader? : List Glyph → Option (BlockHeader × List Glyph)
  | a :: b :: r =>
    let check (h : BlockHeader) (rest : List Glyph) :=
      if h.increment = some 0 then Option.none else some (h, rest)
    match chomping? a, increment? a with
    | some c, _ =>
      match increment? b with
      | some n => check ⟨c, some n⟩ r
      | Option.none => some (⟨c, Option.none⟩, b :: r)
    | _, some n =>
      match chomping? b with
      | some c => check ⟨c, some n⟩ r
      | Option.none => check ⟨.clip, some n⟩ (b :: r)
    | _, _ => some (⟨.clip, Option.none⟩, a :: b :: r)
  | r => some (⟨.clip, Option.none⟩, r)

structure BlockText where
  text : List Char
  lineBreak : List Char
  breaks : List Char
  startedBlank : Bool

namespace BlockText

/-- Joins the next line to the text. In a folded block one break between two lines that do not begin
with a blank becomes a space, and of several the first is dropped. -/
def join (b : BlockText) (folded startsBlank : Bool) : BlockText :=
  let text :=
    if folded && b.lineBreak = ['\n'] && !b.startedBlank && !startsBlank then
      if b.breaks.isEmpty then ' ' :: b.text else b.breaks ++ b.text
    else b.breaks ++ b.lineBreak ++ b.text
  ⟨text, [], [], startsBlank⟩

def finish (b : BlockText) : Chomping → String
  | .strip => ofReversed b.text
  | .clip => ofReversed (b.lineBreak ++ b.text)
  | .keep => ofReversed (b.breaks ++ b.lineBreak ++ b.text)

end BlockText

/-- The lines of a block. Without a given indentation that of the first line that is not empty
counts, though it must exceed that of the parent. -/
def blockLines (folded : Bool) (chomping : Chomping) (least : Nat) (indent : Option Nat)
    (widest : Nat) (inLine : Bool) (b : BlockText) : List Glyph → Option (String × List Glyph)
  | [] => some (b.finish chomping, [])
  | g :: r =>
    if inLine then
      if g.isEnd then some (b.finish chomping, g :: r)
      else if g.isBreak then
        blockLines folded chomping least indent widest false { b with lineBreak := [g.char] } r
      else
        blockLines folded chomping least indent widest true { b with text := g.char :: b.text } r
    else
      let before := indent.all fun n => decide (g.column < n)
      if before && g.char = ' ' then blockLines folded chomping least indent widest false b r
      else
        let widest := max widest g.column
        if before && g.char = '\t' then Option.none
        else if g.isBreak then
          blockLines folded chomping least indent widest false
            { b with breaks := g.char :: b.breaks } r
        else
          let width := indent.getD (max widest least)
          if g.column = width && !g.isEnd then
            let b := b.join folded g.isBlank
            blockLines folded chomping least (some width) widest true
              { b with text := g.char :: b.text } r
          else some (b.finish chomping, g :: r)

def blockScalar? (folded : Bool) (indent : Int) (gs : List Glyph) :
    Option (String × List Glyph) := do
  let (header, rest) ← blockHeader? gs
  let rest := dropBlanks rest
  let rest := if nextIs (· = '#') rest then rest.dropWhile fun g => !g.endsLine else rest
  let start : BlockText := ⟨[], [], [], false⟩
  let given := header.increment.map fun n => indent.toNat + n
  match rest with
  | g :: r =>
    if g.isBreak then
      blockLines folded header.chomping (max (indent + 1).toNat 1) given 0 false start r
    else if g.isEnd then
      blockLines folded header.chomping (max (indent + 1).toNat 1) given 0 false start (g :: r)
    else Option.none
  | [] => Option.none

end Playbook.Yaml
