import Playbook.Yaml.Token.Scalar
import Playbook.Yaml.Token.Tag

/-! A document as a list of tokens. Indentation becomes tokens that open and close collections, and
what turns out to be a key, because a colon follows it on its line, gets a token in front. -/

namespace Playbook.Yaml

/-- A token that may turn out to be the start of a key. -/
structure Candidate where
  required : Bool
  position : Nat
  line : Nat
  column : Nat
  offset : Nat

structure Lexer where
  tokens : Array Token
  /-- The column of the innermost block collection, or -1 outside of all. -/
  indent : Int
  outer : List Int
  candidate : Option Candidate
  around : List (Option Candidate)
  keyAllowed : Bool

namespace Lexer

def start : Lexer := ⟨#[], -1, [], none, [], true⟩

def inFlow (x : Lexer) : Bool := !x.around.isEmpty

def push (x : Lexer) (t : Token) : Lexer := { x with tokens := x.tokens.push t }

def insertAt (x : Lexer) (position : Nat) (ts : List Token) : Lexer :=
  { x with
    tokens := x.tokens.extract 0 position ++ ts.toArray ++ x.tokens.extract position x.tokens.size }

def allowKey (x : Lexer) (keyAllowed : Bool) : Lexer := { x with keyAllowed }

def dropCandidate? (x : Lexer) : Option Lexer :=
  if x.candidate.any (·.required) then none else some { x with candidate := none }

/-- A key must end on the line on which it began, within 1024 bytes. -/
def isStale (g : Glyph) (c : Candidate) : Bool := c.line < g.line || c.offset + 1024 < g.offset

def dropStale? (x : Lexer) (g : Glyph) : Option Lexer :=
  let stale (c : Option Candidate) := c.any (isStale g)
  let lost (c : Option Candidate) := c.any fun c => isStale g c && c.required
  if lost x.candidate || x.around.any lost then none
  else
    let keep (c : Option Candidate) := if stale c then none else c
    some { x with candidate := keep x.candidate, around := x.around.map keep }

def saveCandidate? (x : Lexer) (g : Glyph) : Option Lexer :=
  if x.keyAllowed then do
    let required := !x.inFlow && x.indent == (g.column : Int)
    let x ← x.dropCandidate?
    return { x with candidate := some ⟨required, x.tokens.size, g.line, g.column, g.offset⟩ }
  else some x

def openBlock (x : Lexer) (column : Nat) (position : Nat) (t : Token) : Lexer :=
  if x.inFlow || (column : Int) ≤ x.indent then x
  else { x.insertAt position [t] with indent := column, outer := x.indent :: x.outer }

def closeBlocks (x : Lexer) (column : Int) : Lexer :=
  if x.inFlow then x
  else
    let rec close (tokens : Array Token) (indent : Int) : List Int → Lexer
      | [] => { x with tokens, indent, outer := [] }
      | i :: r =>
        if column < indent then close (tokens.push .blockEnd) i r
        else { x with tokens, indent, outer := i :: r }
    close x.tokens x.indent x.outer

def edge? (x : Lexer) (t : Token) : Option Lexer := do
  let x ← (x.closeBlocks (-1)).dropCandidate?
  return (x.allowKey false).push t

def openFlow? (x : Lexer) (g : Glyph) (t : Token) : Option Lexer := do
  let x ← x.saveCandidate? g
  return ({ x with candidate := none, around := x.candidate :: x.around }.allowKey true).push t

def closeFlow? (x : Lexer) (t : Token) : Option Lexer := do
  let x ← x.dropCandidate?
  let x := match x.around with
    | [] => x
    | c :: r => { x with candidate := c, around := r }
  return (x.allowKey false).push t

def comma? (x : Lexer) : Option Lexer := do
  return ((← x.dropCandidate?).allowKey true).push .comma

/-- The hyphen of an item or the question mark of a key, which begin entries of a block. -/
def entry? (x : Lexer) (g : Glyph) (collection t : Token) (keyAllowed : Bool) : Option Lexer := do
  if !x.inFlow && !x.keyAllowed then none
  else
    let x ← (x.openBlock g.column x.tokens.size collection).dropCandidate?
    return (x.allowKey keyAllowed).push t

/-- The colon after a key. Without a candidate before it the key is empty. -/
def value? (x : Lexer) (g : Glyph) : Option Lexer :=
  match x.candidate with
  | some c =>
    let x := (x.insertAt c.position [.key]).openBlock c.column c.position .blockMapping
    some (({ x with candidate := none }.allowKey false).push .value)
  | none =>
    if !x.inFlow && !x.keyAllowed then none
    else
      let x := x.openBlock g.column x.tokens.size .blockMapping
      some ((x.allowKey !x.inFlow).push .value)

def word? (x : Lexer) (g : Glyph) (t : Token) : Option Lexer := do
  return ((← x.saveCandidate? g).allowKey false).push t

end Lexer

/-- Passes over blanks, comments, line breaks and a byte order mark at the start of a line; a new
line of a block may begin with a key. Tabs count as blanks only where they cannot be taken for
indentation. -/
def skipGap (inFlow keyAllowed inComment : Bool) : List Glyph → Bool × List Glyph
  | [] => (keyAllowed, [])
  | g :: r =>
    if g.isBreak then skipGap inFlow (keyAllowed || !inFlow) false r
    else if g.isEnd then (keyAllowed, g :: r)
    else if inComment then skipGap inFlow keyAllowed true r
    else if g.column = 0 && g.char = '\ufeff' then skipGap inFlow keyAllowed false r
    else if g.char = ' ' || (g.char = '\t' && (inFlow || !keyAllowed)) then
      skipGap inFlow keyAllowed false r
    else if g.char = '#' then skipGap inFlow keyAllowed true r
    else (keyAllowed, g :: r)

def startsPlain (inFlow : Bool) (g : Glyph) (r : List Glyph) : Bool :=
  if g.char = '-' then !nextIs (fun c => c = ' ' || c = '\t') r
  else if g.char = '?' || g.char = ':' then !inFlow && !atGap r
  else !g.isBlank && !",[]\x7b\x7d#&*!|>'\"%@`".toList.contains g.char

def lexOne? (x : Lexer) (g : Glyph) (r : List Glyph) : Option (Lexer × List Glyph) :=
  let gs := g :: r
  let inFlow := x.inFlow
  if g.column = 0 && g.char = '%' then do
    let x ← (x.closeBlocks (-1)).dropCandidate?
    let (t, rest) ← directive? r
    return ((x.allowKey false).push t, rest)
  else if atMarker '-' gs then do return (← x.edge? .documentStart, r.drop 2)
  else if atMarker '.' gs then do return (← x.edge? .documentEnd, r.drop 2)
  else if g.char = '[' then do return (← x.openFlow? g .flowSequence, r)
  else if g.char = '\x7b' then do return (← x.openFlow? g .flowMapping, r)
  else if g.char = ']' then do return (← x.closeFlow? .flowSequenceEnd, r)
  else if g.char = '\x7d' then do return (← x.closeFlow? .flowMappingEnd, r)
  else if g.char = ',' then do return (← x.comma?, r)
  else if g.char = '-' && atGap r then do
    return (← x.entry? g .blockSequence .item true, r)
  else if g.char = '?' && (inFlow || atGap r) then do
    return (← x.entry? g .blockMapping .key !inFlow, r)
  else if g.char = ':' && (inFlow || atGap r) then do return (← x.value? g, r)
  else if g.char = '*' then do
    let (name, rest) ← name? r
    return (← x.word? g (.alias name), rest)
  else if g.char = '&' then do
    let (name, rest) ← name? r
    return (← x.word? g (.anchor name), rest)
  else if g.char = '!' then do
    let (t, rest) ← tag? inFlow gs
    return (← x.word? g t, rest)
  else if (g.char = '|' || g.char = '>') && !inFlow then do
    let x ← x.dropCandidate?
    let folded := g.char = '>'
    let (text, rest) ← blockScalar? folded x.indent r
    return ((x.allowKey true).push (.scalar text (if folded then .folded else .literal)), rest)
  else if g.char = '\'' then do
    let (text, rest) ← singleQuotedScalar [] .none r
    return (← x.word? g (.scalar text .quoted), rest)
  else if g.char = '"' then do
    let (text, rest) ← doubleQuotedScalar [] .none .outside r
    return (← x.word? g (.scalar text .quoted), rest)
  else if startsPlain inFlow g r then do
    let (text, lineBroken, rest) ← plainScalar inFlow (x.indent + 1) [] .none gs
    let x ← x.word? g (.scalar text .plain)
    return (x.allowKey lineBroken, rest)
  else none

def lex? (x : Lexer) (gs : List Glyph) : Option (List Token) :=
  match skipGap x.inFlow x.keyAllowed false gs with
  | (_, []) => none
  | (keyAllowed, g :: r) =>
    match (x.allowKey keyAllowed).dropStale? g with
    | none => none
    | some x =>
      let x := x.closeBlocks g.column
      if g.isEnd then
        ((x.closeBlocks (-1)).dropCandidate?).map fun x => x.tokens.toList
      else
        match lexOne? x g r with
        | none => none
        | some (x, rest) =>
          if rest.length < gs.length then lex? x rest else none
termination_by gs.length

def tokens? (text : String) : Option (List Token) := (glyphs? text).bind (lex? .start)

end Playbook.Yaml
