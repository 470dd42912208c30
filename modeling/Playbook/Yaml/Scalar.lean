import Playbook.Yaml.Plain
import Playbook.Text.Quoted

/-! The written forms of a text: plain, in single quotes, in double quotes or as literal lines. -/

namespace Playbook.Yaml

def isBreak (c : Char) : Bool :=
  c = '\n' || c = '\r' || c = '\u0085' || c = '\u2028' || c = '\u2029'

def isShown (c : Char) : Bool :=
  let n := c.toNat
  n == 0x0A || (0x20 ≤ n && n ≤ 0x7E) || (0xA0 ≤ n && n ≤ 0xD7FF) ||
    (0xE000 ≤ n && n ≤ 0xFFFD && n != 0xFEFF) || 0x10000 ≤ n

def endsWord : List Char → Bool
  | [] => true
  | c :: _ => c = ' ' || c = '\t' || c = '\x00' || isBreak c

def hasPair (p q : Char → Bool) : List Char → Bool
  | a :: b :: r => (p a && q b) || hasPair p q (b :: r)
  | _ => false

def startsWithIndicator : List Char → Bool
  | '-' :: '-' :: '-' :: _ => true
  | '.' :: '.' :: '.' :: _ => true
  | c :: r =>
    "#,[]{}&*!|>'\"%@`".toList.contains c || (['-', '?', ':'].contains c && endsWord r)
  | [] => false

def hasInnerIndicator : List Char → Bool
  | a :: b :: r =>
    (b = ':' && endsWord r) || (b = '#' && endsWord [a]) || hasInnerIndicator (b :: r)
  | _ => false

inductive Style where
  | plain
  | single
  | double
  | literal
deriving DecidableEq

namespace Style

def allowsSingle (s : List Char) : Bool :=
  s.all isShown && !hasPair isBreak (· = ' ') s && !hasPair (· = ' ') isBreak s

def allowsLiteral (s : List Char) : Bool :=
  s.all isShown && s.getLast? != some ' ' && !hasPair (· = ' ') isBreak s

def allowsPlain (s : List Char) : Bool :=
  allowsSingle s && s.head? != some ' ' && s.getLast? != some ' ' && !s.any isBreak &&
    !startsWithIndicator s && !hasInnerIndicator s

/-- Texts with a line feed are written as literal lines, those that would read as something else in
single quotes, all others plain; a style that does not allow the text gives way to the next. -/
def ofText (s : String) : Style :=
  let cs := s.toList
  let quotedOrDouble := if allowsSingle cs then .single else .double
  if cs.contains '\n' then if allowsLiteral cs then .literal else .double
  else if Plain.read s != .text || Plain.isPaddedDigits s then quotedOrDouble
  else if allowsPlain cs then .plain
  else quotedOrDouble

end Style

def blanks (n : Nat) : String := String.ofList (List.replicate n ' ')

def indentAfterBreaks (indent : Nat) (afterBreak : Bool) : List Char → List String
  | [] => []
  | c :: r =>
    if isBreak c then c.toString :: indentAfterBreaks indent true r
    else
      (if afterBreak then blanks indent else "") :: c.toString :: indentAfterBreaks indent false r

def escapeChar (c : Char) : String :=
  match c with
  | '\x00' => "\\0"
  | '\x07' => "\\a"
  | '\x08' => "\\b"
  | '\t' => "\\t"
  | '\n' => "\\n"
  | '\x0b' => "\\v"
  | '\x0c' => "\\f"
  | '\r' => "\\r"
  | '\x1b' => "\\e"
  | '"' => "\\\""
  | '\\' => "\\\\"
  | '\u0085' => "\\N"
  | '\u00a0' => "\\_"
  | '\u2028' => "\\L"
  | '\u2029' => "\\P"
  | c =>
    let digits (width : Nat) := (Text.hexPadded width c.toNat).toUpper
    if c.toNat ≤ 0xFF then "\\x" ++ digits 2
    else if c.toNat ≤ 0xFFFF then "\\u" ++ digits 4
    else "\\U" ++ digits 8

def doubleQuoted (s : String) : String :=
  let form (c : Char) :=
    if !isShown c || isBreak c || c = '"' || c = '\\' then escapeChar c else c.toString
  "\"" ++ String.join (s.toList.map form) ++ "\""

def singleQuoted (indent : Nat) (s : String) : String :=
  let cs := s.toList
  let doubled := cs.flatMap fun c => if c = '\'' then ['\'', '\''] else [c]
  "'" ++ String.join (indentAfterBreaks indent false doubled) ++
    (if cs.getLast?.any isBreak then blanks indent else "") ++ "'"

/-- How many line breaks at the end of literal lines count: none after `-`, all after `+`. -/
def chomping (s : List Char) : String :=
  match s.reverse with
  | c :: d :: _ => if !isBreak c then "-" else if isBreak d then "+" else ""
  | [c] => if isBreak c then "+" else "-"
  | [] => "-"

def literal (indent : Nat) (s : String) : String :=
  let cs := s.toList
  let hint := if cs.head?.any fun c => c = ' ' || isBreak c then "2" else ""
  "|" ++ hint ++ chomping cs ++ "\n" ++ String.join (indentAfterBreaks indent true cs)

def scalar (indent : Nat) (s : String) : String :=
  match Style.ofText s with
  | .plain => s
  | .single => singleQuoted (indent + 2) s
  | .double => doubleQuoted s
  | .literal => literal (indent + 2) s

end Playbook.Yaml
