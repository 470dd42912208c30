import Playbook.Ordered.Map
import Playbook.Yaml.Token.Lexer

/-! Documents as trees of nodes, in which an alias stands for a node with an anchor. -/

namespace Playbook.Yaml

inductive Node where
  | scalar (tag : Option Tag) (form : Form) (text : String)
  | sequence (tag : Option Tag) (items : List Node)
  | mapping (tag : Option Tag) (entries : List (Node × Node))
  /-- Stands for the node whose anchor has the number. -/
  | alias (number : Nat)
deriving Inhabited

/-- The nodes with an anchor. An anchor's number is how many names are known before it, so that an
anchor that is given again shares its number with the next new name. -/
structure Anchors where
  numbers : OrderedMap String Nat
  places : Array Nat
  nodes : Array Node

namespace Node

def empty : Node := .scalar none .plain ""

mutual

/-- The number of scalars and aliases and of the beginnings and ends of collections. -/
def size : Node → Nat
  | .scalar .. | .alias _ => 1
  | .sequence _ items => itemsSize items + 2
  | .mapping _ entries => entriesSize entries + 2

def itemsSize : List Node → Nat
  | [] => 0
  | n :: ns => size n + itemsSize ns

def entriesSize : List (Node × Node) → Nat
  | [] => 0
  | (k, v) :: es => size k + size v + entriesSize es

end
end Node

namespace Anchors

def empty : Anchors := ⟨.empty, #[], #[]⟩

def enter (a : Anchors) (name : String) : Anchors :=
  let number := a.numbers.size
  let place := a.nodes.size
  { numbers := a.numbers.insert name number
    places :=
      if number < a.places.size then a.places.setIfInBounds number place else a.places.push place
    nodes := a.nodes.push .empty }

def complete (a : Anchors) (place : Nat) (n : Node) : Anchors :=
  { a with nodes := a.nodes.setIfInBounds place n }

def find? (a : Anchors) (number : Nat) : Option Node :=
  a.places[number]?.bind (a.nodes[·]?)

end Anchors

structure Document where
  root : Node
  anchors : Anchors

namespace Node

/-- What a document has said so far: the expansions of tag handles, and its anchors. -/
structure Scope where
  handles : List (String × Tag)
  anchors : Anchors

def standardHandles : List (String × Tag) :=
  [("!", Tag.ofText "!"), ("!!", Tag.core "")]

/-- A step of reading: the node or other result, the rest of the tokens and the scope after it. -/
abbrev Reader (α : Type) := Scope → List Token → Option (α × Scope × List Token)

structure Properties where
  anchor : Option String
  tag : Option Tag

def expandTag? (c : Scope) (handle : String) (suffix : Tag) : Option Tag :=
  if handle.isEmpty then some suffix else (c.handles.lookup handle).map (· ++ suffix)

def properties? (c : Scope) : List Token → Option (Properties × List Token)
  | .anchor a :: .tag h s :: ts => (expandTag? c h s).map fun t => (⟨some a, some t⟩, ts)
  | .tag h s :: .anchor a :: ts => (expandTag? c h s).map fun t => (⟨some a, some t⟩, ts)
  | .anchor a :: ts => some (⟨some a, none⟩, ts)
  | .tag h s :: ts => (expandTag? c h s).map fun t => (⟨none, some t⟩, ts)
  | ts => some (⟨none, none⟩, ts)

namespace Scope

def enter (c : Scope) (anchor : Option String) : Scope :=
  match anchor with
  | some a => { c with anchors := c.anchors.enter a }
  | none => c

def complete (c : Scope) (anchor : Option String) (place : Nat) (n : Node) : Scope :=
  if anchor.isSome then { c with anchors := c.anchors.complete place n } else c

end Scope

/-- Where a node is missing before one of these tokens, it is empty. -/
def isMissing (before : List Token) : List Token → Bool
  | t :: _ => before.contains t
  | [] => true

mutual

/-- A node, in a block or in a flow collection. As the value of a key in a block it may be a
sequence that is not indented. -/
def node (block unindented : Bool) : Nat → Reader Node
  | 0, _, _ => none
  | _ + 1, c, .alias a :: ts => (c.anchors.numbers.get? a).map fun n => (.alias n, c, ts)
  | fuel + 1, c, ts => do
    let (p, ts) ← properties? c ts
    let place := c.anchors.nodes.size
    let c := c.enter p.anchor
    let finish (r : Node × Scope × List Token) := (r.1, r.2.1.complete p.anchor place r.1, r.2.2)
    let missing :=
      if p.anchor.isSome || p.tag.isSome then some (finish (.scalar p.tag .plain "", c, ts))
      else none
    match ts with
    | .scalar text form :: ts => return finish (.scalar p.tag form text, c, ts)
    | .flowSequence :: ts => finish <$> flowItems p.tag fuel true [] c ts
    | .flowMapping :: ts => finish <$> flowEntries p.tag fuel true [] c ts
    | .item :: rest =>
      if unindented then finish <$> looseItems p.tag fuel [] c (.item :: rest) else missing
    | .blockSequence :: rest =>
      if block then finish <$> blockItems p.tag fuel [] c rest else missing
    | .blockMapping :: rest =>
      if block then finish <$> blockEntries p.tag fuel [] c rest else missing
    | _ => missing

def blockItems (tag : Option Tag) : Nat → List Node → Reader Node
  | 0, _, _, _ => none
  | fuel + 1, items, c, .item :: ts =>
    if isMissing [.item, .blockEnd] ts then blockItems tag fuel (empty :: items) c ts
    else do
      let (n, c, ts) ← node true false fuel c ts
      blockItems tag fuel (n :: items) c ts
  | _ + 1, items, c, .blockEnd :: ts => some (.sequence tag items.reverse, c, ts)
  | _ + 1, _, _, _ => none

/-- The items of a sequence that is not indented below its key; any other token ends it. -/
def looseItems (tag : Option Tag) : Nat → List Node → Reader Node
  | 0, _, _, _ => none
  | fuel + 1, items, c, .item :: ts =>
    if isMissing [.item, .key, .value, .blockEnd] ts then
      looseItems tag fuel (empty :: items) c ts
    else do
      let (n, c, ts) ← node true false fuel c ts
      looseItems tag fuel (n :: items) c ts
  | _ + 1, items, c, ts => some (.sequence tag items.reverse, c, ts)

def blockEntries (tag : Option Tag) : Nat → List (Node × Node) → Reader Node
  | 0, _, _, _ => none
  | fuel + 1, entries, c, .key :: ts => do
    let (k, c, ts) ←
      if isMissing [.key, .value, .blockEnd] ts then some (empty, c, ts)
      else node true true fuel c ts
    match ts with
    | .value :: ts =>
      if isMissing [.key, .value, .blockEnd] ts then
        blockEntries tag fuel ((k, empty) :: entries) c ts
      else do
        let (v, c, ts) ← node true true fuel c ts
        blockEntries tag fuel ((k, v) :: entries) c ts
    | ts => blockEntries tag fuel ((k, empty) :: entries) c ts
  | _ + 1, entries, c, .blockEnd :: ts => some (.mapping tag entries.reverse, c, ts)
  | _ + 1, _, _, _ => none

/-- The items of a flow sequence. A key with its value is an item of one entry. -/
def flowItems (tag : Option Tag) : Nat → Bool → List Node → Reader Node
  | 0, _, _, _, _ => none
  | _ + 1, _, items, c, .flowSequenceEnd :: ts => some (.sequence tag items.reverse, c, ts)
  | fuel + 1, first, items, c, ts => do
    let ts ← match first, ts with
      | true, ts => some ts
      | false, .comma :: ts => some ts
      | false, _ => none
    match ts with
    | .flowSequenceEnd :: ts => some (.sequence tag items.reverse, c, ts)
    | .key :: ts =>
      let (k, c, ts) ←
        if isMissing [.value, .comma, .flowSequenceEnd] ts then some (empty, c, ts.drop 1)
        else node false false fuel c ts
      let (v, c, ts) ← flowValue .flowSequenceEnd fuel c ts
      flowItems tag fuel false (.mapping none [(k, v)] :: items) c ts
    | ts => do
      let (n, c, ts) ← node false false fuel c ts
      flowItems tag fuel false (n :: items) c ts

def flowEntries (tag : Option Tag) : Nat → Bool → List (Node × Node) → Reader Node
  | 0, _, _, _, _ => none
  | _ + 1, _, entries, c, .flowMappingEnd :: ts => some (.mapping tag entries.reverse, c, ts)
  | fuel + 1, first, entries, c, ts => do
    let ts ← match first, ts with
      | true, ts => some ts
      | false, .comma :: ts => some ts
      | false, _ => none
    match ts with
    | .flowMappingEnd :: ts => some (.mapping tag entries.reverse, c, ts)
    | .key :: ts =>
      let (k, c, ts) ←
        if isMissing [.value, .comma, .flowMappingEnd] ts then some (empty, c, ts)
        else node false false fuel c ts
      let (v, c, ts) ← flowValue .flowMappingEnd fuel c ts
      flowEntries tag fuel false ((k, v) :: entries) c ts
    | ts => do
      let (k, c, ts) ← node false false fuel c ts
      flowEntries tag fuel false ((k, empty) :: entries) c ts

def flowValue (close : Token) : Nat → Reader Node
  | 0, _, _ => none
  | fuel + 1, c, .value :: ts =>
    if isMissing [.comma, close] ts then some (empty, c, ts) else node false false fuel c ts
  | _ + 1, c, ts => some (empty, c, ts)

end

def directives? (seenVersion : Bool) (handles : List (String × Tag)) :
    List Token → Option (List (String × Tag) × List Token)
  | .version major minor :: ts =>
    if seenVersion || major != 1 || (minor != 1 && minor != 2) then none
    else directives? true handles ts
  | .tagHandle handle expansion :: ts =>
    if (handles.lookup handle).isSome then none
    else directives? seenVersion (handles ++ [(handle, expansion)]) ts
  | ts => some (handles, ts)

end Node

namespace Document

def empty : Document := ⟨.empty, .empty⟩

def content? (handles : List (String × Tag)) (ts : List Token) :
    Option (Document × List Token) :=
  match ts with
  | [] | .documentStart :: _ | .documentEnd :: _ | .version .. :: _ | .tagHandle .. :: _ =>
    some (empty, ts)
  | ts =>
    let scope := ⟨handles ++ Node.standardHandles, .empty⟩
    (Node.node true false (8 * ts.length + 8) scope ts).map fun r => (⟨r.1, r.2.1.anchors⟩, r.2.2)

def ofTokens? (ts : List Token) : Option Document := do
  let (d, rest) ← match ts with
    | [] => some (empty, [])
    | .documentStart :: _ | .version .. :: _ | .tagHandle .. :: _ => do
      let (handles, ts) ← Node.directives? false [] ts
      match ts with
      | .documentStart :: ts => content? handles ts
      | _ => none
    | .documentEnd :: _ => none
    | ts => content? [] ts
  if rest.all (· = .documentEnd) then some d else none

def read? (text : String) : Option Document := (tokens? text).bind ofTokens?

end Document
end Playbook.Yaml
