import Playbook.Yaml.Node

/-! Nodes as values, and as the parts of a record with known fields. -/

namespace Playbook.Yaml

/-- Reading a document. The state is how many aliases may still be followed. -/
abbrev Decoder (α : Type) := ReaderT Document (StateT Nat Option) α

namespace Decoder

def aliasesPerPart : Nat := 100

def run? {α : Type} (d : Document) (read : Node → Decoder α) : Option α :=
  (read d.root d (aliasesPerPart * d.root.size)).map Prod.fst

def spendAlias : Decoder Unit := do
  match ← get with
  | 0 => failure
  | left + 1 => set left

def ofOption {α : Type} : Option α → Decoder α
  | some a => pure a
  | none => failure

end Decoder

namespace Node

def followed : Node → Decoder Node
  | .alias number => do
    Decoder.spendAlias
    Decoder.ofOption ((← read).anchors.find? number)
  | n => pure n

def ownName? (tag : Option Tag) : Option String := tag.bind Tag.name?

def integerValue? (n : Int) : Option Value :=
  if -0x8000000000000000 ≤ n && n < 0x10000000000000000 then some (.integer n) else none

def plainValue? (text : String) : Option Value :=
  match Plain.read text with
  | .null => some .null
  | .bool b => some (.bool b)
  | .integer n => integerValue? n
  | .real x => some (.real x)
  | .text => some (.text text)

def untaggedValue? (form : Form) (text : String) : Option Value :=
  if form = .plain then plainValue? text else some (.text text)

/-- A scalar under a tag without a name: a core tag fixes how it is read, and with any other it is a
text unless the tag is the document's own. -/
def scalarValue? (tag : Option Tag) (form : Form) (text : String) : Option Value :=
  match tag with
  | none => untaggedValue? form text
  | some t =>
    if t = Tag.core "bool" then (Plain.bool? text).map .bool
    else if t = Tag.core "int" then (Plain.integer? text).bind integerValue?
    else if t = Tag.core "float" then (Plain.real? text).map .real
    else if t = Tag.core "null" then if Plain.isNull text then some .null else none
    else if t.isOwn then untaggedValue? form text
    else some (.text text)

def underTag (tag : Option Tag) (v : Value) : Value :=
  match ownName? tag with
  | none => v
  | some name => .tagged name v

def insertNew? (es : List (Value × Value)) (k v : Value) : Option (List (Value × Value)) :=
  if es.any fun e => e.1.same k then none else some (es ++ [(k, v)])

/-- A node as a value, with at most `left` collections inside each other. -/
def value (left : Nat) (n : Node) : Decoder Value := do
  match ← n.followed with
  | .scalar tag form text =>
    match ownName? tag with
    | none => Decoder.ofOption (scalarValue? tag form text)
    | some _ => underTag tag <$> Decoder.ofOption (untaggedValue? form text)
  | .sequence tag items =>
    match left with
    | 0 => failure
    | left + 1 => return underTag tag (.sequence (← items.mapM (value left)))
  | .mapping tag entries =>
    match left with
    | 0 => failure
    | left + 1 =>
      let es ← entries.foldlM (fun es e => do
        let k ← value left e.1
        let v ← value left e.2
        Decoder.ofOption (insertNew? es k v)) []
      return underTag tag (.mapping es)
  | .alias _ => failure

def text (n : Node) : Decoder String := do
  match ← n.followed with
  | .scalar _ _ text => return text
  | _ => failure

def bool (n : Node) : Decoder Bool := do
  match ← n.followed with
  | .scalar tag form text =>
    if form = .plain || (form = .literal && tag = some (Tag.core "bool")) then
      Decoder.ofOption (Plain.bool? text)
    else failure
  | _ => failure

def optionalText (n : Node) : Decoder (Option String) := do
  match ← n.followed with
  | .scalar tag form text =>
    if form != .plain then return some text
    else match tag with
      | none => return if text.isEmpty || Plain.isNull text then none else some text
      | some t =>
        if t = Tag.core "null" then if Plain.isNull text then return none else failure
        else return some text
  | _ => failure

/-- One of several words: a scalar that is the word, or nothing under the word as its tag. -/
def word (n : Node) : Decoder String := do
  match ← n.followed with
  | .scalar tag form text =>
    match ownName? tag with
    | none => return text
    | some word =>
      if form = .plain && (text.isEmpty || Plain.isNull text) then return word else failure
  | _ => failure

def isBare : Node → Bool
  | .scalar _ form text => form = .plain && text.isEmpty
  | _ => false

def items (n : Node) : Decoder (List Node) := do
  match ← n.followed with
  | .sequence _ items => return items
  | n => if n.isBare then return [] else failure

def fields (n : Node) : Decoder (List (String × Node)) := do
  match ← n.followed with
  | .mapping _ entries => entries.mapM fun e => return (← e.1.text, e.2)
  | n => if n.isBare then return [] else failure

def field (fields : List (String × Node)) (name : String) : Decoder (Option Node) :=
  match fields.filter (·.1 = name) with
  | [] => pure none
  | [f] => pure (some f.2)
  | _ => failure

def fieldOr {α : Type} (fields : List (String × Node)) (name : String) (default : α)
    (read : Node → Decoder α) : Decoder α := do
  match ← field fields name with
  | none => return default
  | some n => read n

end Playbook.Yaml.Node
