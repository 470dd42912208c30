import Playbook.Yaml.Tag

/-! The tokens of a document. -/

namespace Playbook.Yaml

inductive Form where
  | plain
  | quoted
  | literal
  | folded
deriving DecidableEq, Inhabited

inductive Token where
  | version (major minor : Nat)
  | tagHandle (handle : String) (expansion : Tag)
  | documentStart
  | documentEnd
  | blockSequence
  | blockMapping
  | blockEnd
  | flowSequence
  | flowSequenceEnd
  | flowMapping
  | flowMappingEnd
  | item
  | comma
  | key
  | value
  | alias (name : String)
  | anchor (name : String)
  | tag (handle : String) (suffix : Tag)
  | scalar (text : String) (form : Form)
deriving Inhabited, DecidableEq

end Playbook.Yaml
