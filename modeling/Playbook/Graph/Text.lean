import Playbook.Graph.Basic
import Playbook.Text.Quoted

/-! Graphs as text. -/

namespace Playbook.Graph
variable {α : Type} [DecidableEq α]

def dot (name : α → String) (g : Graph α) : String :=
  let quote (a : α) := "\"" ++ name a ++ "\""
  let line (e : α × OrderedSet α) :=
    "  " ++ quote e.1 ++ " -> \x7b" ++ " ".intercalate (e.2.toList.map quote) ++ "\x7d;\n"
  let branching := g.successors.entries.filter fun e => !e.2.toList.isEmpty
  "digraph dag \x7b\n" ++ String.join (branching.map line) ++ "\x7d"

def listing (name : α → String) (g : Graph α) : String :=
  let quote (a : α) := Text.quoted (name a)
  let item (e : α × OrderedSet α) :=
    quote e.1 ++ ": [" ++ ", ".intercalate (e.2.toList.map quote) ++ "]"
  "\x7b" ++ ", ".intercalate (g.successors.entries.map item) ++ "\x7d"

end Playbook.Graph
