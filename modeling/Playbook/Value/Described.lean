import Playbook.Value
import Playbook.Text.Quoted

/-! A value described by its kind and content, for messages. -/

namespace Playbook.Value

mutual

def described : Value → String
  | .null => "Null"
  | .bool b => "Bool(" ++ toString b ++ ")"
  | .number n => "Number(" ++ n.text ++ ")"
  | .text s => "String(" ++ Text.quoted s ++ ")"
  | .sequence items => "Sequence [" ++ ", ".intercalate (describedItems items) ++ "]"
  | .mapping entries => "Mapping \x7b" ++ ", ".intercalate (describedEntries entries) ++ "\x7d"
  | .tagged tag v =>
    "TaggedValue \x7b tag: !" ++ bareTag tag ++ ", value: " ++ described v ++ " \x7d"

def describedItems : List Value → List String
  | [] => []
  | v :: vs => described v :: describedItems vs

/-- Keys that are scalars other than null stand without their kind. -/
def describedEntries : List (Value × Value) → List String
  | [] => []
  | (k, v) :: es =>
    let key := match k with
      | .bool b => toString b
      | .number n => n.text
      | .text s => Text.quoted s
      | _ => described k
    (key ++ ": " ++ described v) :: describedEntries es

end

end Playbook.Value
