import Playbook.Pass.Registry
import Playbook.Text.Blank

/-! Whether settings are consistent. -/

namespace Playbook.Settings

def urlProblems (s : Settings) : List Problem :=
  match s.delivery, s.baseUrl with
  | .bundle, _ => []
  | .fetch, none => [.unsetBaseUrl]
  | .fetch, some url => if Text.isBlank url then [.blankBaseUrl] else []

def passProblems (known : List String) : List String → List String → List Problem
  | _, [] => []
  | seen, n :: l =>
    (if n ∈ known then [] else [.unknownPass n known]) ++
      (if n ∈ seen then [.repeatedPass n] else []) ++ passProblems known (n :: seen) l

def problems (s : Settings) : List Problem :=
  s.urlProblems ++ passProblems Registry.builtin.keys [] (s.passes.map PassConfig.name)

def validate (s : Settings) : Except Error Unit :=
  match s.problems with
  | [] => .ok ()
  | ps => .error (.refused (.inconsistentSettings ps))

end Playbook.Settings
