import Playbook.Pass.Basic
import Playbook.Settings.Basic

/-! The passes that settings can name. -/

namespace Playbook

inductive PassKind where
  | facts
  | merging
deriving DecidableEq

def PassKind.build (kind : PassKind) (settings : Attributes) : Except Error Pass :=
  match kind with
  | .facts => .facts <$> FactGathering.ofSettings settings
  | .merging => .merging <$> Merging.ofSettings settings

abbrev Registry := OrderedMap String PassKind

namespace Registry

def builtin : Registry :=
  .ofList [(FactGathering.name, .facts), (Merging.name, .merging)]

theorem keys_builtin : builtin.keys = ["fact_gathering", "merge_host_groups"] := by
  decide

def build (r : Registry) (c : PassConfig) : Except Error Pass :=
  match r.get? c.name with
  | some kind => kind.build c.settings
  | none => .error (.refused (.unknownPass c.name))

def pipeline (r : Registry) (cs : List PassConfig) : Except Error (List Pass) :=
  cs.mapM r.build

end Registry
end Playbook
