import Playbook.Value

/-! The settings of a session. -/

namespace Playbook

/-- How files reach their targets: copied from a bundle, or fetched from a base URL. -/
inductive Delivery where
  | bundle
  | fetch
deriving DecidableEq, Inhabited

def Delivery.text : Delivery → String
  | .bundle => "bundle"
  | .fetch => "fetch"

structure PassConfig where
  name : String
  settings : Attributes
deriving Inhabited

def PassConfig.named (name : String) : PassConfig := ⟨name, .empty⟩

structure Settings where
  /-- Aim every host group at `localhost` over a local connection. -/
  localhostOnly : Bool
  delivery : Delivery
  baseUrl : Option String
  passes : List PassConfig
deriving Inhabited

namespace Settings

def default : Settings where
  localhostOnly := true
  delivery := .bundle
  baseUrl := none
  passes := [.named "fact_gathering", .named "merge_host_groups"]

def samePasses : List PassConfig → List PassConfig → Bool
  | [], [] => true
  | p :: ps, q :: qs => p.name == q.name && p.settings.same q.settings && samePasses ps qs
  | _, _ => false

def same (s t : Settings) : Bool :=
  s.localhostOnly == t.localhostOnly && s.delivery == t.delivery && s.baseUrl == t.baseUrl &&
    samePasses s.passes t.passes

def passValue (p : PassConfig) : Value :=
  .ofFields (("name", .text p.name) ::
    if p.settings.isEmpty then [] else [("settings", p.settings.toValue)])

/-- The settings as a settings file holds them; what is unset or empty is left out. -/
def toValue (s : Settings) : Value :=
  .ofFields ([("localhost_only", .bool s.localhostOnly),
    ("file_delivery_mode", .text s.delivery.text)] ++
    (s.baseUrl.map fun url => ("fetch_base_url", .text url)).toList ++
    [("optimizers", .sequence (s.passes.map passValue))])

end Settings
end Playbook
