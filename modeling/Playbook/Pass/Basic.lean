import Playbook.Script

/-! Optimizer passes. A pass first changes a session, before its graph is built, and then the
graph. -/

namespace Playbook

/-- One unit that gathers facts ahead of all others, in place of each play's own gathering. -/
structure FactGathering where
  hosts : String
  becomeRoot : Bool
  /-- The unit, once a run has declared it. -/
  unit : Option UnitId

namespace FactGathering

def name : String := "fact_gathering"

def unitName : String := "gather_facts_once"

def new : FactGathering := ⟨"all", true, none⟩

def withSetting (p : FactGathering) (key : String) (value : Value) : Except Error FactGathering :=
  if key = "hosts" then
    match value with
    | .text hosts => .ok { p with hosts }
    | _ => .error (.refused (.wrongPassSetting name key))
  else if key = "become" then
    match value with
    | .bool becomeRoot => .ok { p with becomeRoot }
    | _ => .error (.refused (.wrongPassSetting name key))
  else .error (.refused (.unknownPassSetting name key))

def ofSettings (settings : Attributes) : Except Error FactGathering :=
  settings.entries.foldlM (fun p e => p.withSetting e.1 e.2) new

end FactGathering

/-- Keeps one of the bindings that mean the same targets. -/
structure Merging where
  removed : Nat

namespace Merging

def name : String := "merge_host_groups"

def new : Merging := ⟨0⟩

def ofSettings (settings : Attributes) : Except Error Merging :=
  match settings.keys with
  | [] => .ok new
  | key :: _ => .error (.refused (.unknownPassSetting name key))

end Merging

/-- A pass that runs a script and then adds edges between the units that it found. -/
structure ScriptedPass where
  name : String
  block : Block
  edges : List (UnitId × UnitId)
  known : List UnitId

inductive Pass where
  | facts (p : FactGathering)
  | merging (p : Merging)
  | idle
  | scripted (p : ScriptedPass)

def Pass.name : Pass → String
  | .facts _ => FactGathering.name
  | .merging _ => Merging.name
  | .idle => "noop"
  | .scripted p => p.name

end Playbook
