import Playbook.Id
import Playbook.Value.Described

/-! What can go wrong, by cause, and the message for each cause. -/

namespace Playbook

inductive Problem where
  | unsetBaseUrl
  | blankBaseUrl
  | unknownPass (name : String) (known : List String)
  | repeatedPass (name : String)
deriving DecidableEq

namespace Problem

def rule : Problem → String
  | .unsetBaseUrl | .blankBaseUrl => "missing-fetch-url"
  | .unknownPass .. => "unknown-optimizer"
  | .repeatedPass .. => "duplicate-optimizer"

def message : Problem → String
  | .unsetBaseUrl => "file_delivery_mode is fetch but fetch_base_url is unset"
  | .blankBaseUrl => "fetch_base_url is empty"
  | .unknownPass name known =>
    "Unknown optimizer '" ++ name ++ "' (known: " ++ ", ".intercalate known ++ ")"
  | .repeatedPass name => "Optimizer '" ++ name ++ "' is listed more than once"

end Problem

inductive Refusal where
  | hostsOutsideSession
  | noPattern
  | unknownGroup (group : GroupId)
  | unknownUnit (unit : UnitId)
  | unknownRunbook (runbook : RunbookId)
  | invokedOutsideGroup (unit : String)
  | instantiatedOutsideGroup (runbook : String)
  | repeatedMember (runbook member : String)
  | unknownMember (runbook member : String)
  | stepOutsideUnit (action : String)
  | guardOfCaller (unit condition : String)
  | noSourcePath
  | argumentsNotMapping (args : Value)
  | unsetBaseUrl
  | openGuards (count : Nat)
  | unknownPass (name : String)
  | unknownPassSetting (pass key : String)
  | wrongPassSetting (pass key : String)
  | inconsistentSettings (problems : List Problem)
  | stated (message : String)

namespace Refusal

def message : Refusal → String
  | .hostsOutsideSession => "host groups must be declared inside an entered session"
  | .noPattern => "localhost_only is false and hosts was empty"
  | .unknownGroup group => "unknown host group " ++ group.text
  | .unknownUnit unit => "unknown work unit " ++ unit.text
  | .unknownRunbook runbook => "unknown runbook " ++ runbook.text
  | .invokedOutsideGroup unit => "work unit '" ++ unit ++ "' invoked outside of a host group"
  | .instantiatedOutsideGroup runbook =>
    "runbook '" ++ runbook ++ "' instantiated outside of a host group"
  | .repeatedMember runbook member =>
    "runbook '" ++ runbook ++ "' declares member '" ++ member ++ "' more than once"
  | .unknownMember runbook member =>
    "runbook '" ++ runbook ++ "' has no member '" ++ member ++ "'"
  | .stepOutsideUnit action => "step '" ++ action ++ "' declared outside of a work unit"
  | .guardOfCaller unit condition =>
    "work unit '" ++ unit ++ "' cannot close guard condition '" ++ condition ++
      "' opened by its caller"
  | .noSourcePath => "get_file requires a source path"
  | .argumentsNotMapping args => "get_file arguments must be a mapping, got " ++ args.described
  | .unsetBaseUrl => "file_delivery_mode is fetch but fetch_base_url is unset"
  | .openGuards count =>
    toString count ++ " guard condition(s) still open when building the plan"
  | .unknownPass name => "Unknown optimizer '" ++ name ++ "'"
  | .unknownPassSetting pass key => pass ++ ": unknown setting '" ++ key ++ "'"
  | .wrongPassSetting pass key => pass ++ ": setting '" ++ key ++ "' has the wrong type"
  | .inconsistentSettings problems => "; ".intercalate (problems.map Problem.message)
  | .stated message => message

end Refusal

inductive Error where
  | cycle (source target : String)
  | unresolved (runbook unit reference : String)
  /-- A unit finished with conditions of its own still open. -/
  | danglingGuard (unit : String) (count : Nat)
  | refused (reason : Refusal)
  | notAcyclic (sorted nodes : Nat)
  | settingsNotFound (path : String)
  | settingsNotRead (path message : String)
  | notSerialized (message : String)
  | io (message : String)
  | other (message : String)

namespace Error

def message : Error → String
  | .cycle source target => "Adding " ++ source ++ " -> " ++ target ++ " causes a cycle"
  | .unresolved runbook unit reference =>
    "Unresolved reference '" ++ reference ++ "' on '" ++ unit ++ "' in runbook '" ++ runbook ++ "'"
  | .danglingGuard unit count =>
    "Work unit '" ++ unit ++ "' finished with " ++ toString count ++
      " guard condition(s) still open"
  | .refused reason => "Invalid configuration: " ++ reason.message
  | .notAcyclic sorted nodes =>
    "Graph is not acyclic: sorted " ++ toString sorted ++ " of " ++ toString nodes ++ " nodes"
  | .settingsNotFound path => "Settings not found: " ++ path
  | .settingsNotRead path message => "Failed to parse settings at " ++ path ++ ": " ++ message
  | .notSerialized message => "Failed to serialize plan: " ++ message
  | .io message => "IO error: " ++ message
  | .other message => message

end Error
end Playbook
