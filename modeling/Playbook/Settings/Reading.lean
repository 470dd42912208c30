import Playbook.Settings.Basic
import Playbook.Error
import Playbook.Text.Blank
import Playbook.Yaml.Printer
import Playbook.Yaml.Reading

/-! Settings from a settings file. -/

namespace Playbook

open Yaml (Node Decoder)

namespace Delivery

def ofNode (n : Node) : Decoder Delivery := do
  match ← n.word with
  | "bundle" => return .bundle
  | "fetch" => return .fetch
  | _ => failure

end Delivery

def nestingLimit : Nat := 128

namespace PassConfig

def settingsOfNode (n : Node) : Decoder Attributes := do
  let values ← (← n.fields).mapM fun f => return (f.1, ← f.2.value (nestingLimit - 4))
  return .ofList values

def ofNode (n : Node) : Decoder PassConfig := do
  let fields ← n.fields
  let some name ← Node.field fields "name" | failure
  let settings ← Node.fieldOr fields "settings" .empty settingsOfNode
  return ⟨← name.text, settings⟩

end PassConfig

namespace Settings

/-- Fields that no setting bears are ignored; one that a setting bears occurs at most once. -/
def ofNode (n : Node) : Decoder Settings := do
  let fields ← n.fields
  let d := Settings.default
  return {
    localhostOnly := ← Node.fieldOr fields "localhost_only" d.localhostOnly Node.bool
    delivery := ← Node.fieldOr fields "file_delivery_mode" d.delivery Delivery.ofNode
    baseUrl := ← Node.fieldOr fields "fetch_base_url" d.baseUrl Node.optionalText
    passes := ← Node.fieldOr fields "optimizers" d.passes fun n => do
      (← n.items).mapM PassConfig.ofNode }

/-- Stands for the details of a text that is malformed or does not fit. -/
def malformed : String := "<yaml>"

/-- The settings in a text. A blank one holds the default settings. -/
def parse (path text : String) : Except Error Settings :=
  if Text.isBlank text then .ok default
  else match (Yaml.Document.read? text).bind (Decoder.run? · ofNode) with
    | some s => .ok s
    | none => .error (.settingsNotRead path malformed)

inductive FileContent where
  | absent
  | directory
  | tooLong
  | nullInPath
  | bytes (data : ByteArray)

namespace FileContent

def pathLimit : Nat := 4096

def nameLimit : Nat := 255

def names (path : String) : List String :=
  (path.splitOn "/").filter fun p => !p.isEmpty && p != "." && p != ".."

/-- What a relative path leads to in a directory that holds no file but perhaps the one written at
that path. Only the first name is looked up, as nothing lies below it. -/
def alone (path : String) : Option ByteArray → FileContent
  | some data => .bytes data
  | none =>
    if path.toList.contains '\x00' then .nullInPath
    else if pathLimit ≤ path.utf8ByteSize then .tooLong
    else match names path with
      | [] => if path.isEmpty then .absent else .directory
      | n :: _ => if nameLimit < n.utf8ByteSize then .tooLong else .absent

end FileContent

def load (path : String) : FileContent → Except Error Settings
  | .absent => .error (.settingsNotFound path)
  | .directory => .error (.io "Is a directory (os error 21)")
  | .tooLong => .error (.io "File name too long (os error 36)")
  | .nullInPath => .error (.io "file name contained an unexpected NUL byte")
  | .bytes data =>
    match String.fromUTF8? data with
    | some text => parse path text
    | none => .error (.io "stream did not contain valid UTF-8")

def toYaml (s : Settings) : Except Yaml.PrintError String := Yaml.document s.toValue

end Settings
end Playbook
