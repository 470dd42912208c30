import Playbook.Json

/-! The JSON schema of a settings file, in the seventh draft. -/

namespace Playbook.Settings

def texts (l : List String) : Json := .array (l.map .string)

def passNames : Json := texts ["fact_gathering", "merge_host_groups"]

def passSchema : Json := .object [
  ("type", .string "object"),
  ("required", texts ["name"]),
  ("properties", .object [
    ("name", .object [("type", .string "string"), ("enum", passNames)]),
    ("settings", .object [
      ("type", .string "object"),
      ("description", .string "Optimizer-specific settings")])]),
  ("additionalProperties", .bool false)]

def passesSchema : Json := .object [
  ("type", .string "array"),
  ("description", .string "Optimizer pipeline, run in order"),
  ("default", .array [
    .object [("name", .string "fact_gathering")],
    .object [("name", .string "merge_host_groups")]]),
  ("items", passSchema)]

def schema : Json := .object [
  ("$schema", .string "http://json-schema.org/draft-07/schema#"),
  ("title", .string "Decibel Session Settings"),
  ("type", .string "object"),
  ("properties", .object [
    ("localhost_only", .object [
      ("type", .string "boolean"),
      ("default", .bool true),
      ("description", .string "Target localhost over a local connection")]),
    ("file_delivery_mode", .object [
      ("type", .string "string"),
      ("enum", texts ["bundle", "fetch"]),
      ("default", .string "bundle"),
      ("description", .string "How get_file delivers files")]),
    ("fetch_base_url", .object [
      ("type", .string "string"),
      ("description", .string "Base URL used in fetch mode")]),
    ("optimizers", passesSchema)]),
  ("additionalProperties", .bool false)]

end Playbook.Settings
