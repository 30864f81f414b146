import SchemaRegistry.Config
import SchemaRegistry.Disk
import SchemaRegistry.Toml.Quoting

/-!
# Saving a configuration

A configuration is saved in TOML: a section for the names and a section for the switches, each with all
its keys.
-/

namespace SchemaRegistry

namespace Toml

/-- A truth value as it is written. -/
def printBoolean (b : Bool) : List Char := (toString b).toList

/-- A table under its header, whose values are already written. -/
def printTable (name : String) (members : List (String × List Char)) : List Char :=
  '[' :: name.toList ++ ']' :: '\n' ::
    members.flatMap fun (key, value) => key.toList ++ ' ' :: '=' :: ' ' :: value ++ ['\n']

end Toml

namespace Config

open Toml (printBoolean printString printTable)

/-- The text of a configuration. -/
def toml (c : Config) : String :=
  String.ofList <|
    printTable "schema"
      [("builtin_source", printString c.schema.builtinSource),
        ("mutation", printString c.schema.mutation),
        ("subscription", printString c.schema.subscription)] ++
    '\n' :: printTable "rules"
      [("field_imports_exist", printBoolean c.rules.importsExist),
        ("no_circular_field_imports", printBoolean c.rules.importsAcyclic)]

/-- Saves a configuration in a file. -/
def save {n : Type → Type} (disk : Disk n) (path : String) (c : Config) :
    n (Except DiskFault Unit) :=
  disk.write path c.toml

end Config

end SchemaRegistry
