import SchemaRegistry.Assembly
import SchemaRegistry.Command.Arguments
import SchemaRegistry.Config.Layers
import SchemaRegistry.Config.Saving
import SchemaRegistry.Document
import SchemaRegistry.Registry.Lookup

/-!
# Carrying out the command

`Command.run` carries out the arguments on a disk: what is printed, what is complained about, and the
exit code, which is 0 for success, 1 for a failure or findings, and 2 for arguments that make no sense.
-/

namespace SchemaRegistry.Command

variable {n : Type → Type} [Monad n]

/-- What the command leaves behind besides files. -/
structure Outcome where
  code : UInt32
  output : String := ""
  complaint : String := ""
deriving DecidableEq

namespace Outcome

/-- A failure after some output. -/
def failure (output reason : String) : Outcome := ⟨1, output, "Error: " ++ reason ++ "\n"⟩

end Outcome

/-- How the command is used. -/
def usageText : String :=
  "Usage: [-c FILE] check FILE [-v] | report FILE [-o FILE] | config\n"

/-- The outcome for arguments that do not ask for an action. -/
def Refusal.outcome : Refusal → Outcome
  | .help => ⟨0, usageText, ""⟩
  | .usage => ⟨2, "", usageText⟩

/-- A fault with its cause, as it is complained about. -/
def explain : DocumentFault → String
  | .unreadable fault => (DocumentFault.unreadable fault).message ++ ": " ++ fault.message
  | fault => fault.message

/-! ## Actions -/

/-- Loads and assembles a document. -/
def assembleFile (disk : Disk n) (c : Config) (file : String) : n (Except String (Registry Id)) := do
  match ← Document.load disk c.sources file with
  | .error fault => return .error ("loading " ++ file ++ ": " ++ explain fault)
  | .ok loaded => return .ok (.assemble c loaded.descriptions loaded.definitions)

/-- How many types, directives and exports there are. -/
def countLine (r : Registry Id) : String :=
  "  " ++ toString r.types.names.size ++ " types, " ++
    toString r.directives.names.size ++ " directives, " ++
    toString r.exports.size ++ " exported\n"

/-- A line for each registered type and directive. -/
def registrationLines (r : Registry Id) : String :=
  String.join
    ((r.identifiers .type).map (fun identifier =>
        "  ├─ type " ++ identifier ++ (if r.isExported identifier then " (exported)" else "") ++ "\n") ++
      (r.identifiers .directive).map fun identifier => "  ├─ directive " ++ identifier ++ "\n")

/-- The findings, if there are any. -/
def findingLines (r : Registry Id) : String :=
  if r.isValid then ""
  else "❌ " ++ toString r.diagnostics.length ++ " error(s):\n" ++
    Diagnostic.listing r.diagnostics ++ "\n"

/-- The outcome of checking a registry, after some output. -/
def checkRegistry (output : String) (verbose : Bool) (r : Registry Id) : Outcome :=
  let output :=
    output ++ countLine r ++ (if verbose then registrationLines r else "") ++ findingLines r
  match Id.run (r.materialize Slot.realize) with
  | .error missing => .failure output ("materializing artifacts: " ++ missing.message)
  | .ok _ => if r.isValid then ⟨0, output ++ "✅ Schema is valid\n", ""⟩ else ⟨1, output, ""⟩

/-- Checks a document. -/
def check (disk : Disk n) (c : Config) (file : String) (verbose : Bool) : n Outcome := do
  let output := "🔍 Assembling " ++ file ++ "\n"
  match ← assembleFile disk c file with
  | .error reason => return .failure output reason
  | .ok r => return checkRegistry output verbose r

/-- Reports on a document. -/
def report (disk : Disk n) (c : Config) (file : String) (output : Option String) : n Outcome := do
  match ← assembleFile disk c file with
  | .error reason => return .failure "" reason
  | .ok r =>
    let text := (Report.ofRegistry r).pretty
    match output with
    | none => return ⟨0, text ++ "\n", ""⟩
    | some path =>
      match ← disk.write path text with
      | .error fault => return .failure "" fault.message
      | .ok _ => return ⟨0, "✅ Report written to " ++ Text.quotedPath path ++ "\n", ""⟩

/-- Carries out an action under a configuration. -/
def perform (disk : Disk n) (c : Config) : Action → n Outcome
  | .check file verbose => check disk c file verbose
  | .report file output => report disk c file output
  | .printConfig => return ⟨0, c.toml ++ "\n", ""⟩

/-- Carries out the arguments. -/
def run (disk : Disk n) (env : Environment) (arguments : List String) : n Outcome := do
  match Invocation.ofArguments arguments with
  | .error refusal => return refusal.outcome
  | .ok invocation =>
    match ← Config.load disk env invocation.configFile with
    | .error fault => return .failure "" ("loading configuration: " ++ fault.message)
    | .ok c => perform disk c invocation.action

end SchemaRegistry.Command
