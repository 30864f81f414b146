import SchemaRegistry.Command.Run

/-!
# The command line

The command, run on the files and the environment of the process. What it does is in `Command.run`; here
is only what it takes from the system and gives back to it.
-/

namespace SchemaRegistry.Command

/-- The fault of a file operation. -/
def faultOf : IO.Error → DiskFault
  | .noFileOrDirectory _ _ _ => .notFound
  | .inappropriateType _ code _ =>
    if code = 21 ∨ code = (0 : UInt32) - 21 then .isDirectory else .notDirectory
  | fault => .other fault.toString

/-- A file operation with its fault as a value. -/
def attempt {α : Type} (operation : IO α) : IO (Except DiskFault α) := do
  match ← operation.toBaseIO with
  | .ok a => return .ok a
  | .error fault => return .error (faultOf fault)

/-- The files of the system. What can be read is a file. -/
def systemDisk : Disk IO where
  kind path := do
    match ← attempt (IO.FS.readBinFile path) with
    | .ok _ => return some .file
    | .error .isDirectory => return some .directory
    | .error _ => return none
  read path := attempt (IO.FS.readBinFile path)
  write path content := attempt (IO.FS.writeFile path content)

/-- A variable as the system lists it: name and value with an equals sign between them. -/
def variableOf (entry : List UInt8) : Option (String × String) := do
  let cs := (← String.fromUTF8? ⟨entry.toArray⟩).toList
  let value ← (cs.dropWhile (· ≠ '=')).tail?
  return (String.ofList (cs.takeWhile (· ≠ '=')), String.ofList value)

/-- Cuts the list of variables at the zero bytes. -/
def entriesOf (entry : List UInt8) : List UInt8 → List (List UInt8)
  | [] => [entry.reverse]
  | b :: rest => if b = 0 then entry.reverse :: entriesOf [] rest else entriesOf (b :: entry) rest

/-- The environment of the process. -/
def systemEnvironment : IO Environment := do
  let listing ← attempt (IO.FS.readBinFile "/proc/self/environ")
  let settings := match listing with
    | .ok bytes => (entriesOf [] bytes.toList).filterMap variableOf
    | .error _ => []
  let place ← match ← IO.getEnv "XDG_CONFIG_HOME" with
    | some place => if place.startsWith "/" then pure (some place) else pure none
    | none => pure none
  let home := (← IO.getEnv "HOME").map (· ++ "/.config")
  return { settings, userFile := (place <|> home).map (· ++ "/assembly/assembly.toml") }

end SchemaRegistry.Command

/-- Carries out the arguments of the process. -/
def main (arguments : List String) : IO UInt32 := do
  let environment ← SchemaRegistry.Command.systemEnvironment
  let outcome ← SchemaRegistry.Command.run SchemaRegistry.Command.systemDisk environment arguments
  IO.print outcome.output
  IO.eprint outcome.complaint
  return outcome.code
