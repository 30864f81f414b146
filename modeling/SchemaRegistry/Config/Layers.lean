import SchemaRegistry.Config.Reading
import SchemaRegistry.Json.Codec
import SchemaRegistry.Text.Utf8
import SchemaRegistry.Toml.Reader

/-!
# Layers of settings

A layer comes from a file, written in TOML or in JSON, or from the variables of the environment.
`Config.load` takes the layers from all places, in the order in which each overrides those before it.

Other ways of writing a file (YAML, INI, RON, JSON5) are not known here: a file whose name ends in one of
their extensions has no registered format, and is not looked for under a name without extension.
-/

namespace SchemaRegistry

/-! ## Files -/

mutual

/-- The setting of a TOML value. -/
def Setting.ofToml (origin : String) : Toml.Value → Setting
  | .text s => .scalar origin (.text s)
  | .integer n => .scalar origin (.integer n)
  | .float x => .scalar origin (.float x)
  | .boolean b => .scalar origin (.boolean b)
  | .moment s => .scalar origin (.text s)
  | .array items => .list origin (Setting.listOfToml origin items)
  | .table members => .table origin (Layer.ofToml origin members)

/-- The settings of the items of an array. -/
def Setting.listOfToml (origin : String) : List Toml.Value → List Setting
  | [] => []
  | v :: rest => Setting.ofToml origin v :: Setting.listOfToml origin rest

/-- The settings of the members of a table. -/
def Layer.ofToml (origin : String) : List (String × Toml.Value) → Layer
  | [] => []
  | (key, v) :: rest => (key, Setting.ofToml origin v) :: Layer.ofToml origin rest

end

/-- A number of a JSON file. An integer beyond 64 bits with a sign is a floating point number. -/
def Scalar.ofJsonNumber : Json.Number → Scalar
  | .integer n _ =>
    match Decimal.signed64? n with
    | some n => .integer n
    | none => .float (Decimal.toFloat ⟨n.toNat, 0⟩)
  | .float x => .float x

mutual

/-- The setting of a JSON value. -/
def Setting.ofJson (origin : String) : Json.Value → Setting
  | .null => .scalar origin .nothing
  | .boolean b => .scalar origin (.boolean b)
  | .number n => .scalar origin (.ofJsonNumber n)
  | .text s => .scalar origin (.text s)
  | .array items => .list origin (Setting.listOfJson origin items)
  | .object members => .table origin (Layer.ofJson origin members)

/-- The settings of the items of an array. -/
def Setting.listOfJson (origin : String) : List Json.Value → List Setting
  | [] => []
  | v :: rest => Setting.ofJson origin v :: Setting.listOfJson origin rest

/-- The settings of the members of an object. -/
def Layer.ofJson (origin : String) : List (String × Json.Value) → Layer
  | [] => []
  | (key, v) :: rest => (key, Setting.ofJson origin v) :: Layer.ofJson origin rest

end

/-- How a file is written, of the two ways that are known here. -/
inductive FileFormat where
  | toml
  | json
deriving DecidableEq

namespace FileFormat

/-- The end of the names of such files. -/
def extension : FileFormat → String
  | .toml => "toml"
  | .json => "json"

/-- All formats that are known here. -/
def all : List FileFormat := [.toml, .json]

/-- Reads the layer of a text; `none` if the text is not well formed, or not a table on the outside. -/
def readLayer? (origin text : String) : FileFormat → Option Layer
  | .toml => (Toml.readDocument? text).map (Layer.ofToml origin)
  | .json =>
    match Json.Codec.data.parse text with
    | .ok ⟨.object members, _⟩ => some (Layer.ofJson origin members)
    | _ => none

end FileFormat

/-- The end of a file name after its last point; a point in front of the name does not count. -/
def fileExtension (path : String) : String :=
  let name := ((pathSegments path).getLast?.getD "").toList
  match name.reverse.span (· ≠ '.') with
  | (_, []) => ""
  | (_, [_]) => ""
  | (ending, _) => String.ofList ending.reverse

/-- A path with an extension added; `none` if it names no file. -/
def withExtension? (path extension : String) : Option String :=
  let segments := pathSegments path
  match segments.getLast? with
  | none | some ".." => none
  | some _ =>
    some ((if path.startsWith "/" then "/" else "") ++ "/".intercalate segments ++ "." ++ extension)

/-- The text of a file. A mark of the byte order in front does not count. -/
def fileText (bytes : ByteArray) : String :=
  Text.decodeLenient
    (if (bytes.extract 0 3).toList = [0xEF, 0xBB, 0xBF] then bytes.extract 3 bytes.size else bytes)

namespace Layer

variable {n : Type → Type} [Monad n]

/-- The first of the given files that is there. -/
def findAmong (disk : Disk n) : List (String × FileFormat) → n (Option (String × FileFormat))
  | [] => return none
  | (path, format) :: rest => do
    if ← disk.isFile path then return some (path, format) else findAmong disk rest

/-- The file that a path means: the file of that name, whose extension says how it is written, or else a
file with an extension added to the name. -/
def findFile (disk : Disk n) (path : String) : n (Except ConfigFault (String × FileFormat)) := do
  if ← disk.isFile path then
    match FileFormat.all.find? (·.extension = fileExtension path) with
    | some format => return .ok (path, format)
    | none => return .error (.unknownFormat path)
  else
    let candidates := FileFormat.all.filterMap fun format =>
      (withExtension? path format.extension).map (·, format)
    match ← findAmong disk candidates with
    | some found => return .ok found
    | none => return .error (.notFound path)

/-- The layer of a file. Its origin is the way to the file from the working directory. For an absolute path,
where this way depends on where the working directory is, the origin holds just the parts of the path. -/
def ofFile (disk : Disk n) (path : String) : n (Except ConfigFault Layer) := do
  match ← findFile disk path with
  | .error fault => return .error fault
  | .ok (path, format) =>
    match ← disk.read path with
    | .error fault => return .error (.unreadable fault)
    | .ok bytes =>
      let origin := "/".intercalate (pathSegments path)
      match format.readLayer? origin (fileText bytes) with
      | some layer => return .ok layer
      | none => return .error (.malformed origin)

/-- The layer of a file that need not be there. -/
def ofOptionalFile (disk : Disk n) (path : String) : n (Except ConfigFault Layer) := do
  match ← ofFile disk path with
  | .ok layer => return .ok layer
  | .error (.malformed origin) => return .error (.malformed origin)
  | .error _ => return .ok []

/-- The layers of files that need not be there, up to the first that is not well formed. -/
def ofOptionalFiles (disk : Disk n) : List String → n (Except ConfigFault (List Layer))
  | [] => return .ok []
  | path :: rest => do
    match ← ofOptionalFile disk path with
    | .error fault => return .error fault
    | .ok layer => return (← ofOptionalFiles disk rest).map (layer :: ·)

end Layer

/-! ## The environment -/

/-- What a program is given by the system it runs on. -/
structure Environment where
  /-- The variables of the environment by their names. -/
  settings : List (String × String) := []
  /-- The place of the user's own configuration file. -/
  userFile : Option String := none

namespace Environment

/-- How the names of the variables begin that hold settings, in lower case. -/
def nameStart : List Char := "assembly__".toList

/-- A name with a point for every two underscores. -/
def pointed : List Char → List Char
  | '_' :: '_' :: rest => '.' :: pointed rest
  | c :: rest => c :: pointed rest
  | [] => []

/-- The key that a variable sets, if it sets one. -/
def settingKey? (name : String) : Option String :=
  let name := (Text.lowercase name).toList
  if nameStart.isPrefixOf name then some (String.ofList (pointed (name.drop nameStart.length)))
  else none

/-- The origin of the settings in variables. -/
def origin : String := "the environment"

/-- The layer of the variables. -/
def layer (env : Environment) : Layer :=
  env.settings.filterMap fun (name, value) =>
    (settingKey? name).map fun key => (key, .scalar origin (.ofVariable value))

end Environment

/-! ## All layers -/

namespace Config

variable {n : Type → Type} [Monad n]

/-- The places at which a configuration is looked for. -/
def defaultFiles : List String := ["assembly.toml", ".assembly.toml", "config/assembly.toml"]

/-- All layers, in the order in which each overrides those before it: the usual places, the user's own
file if it exists, the given file, which must exist, and the environment. -/
def collectLayers (disk : Disk n) (env : Environment) (path : Option String) :
    n (Except ConfigFault (List Layer)) := do
  let userFiles ← match env.userFile with
    | none => pure []
    | some file => do
      if (← disk.kind file).isSome then pure [file] else pure []
  match ← Layer.ofOptionalFiles disk (defaultFiles ++ userFiles) with
  | .error fault => return .error fault
  | .ok layers =>
    match path with
    | none => return .ok (layers ++ [env.layer])
    | some path =>
      return (← Layer.ofFile disk path).map fun layer => layers ++ [layer, env.layer]

/-- Loads the configuration. -/
def load (disk : Disk n) (env : Environment) (path : Option String) :
    n (Except ConfigFault Config) := do
  match ← collectLayers disk env path with
  | .error fault => return .error fault
  | .ok layers => return ofLayers layers

end Config

end SchemaRegistry
