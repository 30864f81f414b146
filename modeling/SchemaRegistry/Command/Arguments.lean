/-!
# Arguments of the command

The command takes one of three actions: it checks a document, it reports on one, or it prints the
configuration. `Invocation.ofArguments` reads the arguments.

Options may stand anywhere. A long option has its value after an equals sign or as the next argument, a
short one also right behind its letter, and short ones without value may share a hyphen. After two
hyphens nothing counts as an option. No option is given twice at one level, and nothing that is given is
empty.
-/

namespace SchemaRegistry.Command

/-! ## Options -/

/-- An option. -/
structure OptionForm where
  letter : Char
  word : String
  takesValue : Bool
deriving DecidableEq

/-- The configuration file to use; it may be given before and after the action. -/
def OptionForm.config : OptionForm := ⟨'c', "config", true⟩

/-- Lists what is registered. -/
def OptionForm.verbose : OptionForm := ⟨'v', "verbose", false⟩

/-- The file to write to. -/
def OptionForm.output : OptionForm := ⟨'o', "output", true⟩

/-- Asks how the command is used. -/
def OptionForm.help : OptionForm := ⟨'h', "help", false⟩

/-- Why the arguments do not ask for an action. -/
inductive Refusal where
  /-- They ask how the command is used. -/
  | help
  | usage
deriving DecidableEq

/-- What has been given at one level. -/
structure Given where
  /-- The options and their values; an option without value has the empty one. -/
  options : List (OptionForm × String) := []
  operands : List String := []

namespace Given

/-- The value of an option. -/
def value? (g : Given) (o : OptionForm) : Option String := g.options.lookup o

/-- Adds an option. -/
def addOption (g : Given) (o : OptionForm) (value : String) : Except Refusal Given :=
  if o = .help then .error .help
  else if (g.value? o).isSome ∨ (o.takesValue ∧ value = "") then .error .usage
  else .ok { g with options := g.options ++ [(o, value)] }

/-- Adds an operand. -/
def addOperand (g : Given) (operand : String) : Except Refusal Given :=
  if operand = "" then .error .usage else .ok { g with operands := g.operands ++ [operand] }

/-- Adds operands. -/
def addOperands (g : Given) : List String → Except Refusal Given
  | [] => .ok g
  | operand :: rest => do addOperands (← g.addOperand operand) rest

end Given

/-! ## Levels -/

/-- Reads the letters behind a hyphen; an option at the end whose value is the next argument comes with
the result. -/
def readLetters (forms : List OptionForm) (g : Given) :
    List Char → Except Refusal (Given × Option OptionForm)
  | [] => .ok (g, none)
  | c :: rest =>
    match forms.find? (·.letter = c) with
    | none => .error .usage
    | some o =>
      if o.takesValue then
        match rest with
        | [] => .ok (g, some o)
        | '=' :: value => do return (← g.addOption o (String.ofList value), none)
        | value => do return (← g.addOption o (String.ofList value), none)
      else do readLetters forms (← g.addOption o "") rest

/-- Reads what stands behind two hyphens. -/
def readWord (forms : List OptionForm) (g : Given) (word : List Char) :
    Except Refusal (Given × Option OptionForm) :=
  let name := String.ofList (word.takeWhile (· ≠ '='))
  match forms.find? (·.word = name), word.dropWhile (· ≠ '=') with
  | none, _ => .error .usage
  | some o, [] => if o.takesValue then .ok (g, some o) else do return (← g.addOption o "", none)
  | some o, _ :: value =>
    if o.takesValue then do return (← g.addOption o (String.ofList value), none)
    else .error .usage

/-- Reads the arguments of one level. The outer level ends before its first operand, which is the action;
an option that waits for its value takes the next argument, unless that looks like an option. -/
def readLevel (forms : List OptionForm) (outer : Bool) (waiting : Option OptionForm) (g : Given) :
    List String → Except Refusal (Given × List String)
  | [] => if waiting.isSome then .error .usage else .ok (g, [])
  | argument :: rest =>
    match waiting, argument.toList with
    | some _, '-' :: _ :: _ => .error .usage
    | some o, _ => do readLevel forms outer none (← g.addOption o argument) rest
    | none, ['-', '-'] =>
      if outer then .error .usage else do return (← g.addOperands rest, [])
    | none, '-' :: '-' :: word => do
      let (g, waiting) ← readWord forms g word
      readLevel forms outer waiting g rest
    | none, '-' :: c :: letters => do
      let (g, waiting) ← readLetters forms g (c :: letters)
      readLevel forms outer waiting g rest
    | none, _ =>
      if outer then .ok (g, argument :: rest)
      else do readLevel forms outer none (← g.addOperand argument) rest

/-! ## Invocations -/

/-- What the command is to do. -/
inductive Action where
  | check (file : String) (verbose : Bool)
  | report (file : String) (output : Option String)
  | printConfig
deriving DecidableEq

/-- An action with the configuration file to use. -/
structure Invocation where
  configFile : Option String
  action : Action
deriving DecidableEq

/-- The options of an action besides those that every action has; `none` if there is no such action. -/
def actionForms? : String → Option (List OptionForm)
  | "check" => some [.verbose]
  | "report" => some [.output]
  | "config" => some []
  | _ => none

/-- The action that is asked for. -/
def action? (name : String) (g : Given) : Option Action :=
  match name, g.operands with
  | "check", [file] => some (.check file (g.value? .verbose).isSome)
  | "report", [file] => some (.report file (g.value? .output))
  | "config", [] => some .printConfig
  | _, _ => none

/-- Reads the arguments. Of two configuration files the one after the action counts. -/
def Invocation.ofArguments (arguments : List String) : Except Refusal Invocation := do
  let (outer, rest) ← readLevel [.config, .help] true none {} arguments
  match rest with
  | [] => throw .usage
  | ["help"] => throw .help
  | ["help", name] => throw (if (actionForms? name).isSome ∨ name = "help" then .help else .usage)
  | name :: rest =>
    let some forms := actionForms? name | throw .usage
    let (inner, _) ← readLevel ([.config, .help] ++ forms) false none {} rest
    let some action := action? name inner | throw .usage
    return ⟨inner.value? .config <|> outer.value? .config, action⟩

end SchemaRegistry.Command
