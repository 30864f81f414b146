import SchemaRegistry.Diagnostic
import SchemaRegistry.ImportGraph

/-!
# Rules

A rule looks at all definitions together, before any of them is registered. It receives the definitions
and the findings so far and hands on both, with its own findings at the end; definitions that it leaves
out are never registered.

Two rules are built in: `importsExist`, and `importsAcyclic`, which also carries out the field imports
of the types that pass it.
-/

namespace SchemaRegistry

variable {m : Type → Type}

/-- What is handed from one rule to the next. -/
structure Checked (m : Type → Type) where
  definitions : List (Definition m)
  diagnostics : List Diagnostic

/-- A rule with its name. -/
structure Rule (m : Type → Type) where
  name : String
  check : Checked m → Checked m

/-- Runs rules one after the other, without findings at the start. -/
def Rule.runAll (rules : List (Rule m)) (ds : List (Definition m)) : Checked m :=
  rules.foldl (fun checked rule => rule.check checked) ⟨ds, []⟩

/-! ## Imports exist -/

/-- The findings on a definition that imports fields from types that do not exist. -/
def missingImports (types : List String) (d : Definition m) : List Diagnostic :=
  (d.fieldImports.filter (fun i => !types.contains i.target)).map fun i =>
    .ofDefinition .importsExist d "Field import" i.target

/-- Every field import, also one of a directive, names a type that exists. -/
def Rule.importsExist : Rule m where
  name := "field_imports_exist"
  check c :=
    let types := Definition.typeIdentifiers c.definitions
    { c with diagnostics := c.diagnostics ++ c.definitions.flatMap (missingImports types) }

/-! ## Imports are acyclic, and are carried out -/

/-- Adds the fields of an import, in their order: those that are not excepted and whose identifier is not
taken. -/
def addFields (except : List String) (fields imported : List Field) : List Field :=
  imported.foldl
    (fun fields f =>
      if except.contains f.identifier || fields.any (·.identifier == f.identifier) then fields
      else fields ++ [f])
    fields

/-- The fields of a definition and after them those it imports, import by import; `table` holds the
complete fields of the types that can be imported from. -/
def mergedFields (table : SortedMap (List Field)) (d : Definition m) : List Field :=
  d.fieldImports.foldl
    (fun fields i =>
      match table.get? i.target with
      | some imported => addFields i.except fields imported
      | none => fields)
    d.fields

/-- The complete fields of the types named in `order`, each computed from those before it. Where several
definitions have one identifier, the first one counts. -/
def resolveFields (ds : List (Definition m)) (order : List String) : SortedMap (List Field) :=
  order.foldl
    (fun table identifier =>
      match ds.find? (Definition.isTypeNamed identifier) with
      | some d => table.insert identifier (mergedFields table d)
      | none => table)
    ∅

/-- The definition with the fields it imports. -/
def importFields (table : SortedMap (List Field)) (d : Definition m) : Definition m :=
  if d.isType && !d.fieldImports.isEmpty then d.withFields (mergedFields table d) else d

/-- No type takes part in a cycle of field imports. Those that do are left out, with one finding each;
the imports of the others are carried out. -/
def Rule.importsAcyclic : Rule m where
  name := "no_circular_field_imports"
  check c :=
    let graph := ImportGraph.ofDefinitions c.definitions
    let cyclic := graph.cyclic
    let isCyclic (d : Definition m) : Bool := d.isType && cyclic.contains d.identifier
    let kept := c.definitions.filter (fun d => !isCyclic d)
    let table := resolveFields kept (graph.order?.getD [])
    { definitions := kept.map (importFields table)
      diagnostics := c.diagnostics ++ (c.definitions.filter isCyclic).map fun d =>
        .ofDefinition .importsAcyclic d "Field import cycle" d.identifier }

/-- The built-in rules in their usual order. -/
def Rule.standard : List (Rule m) := [importsExist, importsAcyclic]

end SchemaRegistry
