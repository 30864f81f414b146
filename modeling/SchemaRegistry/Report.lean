import SchemaRegistry.Registry.Basic
import SchemaRegistry.Fingerprint

/-!
# Reports

A report is the tables of a registry as plain data, with a fingerprint over them by which a copy can be
verified. In JSON the fingerprint stands among the tables, as the last member.
-/

namespace SchemaRegistry

open Json (Codec Fault Member Members Piece Reader Scope Tree Value)

variable {m : Type → Type}

/-- The tables of a registry. -/
structure Tables where
  /-- The declared names of the types by identifier. -/
  types : SortedMap String
  /-- The declared names of the directives by identifier. -/
  directives : SortedMap String
  implementors : SortedMap SortedSet
  exports : SortedSet
  diagnostics : List Diagnostic
deriving DecidableEq

namespace Tables

/-- The tables of a registry. -/
def ofRegistry (r : Registry m) : Tables :=
  ⟨r.types.names, r.directives.names, r.implementors, r.exports, r.diagnostics⟩

/-- The members of the tables in JSON. -/
def members : Members
    [SortedMap String, SortedMap String, SortedMap SortedSet, SortedSet, List Diagnostic] :=
  .cons (.required "types" (.map .string)) <|
    .cons (.required "directives" (.map .string)) <|
    .cons (.required "implementors" (.map .set)) <|
    .cons (.required "exports" .set) <|
    .cons (.required "errors" (.list Diagnostic.codec)) <| .nil

/-- Tables are represented as a record. -/
def codec : Codec Tables :=
  Codec.record "ReportTables" members
    (fun (types, directives, implementors, exports, diagnostics, _) =>
      ⟨types, directives, implementors, exports, diagnostics⟩)
    (fun t => (t.types, t.directives, t.implementors, t.exports, t.diagnostics, ()))

/-- The fingerprint of the tables. -/
def fingerprint (t : Tables) : Fingerprint := .ofValue (codec.write t)

end Tables

/-- Tables with a fingerprint. -/
structure Report where
  tables : Tables
  fingerprint : Fingerprint
deriving DecidableEq

namespace Report

/-- The report on a registry. -/
def ofRegistry (r : Registry m) : Report :=
  let tables := Tables.ofRegistry r
  ⟨tables, tables.fingerprint⟩

/-- Whether the fingerprint is that of the tables. -/
def verify (r : Report) : Bool := r.fingerprint.verifies (Tables.codec.write r.tables)

/-- The key of the fingerprint among the tables. -/
def fingerprintKey : String := "fingerprint"

/-- A report as a JSON value: the tables, and the fingerprint as the last member. -/
def write (r : Report) : Value :=
  match Tables.codec.write r.tables with
  | .object members => .object (members ++ [(fingerprintKey, Fingerprint.codec.write r.fingerprint)])
  | v => v

/-- Sets the members of a report aside, except the fingerprint, which is read as it comes: the tables can
be read only when all members are known. What is set aside has to be data that could be kept. -/
def setAside (s : Scope) (kept : List (List Piece × Tree)) (fingerprint : Option Fingerprint) :
    List (List Piece × Tree) → Except Fault (List (List Piece × Tree) × Option Fingerprint)
  | [] => .ok (kept.reverse, fingerprint)
  | (key, t) :: rest => do
    let name ← Json.spellString key
    if name = fingerprintKey then
      if fingerprint.isSome then throw (.duplicateField name)
      let f ← Fingerprint.codec.read s t
      setAside s kept (some f) rest
    else
      let _ ← Reader.data s t
      setAside s ((key, t) :: kept) fingerprint rest

/-- Checks the end of a report. -/
def checkEnd (fingerprint : Option Fingerprint) : Json.ObjectEnd → Except Fault Unit
  | .noColon key found => do
    let name ← Json.spellString key
    throw (if name = fingerprintKey ∧ fingerprint.isSome then .duplicateField name
      else Json.colonFault found)
  | ending => ending.check

/-- Reads a report. The fingerprint is missed before any table is looked at; keys that belong to no
table are ignored. -/
def read : Reader Report := fun s t =>
  match t with
  | .object members ending => do
    let inner ← s.enter
    let (kept, fingerprint) ← setAside inner [] none members
    checkEnd fingerprint ending
    let some fingerprint := fingerprint | throw (.missingField fingerprintKey)
    let tables ← Tables.codec.read ⟨127, .buffered⟩ (.object kept .closed)
    return ⟨tables, fingerprint⟩
  | t => Reader.mismatch "struct RegistryReport" t

/-- A report is represented by its tables and its fingerprint. -/
def codec : Codec Report := ⟨write, read⟩

/-- The report as JSON text over several lines. -/
def pretty (r : Report) : String := (codec.write r).pretty

end Report

end SchemaRegistry
