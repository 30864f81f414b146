import SchemaRegistry.Config
import SchemaRegistry.Overlay
import SchemaRegistry.Report

/-!
# Assembly

The whole way from a list of definitions to a registry: descriptions are written back, triggers are
linked, the rules look at the result, and what they leave is registered. Nothing stops at the first
finding; all findings are in the registry.
-/

namespace SchemaRegistry

variable {m : Type → Type}

namespace Definition

/-- The definitions as the rules see them. -/
def prepare (schema : SchemaNames) (descriptions : Descriptions) (ds : List (Definition m)) :
    List (Definition m) :=
  linkTriggers schema.mutation schema.subscription (describeAll descriptions ds)

end Definition

namespace Registry

/-- Assembles definitions under the given rules. -/
def assembleWith (schema : SchemaNames) (rules : List (Rule m)) (descriptions : Descriptions)
    (ds : List (Definition m)) : Registry m :=
  let checked := Rule.runAll rules (Definition.prepare schema descriptions ds)
  .ofDefinitions schema.builtinSource checked.definitions checked.diagnostics

/-- Assembles definitions under the rules of a configuration. -/
def assemble (c : Config) (descriptions : Descriptions) (ds : List (Definition m)) : Registry m :=
  assembleWith c.schema c.ruleList descriptions ds

end Registry

end SchemaRegistry
