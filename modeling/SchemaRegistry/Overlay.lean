import SchemaRegistry.Definition

/-!
# Before the rules

Two changes to the list of definitions come before any check. Descriptions that were collected apart
from the definitions are written back to them. And the fields of the mutation type learn which fields of
the subscription type they fire, although the author writes that down at the subscription.

Both look at identifiers only, which neither changes.
-/

namespace SchemaRegistry

variable {m : Type → Type}

/-! ## Descriptions -/

/-- Descriptions by the identifier of the definition they belong to. -/
abbrev Descriptions := SortedMap String

namespace Definition

/-- The definition with the description that belongs to it, if there is one. -/
def describe (descriptions : Descriptions) (d : Definition m) : Definition m :=
  match descriptions.get? d.identifier with
  | some text => { d with description := some text }
  | none => d

/-- Describes every definition. -/
def describeAll (descriptions : Descriptions) (ds : List (Definition m)) : List (Definition m) :=
  ds.map (describe descriptions)

/-! ## Triggers -/

/-- The attribute under which a field of the mutation type lists what it fires. -/
def triggersKey : String := "triggers"

/-- The type with the given identifier, if there is exactly one. -/
def soleType? (ds : List (Definition m)) (identifier : String) : Option (Definition m) :=
  match ds.filter (isTypeNamed identifier) with
  | [d] => some d
  | _ => none

/-- The triggers of the subscription that a mutation field fires, in the order of the subscription's
fields and of their triggers: each as the subscription field and what the trigger hands on. -/
def firedBy (subscription : Definition m) (mutationField : String) : List Json.Data :=
  subscription.fields.flatMap fun f =>
    (f.triggers.filter (·.firesOn mutationField)).map fun t => .array [.text f.identifier, t.config]

/-- A mutation field with the list of what it fires; a field that fires nothing stays as it is. -/
def linkField (subscription : Definition m) (f : Field) : Field :=
  match firedBy subscription f.identifier with
  | [] => f
  | fired => { f with attrs := f.attrs.insert triggersKey (.array fired) }

/-- Links the fields of the mutation type to the triggers of the subscription type. Where one of the two
is missing or ambiguous, nothing is linked. -/
def linkTriggers (mutation subscription : String) (ds : List (Definition m)) :
    List (Definition m) :=
  match soleType? ds mutation, soleType? ds subscription with
  | some _, some s =>
    ds.map fun d =>
      if d.isTypeNamed mutation then d.withFields (d.fields.map (linkField s)) else d
  | _, _ => ds

end Definition

end SchemaRegistry
