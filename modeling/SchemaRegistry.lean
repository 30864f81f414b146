import SchemaRegistry.Command.Run
import SchemaRegistry.Main
import SchemaRegistry.Rule.Revision
import SchemaRegistry.Workbench
import SchemaRegistry.Proofs.SortedMap
import SchemaRegistry.Proofs.Assembly
import SchemaRegistry.Proofs.Validity
import SchemaRegistry.Proofs.Service
import SchemaRegistry.Proofs.Conservation
import SchemaRegistry.Proofs.Registry.Notes
import SchemaRegistry.Proofs.Registry.Invariant
import SchemaRegistry.Proofs.Registry.Ledger
import SchemaRegistry.Proofs.Registry.Lookup
import SchemaRegistry.Proofs.Definition.Rearrangement
import SchemaRegistry.Proofs.OrderIndependence
import SchemaRegistry.Proofs.Linking
import SchemaRegistry.Proofs.Separation
import SchemaRegistry.Proofs.Report
import SchemaRegistry.Proofs.Registry.Uniqueness
import SchemaRegistry.Proofs.ImportTarget
import SchemaRegistry.Proofs.Exports
import SchemaRegistry.Proofs.Document
import SchemaRegistry.Proofs.RoundTrip
import SchemaRegistry.Proofs.Verdict
import SchemaRegistry.Proofs.ImportChain
import SchemaRegistry.Proofs.SettledImports
import SchemaRegistry.Proofs.RootTypes
import SchemaRegistry.Proofs.Registry.Refusal
import SchemaRegistry.Proofs.Registry.Extension
import SchemaRegistry.Proofs.Registry.Materialization
import SchemaRegistry.Proofs.Relay
import SchemaRegistry.Proofs.Definition.Idempotence
import SchemaRegistry.Proofs.Resolution
import SchemaRegistry.Proofs.Listing
import SchemaRegistry.Proofs.DocumentForms
import SchemaRegistry.Proofs.Config.Saving
import SchemaRegistry.Proofs.Config.Variables
import SchemaRegistry.Proofs.ImportGraph.AcyclicPart
import SchemaRegistry.Proofs.Rule.Revision
import SchemaRegistry.Proofs.Workbench.Session
