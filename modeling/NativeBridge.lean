import NativeBridge.Call.Access
import NativeBridge.Call.Body
import NativeBridge.Call.Boundary
import NativeBridge.Call.Convert
import NativeBridge.Call.Entry
import NativeBridge.Call.Services
import NativeBridge.Catalog.Behaviour
import NativeBridge.Catalog.Constructors
import NativeBridge.Catalog.Functions
import NativeBridge.Catalog.Host
import NativeBridge.Catalog.Members
import NativeBridge.Catalog.Specimen
import NativeBridge.Catalog.Types
import NativeBridge.Decimal.Binary64
import NativeBridge.Decimal.Plain
import NativeBridge.Decimal.Shortest
import NativeBridge.Doc
import NativeBridge.Engine.Basic
import NativeBridge.Engine.Config
import NativeBridge.Engine.Declare
import NativeBridge.Engine.Environment
import NativeBridge.Error
import NativeBridge.Flags
import NativeBridge.Handle
import NativeBridge.Hash.NameHash
import NativeBridge.Hash.XxHash64
import NativeBridge.Native.Accepts
import NativeBridge.Native.Class
import NativeBridge.Native.Info
import NativeBridge.Native.Layout
import NativeBridge.Native.Type
import NativeBridge.Native.Value
import NativeBridge.Native.ValueSlot
import NativeBridge.Object.Heap
import NativeBridge.Object.Model
import NativeBridge.Object.Table
import NativeBridge.Proofs.Call.Agreement
import NativeBridge.Proofs.Call.Congruence
import NativeBridge.Proofs.Call.Constness
import NativeBridge.Proofs.Call.Conversions
import NativeBridge.Proofs.Call.Demands
import NativeBridge.Proofs.Call.Frame
import NativeBridge.Proofs.Call.Hold
import NativeBridge.Proofs.Call.Local
import NativeBridge.Proofs.Call.Moves
import NativeBridge.Proofs.Call.PreCheck
import NativeBridge.Proofs.Call.PureData
import NativeBridge.Proofs.Call.Reading
import NativeBridge.Proofs.Call.Recounts
import NativeBridge.Proofs.Call.RoundTrip
import NativeBridge.Proofs.Call.SentArguments
import NativeBridge.Proofs.Call.Sinks
import NativeBridge.Proofs.Call.Start
import NativeBridge.Proofs.Call.Unique
import NativeBridge.Proofs.Engine.Bindings
import NativeBridge.Proofs.Engine.Building
import NativeBridge.Proofs.Engine.Calls
import NativeBridge.Proofs.Engine.Checks
import NativeBridge.Proofs.Engine.ClosedTypes
import NativeBridge.Proofs.Engine.ConstructImport
import NativeBridge.Proofs.Engine.Constructors
import NativeBridge.Proofs.Engine.Consumed
import NativeBridge.Proofs.Engine.DeclarationOrder
import NativeBridge.Proofs.Engine.Dispatch
import NativeBridge.Proofs.Engine.Entries
import NativeBridge.Proofs.Engine.Filings
import NativeBridge.Proofs.Engine.FirstError
import NativeBridge.Proofs.Engine.Gated
import NativeBridge.Proofs.Engine.Growth
import NativeBridge.Proofs.Engine.Identity
import NativeBridge.Proofs.Engine.Integrity
import NativeBridge.Proofs.Engine.Leaks
import NativeBridge.Proofs.Engine.MemberIds
import NativeBridge.Proofs.Engine.NestedMoves
import NativeBridge.Proofs.Engine.NestingDepth
import NativeBridge.Proofs.Engine.Orphans
import NativeBridge.Proofs.Engine.OverloadIds
import NativeBridge.Proofs.Engine.Points
import NativeBridge.Proofs.Engine.Rebuilding
import NativeBridge.Proofs.Engine.Recorded
import NativeBridge.Proofs.Engine.Reflected
import NativeBridge.Proofs.Engine.Refusals
import NativeBridge.Proofs.Engine.SingleRun
import NativeBridge.Proofs.Engine.Untouched
import NativeBridge.Proofs.Engine.ValueTypes
import NativeBridge.Proofs.Engine.WriteOnce
import NativeBridge.Proofs.Object.Handles
import NativeBridge.Proofs.Object.Identity
import NativeBridge.Proofs.Object.Ledger
import NativeBridge.Proofs.Object.Lifetime
import NativeBridge.Proofs.Object.Live
import NativeBridge.Proofs.Object.References
import NativeBridge.Proofs.Object.Sole
import NativeBridge.Proofs.Object.Sound
import NativeBridge.Proofs.Object.Typed
import NativeBridge.Proofs.Object.Undisturbed
import NativeBridge.Proofs.Registry.Acyclic
import NativeBridge.Proofs.Registry.Ancestors
import NativeBridge.Proofs.Registry.CycleSearch
import NativeBridge.Proofs.Registry.Declarations
import NativeBridge.Proofs.Registry.Exposed
import NativeBridge.Proofs.Registry.Linearization
import NativeBridge.Proofs.Registry.MemberLookup
import NativeBridge.Proofs.Registry.PathSearch
import NativeBridge.Proofs.Registry.Postorder
import NativeBridge.Proofs.Registry.Resemblance
import NativeBridge.Proofs.Registry.Superclasses
import NativeBridge.Proofs.Registry.Tags
import NativeBridge.Proofs.Registry.UpcastChains
import NativeBridge.Proofs.Registry.UpcastPaths
import NativeBridge.Registry.Basic
import NativeBridge.Registry.Class
import NativeBridge.Registry.Cycle
import NativeBridge.Registry.Exposure
import NativeBridge.Registry.Hierarchy
import NativeBridge.Registry.InPlace
import NativeBridge.Registry.Overload
import NativeBridge.Registry.Reflection
import NativeBridge.Registry.Signature
import NativeBridge.Registry.Slots
import NativeBridge.Registry.Types
import NativeBridge.Report
import NativeBridge.Session.Answer
import NativeBridge.Session.Callbacks
import NativeBridge.Session.Declaring
import NativeBridge.Session.Dump
import NativeBridge.Session.Engine
import NativeBridge.Session.Groups
import NativeBridge.Session.Objects
import NativeBridge.Session.Registry
import NativeBridge.Session.Request
import NativeBridge.Session.Script
import NativeBridge.Session.Table
import NativeBridge.Session.Values
import NativeBridge.Text.Hex
import NativeBridge.Text.Hidden
import NativeBridge.Text.Outline
import NativeBridge.Text.Quoted
import NativeBridge.Wire
