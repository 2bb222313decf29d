import EntityStore.Binary.Double
import EntityStore.Binary.Format
import EntityStore.Bridge.Channel
import EntityStore.Bridge.Delivery
import EntityStore.Bridge.Engine
import EntityStore.Bridge.Execution
import EntityStore.Bridge.InputFormat
import EntityStore.Bridge.Intake
import EntityStore.Bridge.OutputFormat
import EntityStore.Bridge.Sink
import EntityStore.Bridge.Source
import EntityStore.Cbor.Reader
import EntityStore.Cbor.Writer
import EntityStore.Client
import EntityStore.Client.Log
import EntityStore.Client.Memory
import EntityStore.Client.Script
import EntityStore.Command.Arguments
import EntityStore.Command.Check
import EntityStore.Command.Copy
import EntityStore.Command.Failure
import EntityStore.Command.Lines
import EntityStore.Command.Run
import EntityStore.Decimal.Layout
import EntityStore.Decimal.Natural
import EntityStore.Decimal.Shortest
import EntityStore.Entity.Basic
import EntityStore.Entity.Untyped
import EntityStore.Entity.User
import EntityStore.Error
import EntityStore.FileTree
import EntityStore.Job
import EntityStore.Json.Basic
import EntityStore.Json.Numeral
import EntityStore.Json.Printer
import EntityStore.Json.Shape
import EntityStore.Json.Token
import EntityStore.Json.Written
import EntityStore.Main
import EntityStore.MappedStore
import EntityStore.Mapping.Document
import EntityStore.Mapping.Resolved
import EntityStore.Mapping.Source
import EntityStore.Operation
import EntityStore.OrderedMap
import EntityStore.Policy
import EntityStore.Proofs.Binary.Exact
import EntityStore.Proofs.Bridge.Batches
import EntityStore.Proofs.Bridge.BoundedSource
import EntityStore.Proofs.Bridge.Construction
import EntityStore.Proofs.Bridge.Delivery
import EntityStore.Proofs.Bridge.Engine
import EntityStore.Proofs.Bridge.SequentialCopy
import EntityStore.Proofs.Bridge.Stage
import EntityStore.Proofs.Cbor.Depth
import EntityStore.Proofs.Cbor.Encoding
import EntityStore.Proofs.Cbor.Field
import EntityStore.Proofs.Cbor.Head
import EntityStore.Proofs.Cbor.RoundTrip
import EntityStore.Proofs.Command.Copy
import EntityStore.Proofs.Decimal.Natural
import EntityStore.Proofs.Entity.LawfulKey
import EntityStore.Proofs.Entity.User
import EntityStore.Proofs.Json.Canonical
import EntityStore.Proofs.Json.Nesting
import EntityStore.Proofs.Json.Scalar
import EntityStore.Proofs.Json.Shape
import EntityStore.Proofs.Mapping.Binding
import EntityStore.Proofs.Mapping.Carrying
import EntityStore.Proofs.Mapping.InForce
import EntityStore.Proofs.Mapping.LastSegment
import EntityStore.Proofs.Mapping.Names
import EntityStore.Proofs.Mapping.Reduced
import EntityStore.Proofs.Mapping.Refusal
import EntityStore.Proofs.Memory.Address
import EntityStore.Proofs.Memory.Basic
import EntityStore.Proofs.Memory.ConditionalWrite
import EntityStore.Proofs.Memory.History
import EntityStore.Proofs.Memory.InPlace
import EntityStore.Proofs.Memory.Independence
import EntityStore.Proofs.Memory.Put
import EntityStore.Proofs.Memory.Related
import EntityStore.Proofs.OrderedMap
import EntityStore.Proofs.OrderedMap.Related
import EntityStore.Proofs.Serializer.Codec
import EntityStore.Proofs.Serializer.Image
import EntityStore.Proofs.Serializer.Native
import EntityStore.Proofs.Store.Agreement
import EntityStore.Proofs.Store.Call
import EntityStore.Proofs.Store.Dialogue
import EntityStore.Proofs.Store.Failure
import EntityStore.Proofs.Store.FieldNames
import EntityStore.Proofs.Store.Fits
import EntityStore.Proofs.Store.GenerationCheck
import EntityStore.Proofs.Store.Isolation
import EntityStore.Proofs.Store.Issued
import EntityStore.Proofs.Store.KeysApart
import EntityStore.Proofs.Store.Opening
import EntityStore.Proofs.Store.OpeningDialogue
import EntityStore.Proofs.Store.Reading
import EntityStore.Proofs.Store.Refinement
import EntityStore.Proofs.Store.Request
import EntityStore.Proofs.Store.SchemaLifecycle
import EntityStore.Proofs.Store.Settled
import EntityStore.Proofs.Store.Table
import EntityStore.Proofs.Store.Transfer
import EntityStore.Proofs.Store.Users
import EntityStore.Proofs.Text.Order
import EntityStore.Proofs.Text.Trim
import EntityStore.Record
import EntityStore.Record.Description
import EntityStore.Serializer.Basic
import EntityStore.Serializer.Native
import EntityStore.StoreConfig
import EntityStore.Text.Blank
import EntityStore.Text.Octets
import EntityStore.Text.Quoted
import EntityStore.Text.Shown
import EntityStore.TypeName
import EntityStore.Value
import EntityStore.Yaml.Cursor
import EntityStore.Yaml.Decode
import EntityStore.Yaml.Node.Basic
import EntityStore.Yaml.Node.Grammar
import EntityStore.Yaml.Scalar
import EntityStore.Yaml.Tag
import EntityStore.Yaml.Token.Basic
import EntityStore.Yaml.Token.Block
import EntityStore.Yaml.Token.Label
import EntityStore.Yaml.Token.Plain
import EntityStore.Yaml.Token.Quoted
import EntityStore.Yaml.Token.Stream
