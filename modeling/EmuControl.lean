import EmuControl.Client.Basic
import EmuControl.Client.Configuration
import EmuControl.Client.Error
import EmuControl.Client.Orchestration
import EmuControl.Client.Service
import EmuControl.Client.Session
import EmuControl.Client.Topology
import EmuControl.CommandLine.Arguments
import EmuControl.CommandLine.Command
import EmuControl.CommandLine.Grammar
import EmuControl.CommandLine.Help
import EmuControl.CommandLine.Invocation
import EmuControl.CommandLine.Run
import EmuControl.Daemon.Error
import EmuControl.Daemon.FileSystem
import EmuControl.Daemon.Program
import EmuControl.Daemon.Recording
import EmuControl.Daemon.Transport
import EmuControl.Document.Basic
import EmuControl.Document.Model
import EmuControl.Document.Record
import EmuControl.Json.Numeral
import EmuControl.Json.Reader
import EmuControl.Json.Token
import EmuControl.Json.Writer
import EmuControl.Log
import EmuControl.Main
import EmuControl.Mapping.Configuration
import EmuControl.Mapping.Enumeration
import EmuControl.Mapping.Error
import EmuControl.Mapping.Link
import EmuControl.Mapping.Node
import EmuControl.Mapping.Service
import EmuControl.Mapping.Session
import EmuControl.Model.Configuration
import EmuControl.Model.Hook
import EmuControl.Model.Link
import EmuControl.Model.Node
import EmuControl.Model.Service
import EmuControl.Model.Session
import EmuControl.Network.Address
import EmuControl.Network.Endpoint
import EmuControl.Network.Uri
import EmuControl.Number.Binary
import EmuControl.Number.Decimal
import EmuControl.Number.Integer
import EmuControl.Options.Record
import EmuControl.Options.Schema
import EmuControl.Options.Values
import EmuControl.Order.SortedMap
import EmuControl.Proofs.LinkMapping
import EmuControl.Proofs.Operation
import EmuControl.Proofs.OptionSchema
import EmuControl.Proofs.StartPlan
import EmuControl.Proofs.Workflow
import EmuControl.Proofs.Trace
import EmuControl.ServiceUpdate.Definition
import EmuControl.ServiceUpdate.Line
import EmuControl.Settings
import EmuControl.Table.Layout
import EmuControl.Table.View
import EmuControl.Text.Blank
import EmuControl.Text.Hex
import EmuControl.Text.Line
import EmuControl.Text.Printable
import EmuControl.Text.Quoted
import EmuControl.Text.Ranges
import EmuControl.Text.Search
import EmuControl.Text.Utf8
import EmuControl.Text.Width
import EmuControl.Toml.Reader
import EmuControl.Toml.Scalar
import EmuControl.Toml.Text
import EmuControl.Toml.Tree
import EmuControl.Toml.Writer
import EmuControl.Topology.Basic
import EmuControl.Topology.File
import EmuControl.Wire.Catalogue
import EmuControl.Wire.Message.Configuration
import EmuControl.Wire.Message.Service
import EmuControl.Wire.Message.Session
import EmuControl.Wire.Message.Topology
import EmuControl.Wire.Method
import EmuControl.Wire.Record
import EmuControl.Wire.Schema
import EmuControl.Wire.Varint
import EmuControl.Wire.View
import EmuControl.Workflow.Error
import EmuControl.Workflow.Session
import EmuControl.Proofs.SessionScope
import EmuControl.Proofs.SingleCall
import EmuControl.Proofs.ValidatedStart
import EmuControl.Proofs.SessionContext
import EmuControl.Proofs.BinaryConversion
import EmuControl.Proofs.DecimalInteger
import EmuControl.Proofs.SortedLookup
import EmuControl.Proofs.SortedOrder
import EmuControl.Proofs.StartOutcome
import EmuControl.Proofs.TopologyMapping
import EmuControl.Proofs.WireRecord
import EmuControl.Proofs.SchemaRoundTrip
import EmuControl.Proofs.MessageRoundTrip
import EmuControl.Proofs.OptionCodec
import EmuControl.Proofs.FieldPresence
import EmuControl.Proofs.Deed
import EmuControl.Proofs.ChannelTransparency
import EmuControl.Proofs.ExitStatus
import EmuControl.Proofs.OptionRecord
import EmuControl.Proofs.OptionWriteBack
import EmuControl.Proofs.RecordingHistory
import EmuControl.Proofs.DocumentReading
import EmuControl.Proofs.JsonText
import EmuControl.Proofs.TomlString
import EmuControl.Proofs.TomlStatement
import EmuControl.Proofs.TomlSections
import EmuControl.Proofs.TopologyFile
import EmuControl.Proofs.WordSearch
import EmuControl.Proofs.TextLines
import EmuControl.Proofs.EndpointTarget
import EmuControl.Proofs.SessionSnapshot
import EmuControl.Proofs.TopologyValidation
import EmuControl.Proofs.ServiceImport
import EmuControl.Proofs.RecordMapping
import EmuControl.Proofs.OptionExtraction
import EmuControl.Proofs.OptionGrouping
import EmuControl.Proofs.BinaryRounding
import EmuControl.Proofs.ShortestDecimal
import EmuControl.Proofs.DecimalText
import EmuControl.Proofs.JsonNumeral
import EmuControl.Proofs.TomlNumber
import EmuControl.Proofs.TopologyConversion
import EmuControl.Proofs.ServiceRule
import EmuControl.Proofs.DroppedLine
import EmuControl.Proofs.UpdateFixpoint
import EmuControl.Proofs.ListReading
import EmuControl.Proofs.IntegerText
import EmuControl.Proofs.ServiceCatalogue
import EmuControl.Proofs.UpdateLocality
