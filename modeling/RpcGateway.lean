import RpcGateway.Call
import RpcGateway.Call.Dial
import RpcGateway.Call.Path
import RpcGateway.Cli.Command
import RpcGateway.Cli.CommandLine
import RpcGateway.Cli.Error
import RpcGateway.Cli.Grammar
import RpcGateway.Cli.Help
import RpcGateway.Cli.Run
import RpcGateway.Cli.Scan
import RpcGateway.Cli.Value
import RpcGateway.Disk
import RpcGateway.Duration
import RpcGateway.Endpoint
import RpcGateway.Export
import RpcGateway.Gateway.Description
import RpcGateway.Gateway.Failure
import RpcGateway.Gateway.Metadata
import RpcGateway.Gateway.Protocol
import RpcGateway.Gateway.Relay
import RpcGateway.Gateway.Route
import RpcGateway.Gateway.Settings
import RpcGateway.Gateway.WebCall
import RpcGateway.Header
import RpcGateway.Header.Known
import RpcGateway.Headers
import RpcGateway.Http.Message
import RpcGateway.Idl
import RpcGateway.Idl.OfSchema
import RpcGateway.Idl.Printer
import RpcGateway.Link
import RpcGateway.Main
import RpcGateway.Net.Address
import RpcGateway.Net.Socket
import RpcGateway.Network
import RpcGateway.Proofs.Call.Path
import RpcGateway.Proofs.Disk.Changes
import RpcGateway.Proofs.Export.Confinement
import RpcGateway.Proofs.Export.Contents
import RpcGateway.Proofs.Export.Repeating
import RpcGateway.Proofs.Export.Stopping
import RpcGateway.Proofs.Export.Writing
import RpcGateway.Proofs.Gateway.Destination
import RpcGateway.Proofs.Gateway.Detection
import RpcGateway.Proofs.Gateway.Forwarding
import RpcGateway.Proofs.Gateway.Harmless
import RpcGateway.Proofs.Gateway.Metadata
import RpcGateway.Proofs.Gateway.Relaying
import RpcGateway.Proofs.Gateway.Transparency
import RpcGateway.Proofs.Idl.Blocks
import RpcGateway.Proofs.Idl.Lines
import RpcGateway.Proofs.Idl.Literal
import RpcGateway.Proofs.Idl.Printable
import RpcGateway.Proofs.Idl.Printing
import RpcGateway.Proofs.Idl.Text
import RpcGateway.Proofs.Idl.Words
import RpcGateway.Proofs.Outcome
import RpcGateway.Proofs.Reflection.BreadthFirst
import RpcGateway.Proofs.Reflection.Closing
import RpcGateway.Proofs.Reflection.Coverage
import RpcGateway.Proofs.Reflection.Exchange
import RpcGateway.Proofs.Reflection.Lockstep
import RpcGateway.Proofs.Reflection.Orderly
import RpcGateway.Proofs.Reflection.Reachability
import RpcGateway.Proofs.Reflection.Reporting
import RpcGateway.Proofs.Reflection.Requests
import RpcGateway.Proofs.Reflection.Run
import RpcGateway.Proofs.Reflection.Script
import RpcGateway.Proofs.Reflection.Sessions
import RpcGateway.Proofs.Reflection.Tolerance
import RpcGateway.Proofs.Reflection.Walk
import RpcGateway.Proofs.Schema.Closure
import RpcGateway.Proofs.Schema.Emission
import RpcGateway.Proofs.Schema.FirstWins
import RpcGateway.Proofs.Schema.Layout
import RpcGateway.Proofs.Schema.Maps
import RpcGateway.Proofs.Schema.Placement
import RpcGateway.Proofs.Schema.Reading
import RpcGateway.Proofs.Schema.References
import RpcGateway.Proofs.Schema.Rendering
import RpcGateway.Proofs.Schema.Scoping
import RpcGateway.Proofs.Schema.Shape
import RpcGateway.Proofs.Schema.Slots
import RpcGateway.Proofs.Schema.TypeNames
import RpcGateway.Proofs.Schema.Typing
import RpcGateway.Proofs.Sweep
import RpcGateway.Proofs.Target
import RpcGateway.Proofs.Target.Encryption
import RpcGateway.Proofs.Target.Origin
import RpcGateway.Proofs.Target.Port
import RpcGateway.Proofs.Text.Ascii
import RpcGateway.Proofs.Text.Base64
import RpcGateway.Proofs.Text.Base64.Canonical
import RpcGateway.Proofs.Text.Blank
import RpcGateway.Proofs.Text.Numeral
import RpcGateway.Proofs.Text.Percent
import RpcGateway.Proofs.Text.Unambiguous
import RpcGateway.Proofs.Text.Utf8
import RpcGateway.Proofs.Uri.Authority
import RpcGateway.Proofs.Uri.Reading
import RpcGateway.Proofs.Uri.Scan
import RpcGateway.Proofs.Web.Framing
import RpcGateway.Proofs.Web.Payload
import RpcGateway.Proofs.Web.Records
import RpcGateway.Proofs.Web.TextBody
import RpcGateway.Proofs.Web.TrailerLines
import RpcGateway.Proofs.Web.Trailers
import RpcGateway.Reflection.Discovery
import RpcGateway.Reflection.Error
import RpcGateway.Reflection.Message
import RpcGateway.Reflection.Server
import RpcGateway.Reflection.Session
import RpcGateway.Sample.Echo
import RpcGateway.Sample.Reflection
import RpcGateway.Schema.Closure
import RpcGateway.Schema.Codec
import RpcGateway.Schema.File
import RpcGateway.Schema.Format
import RpcGateway.Schema.Membership
import RpcGateway.Status
import RpcGateway.Sweep
import RpcGateway.Target
import RpcGateway.Text.Base64
import RpcGateway.Text.Blank
import RpcGateway.Text.Cut
import RpcGateway.Text.Hidden
import RpcGateway.Text.Json
import RpcGateway.Text.Numeral
import RpcGateway.Text.Percent
import RpcGateway.Text.Quoted
import RpcGateway.Text.Utf8
import RpcGateway.Uri
import RpcGateway.Uri.Authority
import RpcGateway.Uri.Error
import RpcGateway.Uri.HostName
import RpcGateway.Uri.PathAndQuery
import RpcGateway.Web.Body
import RpcGateway.Web.Frame
import RpcGateway.Web.Trailers
import RpcGateway.Wire
import RpcGateway.Wire.Reader
import RpcGateway.Wire.Record
