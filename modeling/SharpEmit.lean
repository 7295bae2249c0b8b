import SharpEmit.CSharp.Emission
import SharpEmit.CSharp.Naming
import SharpEmit.CSharp.Signature
import SharpEmit.CSharp.Target
import SharpEmit.CommandLine.Flag
import SharpEmit.CommandLine.Program
import SharpEmit.CommandLine.Settings
import SharpEmit.CommandLine.Word
import SharpEmit.Conversion.Batch
import SharpEmit.Conversion.Error
import SharpEmit.Conversion.Journal
import SharpEmit.Conversion.Single
import SharpEmit.Decimal.Binary64
import SharpEmit.Decimal.Shortest
import SharpEmit.Document.Error
import SharpEmit.Document.Pointer
import SharpEmit.Document.Reader
import SharpEmit.Json.Basic
import SharpEmit.Json.Display
import SharpEmit.Json.Printer
import SharpEmit.Json.Reader
import SharpEmit.LineBuffer
import SharpEmit.Literal
import SharpEmit.Main
import SharpEmit.Model.Declaration
import SharpEmit.Model.TypeRef
import SharpEmit.Proofs.CSharp.Bodies
import SharpEmit.Proofs.CSharp.Construction
import SharpEmit.Proofs.CSharp.Imports
import SharpEmit.Proofs.CSharp.Initializers
import SharpEmit.Proofs.CSharp.Layout
import SharpEmit.Proofs.CSharp.MethodNames
import SharpEmit.Proofs.CSharp.ReservedName
import SharpEmit.Proofs.CSharp.Signatures
import SharpEmit.Proofs.CSharp.TypeNames
import SharpEmit.Proofs.CSharp.Validity
import SharpEmit.Proofs.CSharp.VoidVariables
import SharpEmit.Proofs.CommandLine.Accounting
import SharpEmit.Proofs.CommandLine.DryRun
import SharpEmit.Proofs.Conversion.Atomicity
import SharpEmit.Proofs.Conversion.Confinement
import SharpEmit.Proofs.Conversion.FailFast
import SharpEmit.Proofs.Conversion.FirstFailure
import SharpEmit.Proofs.Conversion.Footprint
import SharpEmit.Proofs.Conversion.Idempotence
import SharpEmit.Proofs.Conversion.Independence
import SharpEmit.Proofs.Conversion.Interleaving
import SharpEmit.Proofs.Conversion.Isolation
import SharpEmit.Proofs.Conversion.Protection
import SharpEmit.Proofs.Conversion.Schedules
import SharpEmit.Proofs.Conversion.Separation
import SharpEmit.Proofs.Conversion.Steps
import SharpEmit.Proofs.Conversion.Success
import SharpEmit.Proofs.Document.Correspondence
import SharpEmit.Proofs.Document.Failure
import SharpEmit.Proofs.Document.Places
import SharpEmit.Proofs.Document.QualifiedNames
import SharpEmit.Proofs.Document.Resolution
import SharpEmit.Proofs.Document.RoundTrip
import SharpEmit.Proofs.Document.Scope
import SharpEmit.Proofs.Document.Spellings
import SharpEmit.Proofs.Literal
import SharpEmit.Proofs.Model.ReferenceWalk
import SharpEmit.Proofs.Rendering.Conservation
import SharpEmit.Proofs.Rendering.Layout
import SharpEmit.Proofs.Storage.Agreement
import SharpEmit.Proofs.Storage.Ancestry
import SharpEmit.Proofs.Storage.Directory
import SharpEmit.Proofs.Storage.Growth
import SharpEmit.Proofs.Storage.Interruption
import SharpEmit.Proofs.Storage.Normal
import SharpEmit.Proofs.Storage.Path
import SharpEmit.Proofs.Storage.Replacement
import SharpEmit.Proofs.Storage.Success
import SharpEmit.Proofs.Storage.Walk
import SharpEmit.Proofs.Text.Boundaries
import SharpEmit.Proofs.Text.Dotted
import SharpEmit.Rendering.Target
import SharpEmit.Rendering.Violation
import SharpEmit.Storage.Disk
import SharpEmit.Storage.Path
import SharpEmit.Storage.Replacement
import SharpEmit.Text.Blank
import SharpEmit.Text.Digit
import SharpEmit.Text.Dotted
import SharpEmit.Text.Integer
import SharpEmit.Text.Order
import SharpEmit.Text.Printable
import SharpEmit.Text.Quoted
import SharpEmit.Text.UpperCase
import SharpEmit.Text.Utf8
