import AppendLog.Bytes
import AppendLog.Text.Utf8
import AppendLog.Text.Hex
import AppendLog.Text.CharClass
import AppendLog.Text.Quoted
import AppendLog.Number.Kind
import AppendLog.Number.Binary
import AppendLog.Number.Decimal
import AppendLog.Shape.Basic
import AppendLog.Shape.Parser
import AppendLog.Json
import AppendLog.Value.Basic
import AppendLog.Value.Json
import AppendLog.Codec.Error
import AppendLog.Codec.Decoding
import AppendLog.Codec.Encoding
import AppendLog.Value.Wire
import AppendLog.Ty.Basic
import AppendLog.Ty.Datum
import AppendLog.Ty.Wire
import AppendLog.Buffer
import AppendLog.Storage.Error
import AppendLog.Storage.Memory
import AppendLog.Storage.File
import AppendLog.Storage.Medium
import AppendLog.Storage.Device
import AppendLog.Storage.Folder
import AppendLog.Log.Header
import AppendLog.Log.Meta
import AppendLog.Log.Error
import AppendLog.Log.Footer
import AppendLog.Log.Config
import AppendLog.Log.Ledger
import AppendLog.Log.Handle
import AppendLog.Log.Walk
import AppendLog.Command.Arguments
import AppendLog.Command.Failure
import AppendLog.Command.Inspect
import AppendLog.Command.Verify
import AppendLog.Command.Dump
import AppendLog.Command.Run
import AppendLog.Main
import AppendLog.Proofs.Overlay
import AppendLog.Proofs.Media
import AppendLog.Proofs.Running
import AppendLog.Proofs.Script
import AppendLog.Proofs.Inversion
import AppendLog.Proofs.Encodings
import AppendLog.Proofs.Canonical
import AppendLog.Proofs.Buffers
import AppendLog.Proofs.Layout
import AppendLog.Proofs.Records
import AppendLog.Proofs.Commit
import AppendLog.Proofs.Handles
import AppendLog.Proofs.Entries
import AppendLog.Proofs.Session
import AppendLog.Proofs.Operations
import AppendLog.Proofs.Mirrors
import AppendLog.Proofs.Walking
import AppendLog.Proofs.ReadPaths
import AppendLog.Proofs.Refinement
import AppendLog.Proofs.Paths
import AppendLog.Proofs.Files
import AppendLog.Proofs.Rollback
import AppendLog.Proofs.Reached
import AppendLog.Proofs.FailedWrites
import AppendLog.Proofs.Reopening
import AppendLog.Proofs.SingleFaults
import AppendLog.Proofs.Recovery
import AppendLog.Proofs.CrashStates
import AppendLog.Proofs.Crash
import AppendLog.Proofs.Typing
import AppendLog.Proofs.RoundTrip
import AppendLog.Proofs.Narrowing
import AppendLog.Proofs.NormalForm
import AppendLog.Proofs.Shaped
import AppendLog.Proofs.Agreement
import AppendLog.Proofs.WireForm
import AppendLog.Proofs.Sizes
import AppendLog.Proofs.Reencoding
import AppendLog.Proofs.Acceptance
import AppendLog.Proofs.Grammar
import AppendLog.Proofs.Parsing
import AppendLog.Proofs.Printing
import AppendLog.Proofs.Accounting
import AppendLog.Proofs.Strays
import AppendLog.Proofs.Stores
import AppendLog.Proofs.ReadOnly
import AppendLog.Proofs.Sites
import AppendLog.Proofs.Verdicts
import AppendLog.Proofs.Bookkeeping
import AppendLog.Proofs.Readers
import AppendLog.Proofs.Windows
import AppendLog.Proofs.Sequences
import AppendLog.Proofs.ExactForms
import AppendLog.Proofs.Words
import AppendLog.Proofs.Extents
import AppendLog.Proofs.Framing
import AppendLog.Proofs.Octets
import AppendLog.Proofs.Slicing
import AppendLog.Proofs.DecoderCalls
import AppendLog.Proofs.Boundaries
