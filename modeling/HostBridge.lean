import HostBridge.AddressSpace
import HostBridge.Bytes
import HostBridge.Checkpoint
import HostBridge.Code.Basic
import HostBridge.Code.Dump
import HostBridge.Code.Emit
import HostBridge.Code.Verify
import HostBridge.CommandLine.Arguments
import HostBridge.CommandLine.Folder
import HostBridge.CommandLine.Label
import HostBridge.CommandLine.Run
import HostBridge.CommandLine.System
import HostBridge.Config
import HostBridge.Drill
import HostBridge.Environment
import HostBridge.Environment.Source
import HostBridge.Error
import HostBridge.Host.Registry
import HostBridge.Host.Script
import HostBridge.Host.Stock
import HostBridge.Json.Reader
import HostBridge.Json.Surplus
import HostBridge.Json.Token
import HostBridge.Json.Value
import HostBridge.Json.Writer
import HostBridge.Layout
import HostBridge.Layout.Manifest
import HostBridge.Machine.Activation
import HostBridge.Machine.State
import HostBridge.Machine.Step
import HostBridge.Machine.Storage
import HostBridge.Main
import HostBridge.Opcode
import HostBridge.Probe
import HostBridge.Proofs.Acceptance
import HostBridge.Proofs.Accesses
import HostBridge.Proofs.Anchors
import HostBridge.Proofs.Blame
import HostBridge.Proofs.Bodies
import HostBridge.Proofs.BodyChecks
import HostBridge.Proofs.BodyRuns
import HostBridge.Proofs.Buffers
import HostBridge.Proofs.ByteLoads
import HostBridge.Proofs.CallInvariant
import HostBridge.Proofs.Calls
import HostBridge.Proofs.Checkpoints
import HostBridge.Proofs.CommandLines
import HostBridge.Proofs.Consistency
import HostBridge.Proofs.Context
import HostBridge.Proofs.Delivery
import HostBridge.Proofs.Differences
import HostBridge.Proofs.Dominance
import HostBridge.Proofs.Drafts
import HostBridge.Proofs.Fallible
import HostBridge.Proofs.Fields
import HostBridge.Proofs.Handles
import HostBridge.Proofs.HelperLimit
import HostBridge.Proofs.HostResults
import HostBridge.Proofs.Legibility
import HostBridge.Proofs.Marshalling
import HostBridge.Proofs.Numerals
import HostBridge.Proofs.Outcomes
import HostBridge.Proofs.Outside
import HostBridge.Proofs.Paths
import HostBridge.Proofs.Phrases
import HostBridge.Proofs.Pointers
import HostBridge.Proofs.Positions
import HostBridge.Proofs.Primitive
import HostBridge.Proofs.ProbeCode
import HostBridge.Proofs.ProbeRuns
import HostBridge.Proofs.Ranks
import HostBridge.Proofs.Reach
import HostBridge.Proofs.Registrations
import HostBridge.Proofs.Rejections
import HostBridge.Proofs.Rendering
import HostBridge.Proofs.Sharing
import HostBridge.Proofs.Signals
import HostBridge.Proofs.Slots
import HostBridge.Proofs.Snapshots
import HostBridge.Proofs.Stability
import HostBridge.Proofs.StoredForms
import HostBridge.Proofs.Strokes
import HostBridge.Proofs.Termination
import HostBridge.Proofs.Threading
import HostBridge.Proofs.Transcripts
import HostBridge.Proofs.Typing
import HostBridge.Proofs.Unwinding
import HostBridge.Proofs.Verified
import HostBridge.Proofs.Writing
import HostBridge.RuntimeBlock
import HostBridge.Status
import HostBridge.Text.Column
import HostBridge.Text.Quoted
import HostBridge.Text.Visible
import HostBridge.Value
import HostBridge.Word
