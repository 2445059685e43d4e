import DiskArray.Backing.Basic
import DiskArray.Backing.Faulty
import DiskArray.Backing.Image
import DiskArray.Backing.Memory
import DiskArray.Block
import DiskArray.Boot
import DiskArray.Cache.Basic
import DiskArray.Cache.Error
import DiskArray.Cache.Policy
import DiskArray.Cache.Statistics
import DiskArray.Config
import DiskArray.Device.Basic
import DiskArray.Device.Command
import DiskArray.Device.Error
import DiskArray.Device.Faulty
import DiskArray.Device.Operation
import DiskArray.Driver.Basic
import DiskArray.Driver.Chunk
import DiskArray.Driver.Error
import DiskArray.Fault
import DiskArray.Files.Error
import DiskArray.Files.File
import DiskArray.Files.Store
import DiskArray.Geometry
import DiskArray.Log
import DiskArray.Main
import DiskArray.Outcome
import DiskArray.Program
import DiskArray.Proofs.Backing.Image
import DiskArray.Proofs.Backing.Lawful
import DiskArray.Proofs.Backing.Memory
import DiskArray.Proofs.Boot
import DiskArray.Proofs.Cache.Calls
import DiskArray.Proofs.Cache.Coherence
import DiskArray.Proofs.Cache.Effect
import DiskArray.Proofs.Cache.Freshness
import DiskArray.Proofs.Cache.Inclusion
import DiskArray.Proofs.Cache.Keep
import DiskArray.Proofs.Cache.LastUse
import DiskArray.Proofs.Cache.Operations
import DiskArray.Proofs.Cache.Recency
import DiskArray.Proofs.Cache.Records
import DiskArray.Proofs.Cache.Resize
import DiskArray.Proofs.Cache.Scan
import DiskArray.Proofs.Cache.Slots
import DiskArray.Proofs.Cache.Touch
import DiskArray.Proofs.Cache.WellFormed
import DiskArray.Proofs.Config
import DiskArray.Proofs.Device.Calls
import DiskArray.Proofs.Device.Cursor
import DiskArray.Proofs.Device.Effect
import DiskArray.Proofs.Device.Frame
import DiskArray.Proofs.Device.Image
import DiskArray.Proofs.Device.Mirror
import DiskArray.Proofs.Device.View
import DiskArray.Proofs.Driver.Access
import DiskArray.Proofs.Driver.Blank
import DiskArray.Proofs.Driver.Calls
import DiskArray.Proofs.Driver.Codes
import DiskArray.Proofs.Driver.InStep
import DiskArray.Proofs.Driver.Inclusion
import DiskArray.Proofs.Driver.Lockstep
import DiskArray.Proofs.Driver.Partition
import DiskArray.Proofs.Driver.Refinement
import DiskArray.Proofs.Driver.Reliable
import DiskArray.Proofs.Driver.Run
import DiskArray.Proofs.Driver.Signing
import DiskArray.Proofs.Driver.Traffic
import DiskArray.Proofs.Driver.Transfer
import DiskArray.Proofs.Driver.Validation
import DiskArray.Proofs.Driver.Writing
import DiskArray.Proofs.Files.File
import DiskArray.Proofs.Files.Lookup
import DiskArray.Proofs.Files.Path
import DiskArray.Proofs.Files.Store
import DiskArray.Proofs.Flat
import DiskArray.Proofs.Outcome
import DiskArray.Proofs.Shell.Execute
import DiskArray.Proofs.Shell.Format
import DiskArray.Proofs.Shell.Grammar
import DiskArray.Proofs.Shell.History
import DiskArray.Proofs.Shell.Loop
import DiskArray.Proofs.Shell.Permission
import DiskArray.Proofs.Shell.Persistence
import DiskArray.Proofs.Shell.Start
import DiskArray.Proofs.Shell.Stored
import DiskArray.Proofs.Shell.Transfer
import DiskArray.Proofs.Shell.Transparency
import DiskArray.Proofs.Shell.Turns
import DiskArray.Proofs.Signature.Codec
import DiskArray.Proofs.Signature.Sidecar
import DiskArray.Proofs.Signature.Table
import DiskArray.Proofs.Text.Blank
import DiskArray.Proofs.Text.HexDump
import DiskArray.Proofs.Text.Number
import DiskArray.Proofs.Text.Numeral
import DiskArray.Sha256
import DiskArray.Shell.Command
import DiskArray.Shell.Execute
import DiskArray.Shell.Grammar
import DiskArray.Shell.Help
import DiskArray.Shell.Output
import DiskArray.Shell.Session
import DiskArray.Signature.Codec
import DiskArray.Signature.Sidecar
import DiskArray.Signature.Table
import DiskArray.Text.Blank
import DiskArray.Text.HexDump
import DiskArray.Text.Number
import DiskArray.Text.Numeral
import DiskArray.Text.Percent
import DiskArray.Text.Style
