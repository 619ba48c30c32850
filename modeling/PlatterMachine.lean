import PlatterMachine.Console.Certificate
import PlatterMachine.Console.Session
import PlatterMachine.Interpreter
import PlatterMachine.Main
import PlatterMachine.Proofs.Action
import PlatterMachine.Proofs.HostCode.Emission
import PlatterMachine.Proofs.HostCode.Layout
import PlatterMachine.Proofs.HostCode.Patching
import PlatterMachine.Proofs.HostCode.Addressing
import PlatterMachine.Proofs.Engine.Fetch
import PlatterMachine.Proofs.Engine.Ticks
import PlatterMachine.Proofs.Engine.Table
import PlatterMachine.Proofs.Engine.Operations
import PlatterMachine.Proofs.Engine.Coherence
import PlatterMachine.Proofs.Engine.Amendment
import PlatterMachine.Proofs.Engine.CodeCache
import PlatterMachine.Proofs.Arena.Contents
import PlatterMachine.Proofs.Arena.Tiling
import PlatterMachine.Proofs.Arena.Traffic
import PlatterMachine.Proofs.Accounts
import PlatterMachine.Proofs.Engine.Ownership
import PlatterMachine.Proofs.Engine.Lifetime
import PlatterMachine.Proofs.Engine.Boundaries
import PlatterMachine.Proofs.Engine.Containment
import PlatterMachine.Proofs.Stream.Faltering
import PlatterMachine.Proofs.Engine.Quiet
import PlatterMachine.Proofs.Engine.Speech
import PlatterMachine.Proofs.Arena.Lending
import PlatterMachine.Proofs.Engine.Picture
import PlatterMachine.Proofs.Engine.Supply
import PlatterMachine.Proofs.Engine.Showing
import PlatterMachine.Proofs.Engine.Hosting
import PlatterMachine.Proofs.Engine.Executing
import PlatterMachine.Proofs.Engine.Routines
import PlatterMachine.Proofs.Engine.Instructions
import PlatterMachine.Proofs.Engine.Stepping
import PlatterMachine.Proofs.Engine.Poised
import PlatterMachine.Proofs.Engine.Refinement
import PlatterMachine.Proofs.Engine.Restoring
import PlatterMachine.Proofs.Engine.Suspension
import PlatterMachine.Proofs.Cbor.Reading
import PlatterMachine.Proofs.Snapshot.Record
import PlatterMachine.Proofs.Snapshot.Keys
import PlatterMachine.Proofs.Scroll
import PlatterMachine.Proofs.Snapshot.Entries
import PlatterMachine.Proofs.Snapshot.Shelf
import PlatterMachine.Proofs.Arena.Returns
import PlatterMachine.Proofs.Engine.Cancellation
import PlatterMachine.Proofs.Snapshot.Recovery
import PlatterMachine.Proofs.Command.Chain
import PlatterMachine.Proofs.Engine.Committing
import PlatterMachine.Proofs.Engine.Failing
import PlatterMachine.Proofs.Engine.LastEntry
import PlatterMachine.Proofs.Engine.Reuse
import PlatterMachine.Proofs.Engine.HandleTable
import PlatterMachine.Proofs.Engine.RoundTrip
import PlatterMachine.Proofs.Stream.Prospect
import PlatterMachine.Proofs.Arena.Usage
import PlatterMachine.Proofs.Arena.Acceptance
import PlatterMachine.Proofs.ScrollReading
import PlatterMachine.Proofs.Engine.HaltReport
import PlatterMachine.Proofs.Engine.Progress
import PlatterMachine.Proofs.Engine.Fingers
import PlatterMachine.Proofs.Console.Sessions
import PlatterMachine.Proofs.Command.Errand
