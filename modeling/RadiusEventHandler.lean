import RadiusEventHandler.Framework.Loop
import RadiusEventHandler.Framework.Runs
import RadiusEventHandler.Framework.Scanner
import RadiusEventHandler.Framework.BoundedQueue
import RadiusEventHandler.Framework.Pairing
import RadiusEventHandler.Framework.LossyPairing
import RadiusEventHandler.Framework.Cyclic
import RadiusEventHandler.Framework.Delimited
import RadiusEventHandler.Framework.Numeral
import RadiusEventHandler.Framework.Simulation
import RadiusEventHandler.Framework.Schedule
import RadiusEventHandler.Framework.Archive
import RadiusEventHandler.Utils
import RadiusEventHandler.AvpDecoding
import RadiusEventHandler.PacketReceiver
import RadiusEventHandler.Dispatch
import RadiusEventHandler.DispatchSteps
import RadiusEventHandler.DispatchLossless
import RadiusEventHandler.RoundRobin
import RadiusEventHandler.AvpClassification
import RadiusEventHandler.ReceivedBytes
import RadiusEventHandler.Worker
import RadiusEventHandler.WorkerInvariant
import RadiusEventHandler.Matching
import RadiusEventHandler.MessageSteps
import RadiusEventHandler.Custody
import RadiusEventHandler.Conservation
import RadiusEventHandler.Waits
import RadiusEventHandler.Interleaving
import RadiusEventHandler.Linearizability
import RadiusEventHandler.Sender
import RadiusEventHandler.Pipeline
import RadiusEventHandler.Noninterference
import RadiusEventHandler.EndToEnd
import RadiusEventHandler.FlowOrder
import RadiusEventHandler.Threads
import RadiusEventHandler.Shutdown
import RadiusEventHandler.ThreadRefinement
import RadiusEventHandler.RecordPlaces
import RadiusEventHandler.StrandedEntries
import RadiusEventHandler.Reports
import RadiusEventHandler.Explanation
import RadiusEventHandler.FlowIsolation
import RadiusEventHandler.Liveness
import RadiusEventHandler.Delivery
import RadiusEventHandler.Settlement
import RadiusEventHandler.Serialization
import RadiusEventHandler.Text
import RadiusEventHandler.TextArchive
import RadiusEventHandler.Log
import RadiusEventHandler.Split
import RadiusEventHandler.ProgramOptions
import RadiusEventHandler.Configuration
import RadiusEventHandler.AddressOptions
import RadiusEventHandler.CommandLine
import RadiusEventHandler.Session
import RadiusEventHandler.HexDump
