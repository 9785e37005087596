import Cobblestone.Lib.Bytes
import Cobblestone.Lib.Nibble
import Cobblestone.Lib.Fields
import Cobblestone.Lib.Reader
import Cobblestone.Lib.Word
import Cobblestone.Lib.Fuel
import Cobblestone.Lib.Result
import Cobblestone.Lib.Intervals
import Cobblestone.Lib.Trace
import Cobblestone.World.Catalog
import Cobblestone.World.Chunk
import Cobblestone.World.Store
import Cobblestone.World.Edits
import Cobblestone.World.Sound
import Cobblestone.World.Reachable
import Cobblestone.World.Journal
import Cobblestone.World.Shards
import Cobblestone.World.ShardProof
import Cobblestone.Storage.Base
import Cobblestone.Storage.Payload
import Cobblestone.Storage.PayloadRoundTrip
import Cobblestone.Storage.Record
import Cobblestone.Storage.RoundTrip
import Cobblestone.Storage.Savable
import Cobblestone.Storage.Migration
import Cobblestone.Metadata.GeneratorState
import Cobblestone.Metadata.Publication
import Cobblestone.Region.Format
import Cobblestone.Region.FormatRoundTrip
import Cobblestone.Region.File
import Cobblestone.Region.Invariant
import Cobblestone.Region.Records
import Cobblestone.Region.State
import Cobblestone.Region.Save
import Cobblestone.Region.Compact
import Cobblestone.Region.CompactProof
import Cobblestone.Region.Run
import Cobblestone.Region.Crowded
import Cobblestone.Region.CompactMeaning
import Cobblestone.Region.Refine
import Cobblestone.Region.Crash
import Cobblestone.Persistence.Protocol
import Cobblestone.Async.SaveDelivery
import Cobblestone.Async.Load
import Cobblestone.Async.LoadFlight
import Cobblestone.Session.Events
import Cobblestone.Session.CoordinatorProof
import Cobblestone.World.InfiniteProof
import Cobblestone.World.Population
import Cobblestone.World.Heights
import Cobblestone.World.Patch
import Cobblestone.World.Install
import Cobblestone.Bridge.Missing
import Cobblestone.Bridge.Compaction
import Cobblestone.Bridge.Spared
import Cobblestone.Bridge.Generator
import Cobblestone.Runtime.Revocation
import Cobblestone.Wire.NbtRoundTrip
import Cobblestone.Wire.Bootstrap
import Cobblestone.Biome.Seamless
import Cobblestone.Biome.Supported
import Cobblestone.Task.Punctual
import Cobblestone.Task.Overflow
import Cobblestone.Plugin.Ownership
import Cobblestone.Runtime.RegionDirectory
import Cobblestone.Structure.PostProcess
import Cobblestone.Structure.VillageOrder
import Cobblestone.Structure.Codecs
import Cobblestone.Session.Stores
import Cobblestone.Bridge.WireCache
import Cobblestone.Mutation.Prepare
import Cobblestone.Source.Atomic
import Cobblestone.Structure.FirstLook
import Cobblestone.Commands.Completion
import Cobblestone.Light.Atomic
import Cobblestone.World.PopulationLight
import Cobblestone.Task.DueQueueRun
import Cobblestone.Structure.Mersenne
import Cobblestone.Plugin.EventNesting
import Cobblestone.Bridge.Payloads
import Cobblestone.Bridge.Converge
import Cobblestone.World.ChestRuns
import Cobblestone.Source.Covered
import Cobblestone.World.LiquidsSettle
import Cobblestone.Structure.VillageLayout
import Cobblestone.World.ChangeWindow
import Cobblestone.Region.IndexPages
import Cobblestone.Mutation.AtomicEdit
