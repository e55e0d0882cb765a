import ScatteringData.Script.Run
import ScatteringData.Proofs.Bucket.Ascending
import ScatteringData.Proofs.Table
import ScatteringData.Proofs.Outcome
import ScatteringData.Proofs.Record.Built
import ScatteringData.Proofs.Shelves
import ScatteringData.Proofs.TemperatureMap.Query
import ScatteringData.Proofs.TemperatureMap.Exact
import ScatteringData.Proofs.TemperatureMap.Nearest
import ScatteringData.Proofs.TemperatureMap.Alike
import ScatteringData.Proofs.VersionedMap.LastWrite
import ScatteringData.Proofs.TemperatureMap.LastWrite
import ScatteringData.Proofs.Store.Item
import ScatteringData.Proofs.Store.Nodes
import ScatteringData.Proofs.RecordMap.Related
import ScatteringData.Proofs.Store.Duplicate
import ScatteringData.Proofs.Store.Clone
import ScatteringData.Proofs.Store.Copying
import ScatteringData.Proofs.Store.Closed
import ScatteringData.Proofs.RecordMap.Setting
import ScatteringData.Proofs.Store.Sharing
import ScatteringData.Proofs.Store.Equality
import ScatteringData.Proofs.Store.Twin
import ScatteringData.Proofs.RecordMap.Answers
import ScatteringData.Proofs.RecordMap.Changes
import ScatteringData.Proofs.RecordMap.Agreement
import ScatteringData.Proofs.RecordMap.Places
import ScatteringData.Proofs.Store.Frame
import ScatteringData.Proofs.Store.Isolation
import ScatteringData.Proofs.Cache
import ScatteringData.Proofs.Store.Caching
import ScatteringData.Proofs.Store.Entries
import ScatteringData.Proofs.Store.Failing
import ScatteringData.Proofs.Store.Independence
import ScatteringData.Proofs.RecordMap.Availability
import ScatteringData.Proofs.TemperatureMap.Units
import ScatteringData.Proofs.Store.Ownership
import ScatteringData.Proofs.NamedMap.Parts
import ScatteringData.Proofs.TemperatureMap.EitherOrder
import ScatteringData.Proofs.TemperatureMap.Kelvin
import ScatteringData.Proofs.Store.Removal
import ScatteringData.Proofs.RecordMap.Taking
import ScatteringData.Proofs.Store.Acceptance
import ScatteringData.Proofs.Grid.Search
import ScatteringData.Proofs.Value.Refusal
import ScatteringData.Proofs.Record.Rebuilt
import ScatteringData.Proofs.Store.DefaultName
import ScatteringData.Proofs.World.Independence
