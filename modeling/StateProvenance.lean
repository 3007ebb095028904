import StateProvenance.Accounts
import StateProvenance.BootFencing
import StateProvenance.CausalChains
import StateProvenance.Concurrency
import StateProvenance.DerivationDigest
import StateProvenance.EpochFencing
import StateProvenance.Explain
import StateProvenance.Framing
import StateProvenance.GraphExact
import StateProvenance.Handshake
import StateProvenance.IndexScan
import StateProvenance.IngestionOrder
import StateProvenance.InvalidationOrder
import StateProvenance.InvalidationRace
import StateProvenance.ParsedIds
import StateProvenance.Permanence
import StateProvenance.PublishAtomic
import StateProvenance.PublishExact
import StateProvenance.Recovery
import StateProvenance.RegisterOverwrite
import StateProvenance.RestoreFaults
import StateProvenance.RestoreOrder
import StateProvenance.ReuseConstraints
import StateProvenance.Rollover
import StateProvenance.SnapshotStream
import StateProvenance.StatusHistory
import StateProvenance.CommandSeries
import StateProvenance.WorkerPublish
