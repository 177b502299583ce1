import DistributedFs.Client.Availability
import DistributedFs.Client.LostReply
import DistributedFs.Client.Manifest
import DistributedFs.Client.ParallelDownload
import DistributedFs.Client.Positions
import DistributedFs.Client.UploadReports
import DistributedFs.Fsm.Apply
import DistributedFs.Fsm.Deletion
import DistributedFs.Fsm.Footprint
import DistributedFs.Fsm.Isolation
import DistributedFs.Fsm.NodeTimes
import DistributedFs.Fsm.Replay
import DistributedFs.Healing.Convergence
import DistributedFs.Healing.TargetSpace
import DistributedFs.Internal.Failover
import DistributedFs.Internal.SharedClient
import DistributedFs.Metadata.App
import DistributedFs.Reconcile.NewerCommits
import DistributedFs.Reconcile.Timers
import DistributedFs.Scheduler.Backoff
import DistributedFs.Scheduler.CopyJobs
import DistributedFs.Scheduler.DeletedFiles
import DistributedFs.Scheduler.Duplicates
import DistributedFs.Scheduler.Finished
import DistributedFs.Scheduler.Recovery
import DistributedFs.Scheduler.Redelivery
import DistributedFs.Server.ChunkHandler
import DistributedFs.Storage.ChunkPaths
import DistributedFs.Storage.Interrupted
import DistributedFs.Storage.PeerDialer
import DistributedFs.Storage.RepairTransfers
import DistributedFs.Storage.Restart
import DistributedFs.Watcher.DeadNodes
import DistributedFs.Watcher.Sweeps
