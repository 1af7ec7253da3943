import ZControl.Common.Writers
import ZControl.Commander.Correlation
import ZControl.Rpc
import ZControl.Worker.Handles
import ZControl.Worker.Replies
import ZControl.ReadWrite
import ZControl.Freshness
import ZControl.Zcfs.Relisting
import ZControl.Worker.Draining
import ZControl.Commander.BoundedCopy
import ZControl.Attributes
import ZControl.ReadResponse
import ZControl.Zcfs.Paging
import ZControl.Zcfs.Filling
import ZControl.Worker.Outcomes
import ZControl.Worker.NoReplace
import ZControl.Worker.Acknowledgement
import ZControl.Worker.Shutdown
import ZControl.Commander.ServerThreads
import ZControl.Zcfs.Paths
import ZControl.Commander.Pending
import ZControl.Base.WakeUps
import ZControl.Worker.SharedHandles
import ZControl.Zcfs.HandleIdentity
import ZControl.Connection.Frames
import ZControl.Connection.Machine
import ZControl.Worker.Begun
import ZControl.Connection.Steps
import ZControl.Connection.Simulation
import ZControl.Connection.EndToEnd
import ZControl.Worker.Progress
import ZControl.Commander.Progress
import ZControl.Connection.Progress
import ZControl.Connection.Termination
import ZControl.Zcfs.Operations
import ZControl.Zcfs.Sites
import ZControl.Zcfs.Transparency
import ZControl.Network.Machine
import ZControl.Network.Steps
import ZControl.Network.Routing
import ZControl.Network.Invariant
import ZControl.Network.Calls
