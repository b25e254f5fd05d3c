import MolIpc.Proxy.NoSilentDrop
import MolIpc.Net.TwoNodeCorrect
import MolIpc.Net.ThreeNodeCorrect
import MolIpc.Rdisk.Acks
import MolIpc.Rdisk.Recovery
import MolIpc.Rdisk.Rdwt
import MolIpc.Slots.Donation
import MolIpc.Slots.Phases
import MolIpc.Raw.RoundTrip
import MolIpc.Raw.Tcp
import MolIpc.Admin.DcEnd
import MolIpc.Admin.DcInit
import MolIpc.Admin.Symmetry
import MolIpc.Ipc.MigrWait
import MolIpc.Ipc.RcvRqst
import MolIpc.Ipc.SourceFilter
import MolIpc.Ipc.VcopyChunks
import MolIpc.Alarms.Independence
import MolIpc.Ipc.TaskBijection
import MolIpc.Copy.Stamp
import MolIpc.Proxy.FlushReceiving
import MolIpc.Proxy.FlushSending
import MolIpc.Ipc.FailedEnqueue
import MolIpc.Proxy.PayloadLimit
import MolIpc.Ipc.MigrateChecks
import MolIpc.Ipc.ThirdPartyRun
import MolIpc.Ipc.Closure
import MolIpc.Ipc.FailedBind
import MolIpc.Ipc.RemoteCalls
import MolIpc.Ipc.SlotIds
import MolIpc.Ipc.PeerRange
import MolIpc.Slots.Partition
import MolIpc.Endpoint
import MolIpc.Alarms.Armed
import MolIpc.Radar
