import Craq.Coordinator.Removal
import Craq.Coordinator.Shape
import Craq.Coordinator.Domains
import Craq.Coordinator.Truth
import Craq.Coordinator.Complete
import Craq.Coordinator.Settle
import Craq.Storage.Failure
import Craq.Storage.Epoch
import Craq.Storage.ChainVersion
import Craq.Storage.Service
import Craq.Storage.Upstream
import Craq.Storage.Watermarks
import Craq.Storage.Reorder
import Craq.Storage.TornAppend
import Craq.Storage.Installation
import Craq.Storage.Admission
import Craq.Runtime.Tracked
import Craq.Coordserver.Lease
import Craq.Backend.Parity
import Craq.Storage.Wakeups
import Craq.Transport.Survival
import Craq.Transport.Session
import Craq.Client.Once
import Craq.Coordserver.Peers
