import HotUpgrade.Interleaving
import HotUpgrade.RemoteRef
import HotUpgrade.SRcuData
import HotUpgrade.SRcuThreads
import HotUpgrade.SRcuHandBack
import HotUpgrade.SRcuGracePeriod
import HotUpgrade.EmptyDevice
import HotUpgrade.DropRegistry
import HotUpgrade.Proxy
import HotUpgrade.ProxyLocks
import HotUpgrade.ProxyInitFailure
import HotUpgrade.Registry
import HotUpgrade.ProxyRelease
import HotUpgrade.ProxyLoader
