import Spore.Net.TcpStream
import Spore.Proc.PolicyAttenuation
import Spore.Mm.PageCap
import Spore.Mm.Rights
import Spore.Mm.Ownership
import Spore.Ramfs.ByteArrays
import Spore.Ext2.CacheCoherence
import Spore.Ext2.Directory
import Spore.Ext2.Truncate
import Spore.Ipc.Steps
import Spore.Ramfs.Mappings
import Spore.Proc.Transparency
import Spore.Proc.Epoll
import Spore.Proc.Eventfd
import Spore.Mm.StackGrowth
import Spore.Exec.InitialStack
import Spore.Mm.MmapErrors
import Spore.Ext2.InodeStore
import Spore.Net.Frames
import Spore.Net.Windows
import Spore.Init.Service
import Spore.Net.RetransmitTimer
import Spore.Init.StartLimit
import Spore.Init.Timers
import Spore.Msh.Continuation
