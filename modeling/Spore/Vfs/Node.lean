import Mathlib.Init

/-!
# Nodes of the virtual file system

`struct vfs_node` is a copy of what the backing file system said about a file when the node
was read. Address-space areas, open descriptions and the page cache all hold such copies and
identify the file by backend, inode number and device.
-/

namespace Spore

/-- `enum vfs_backend`. -/
inductive VfsBackend where
  | none
  | ramfs
  | ext2
  | proc
  deriving Repr, DecidableEq, Inhabited

/-- `enum ramfs_device`. -/
inductive RamfsDevice where
  | none | null | zero | full | random | urandom | console | tty | ptmx | pts
  | procinfo | meminfo | cpuinfo | uptime | loadavg | mounts | stat | netDev | kmsg
  | filesystems | partitions | devices | fsstats
  | procPidStat | procPidStatus | procPidCmdline | procPidStatm | procPidComm | procPidMounts
  | procPidCwd | procPidExe | procPidFd
  | fsRoot | fsBoot | fsRam0 | fsTmp
  | sysCpuPossible | sysCpuPresent | sysCpuOnline | sysCpuCoreOnline
  | blkRoot | blkBoot
  deriving Repr, DecidableEq, Inhabited

/-- `struct vfs_node`, without the times, owners and procfs fields that no modelled function
reads. -/
structure VfsNode where
  /-- File system the node was read from. -/
  backend : VfsBackend
  /-- The inode number. -/
  ino : Nat
  /-- Directories are never mapped. -/
  isDir : Bool
  /-- Device kind; regular files have `RamfsDevice.none`. -/
  device : RamfsDevice
  /-- Device number of the mount. -/
  devId : Nat
  /-- File size when the node was read. -/
  size : Nat
  deriving Repr, DecidableEq, Inhabited

/-- The zeroed node that `kmemset` leaves in a slot of another type. -/
def VfsNode.zero : VfsNode := ⟨.none, 0, false, .none, 0, 0⟩

/-- The identity of a file: the three fields that every comparison of nodes reads. -/
structure FileKey where
  backend : VfsBackend
  ino : Nat
  devId : Nat
  deriving Repr, DecidableEq, Inhabited

/-- The file a node stands for. -/
def VfsNode.key (node : VfsNode) : FileKey := ⟨node.backend, node.ino, node.devId⟩

end Spore
