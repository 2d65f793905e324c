import Spore.Ramfs.Tree
import Spore.Lib.Run

/-!
# Runs of the memory file system (`ramfs_init` and the calls of `ramfs.h`)

`boot` is the state `ramfs_init` leaves and `RamOp` the calls that change it. A `Session`
adds to the file system the count of references its callers hold, which `retain` and
`release` are meant to track.
-/

namespace Spore.Ramfs

namespace Fs

/-- The zeroed table that `ramfs_init` starts from; in a zeroed slot the indices are `0`. -/
def blank : Fs :=
  { nodes := List.replicate maxNodes { MemNode.clear with firstPage := some 0, parent := some 0 },
    nextIno := 1, backing := [], usedCount := 0, freeHead := none, answers := [] }

/-- The root node. -/
def initRoot (fs : Fs) : Fs :=
  match fs.allocNode with
  | (none, fs) => fs
  | (some root, fs) => fs.setNode root fun node =>
    { node with isDir := true, parent := some root, mount := .ram0, name := [] }

/-- `add_node` for a directory of the first tree, with its mount. -/
def addMount (fs : Fs) (name : List Char) (mount : RamfsMount) : Fs :=
  match fs.addNode (some 0) name true true with
  | (index, fs) => fs.setMount index mount

/-- `(void)add_node` of a directory under a directory of the first tree. -/
def addDir (fs : Fs) (parent name : List Char) : Fs :=
  (fs.addNode (fs.lookupIndex parent) name true true).2

/-- The digits of a number, as `append_dec` writes them. -/
def decDigits (value : Nat) : List Char := Nat.toDigits 10 value

/-- One processor of `add_sys_cpu_topology`. -/
def addCpu (cpuRoot : Nat) (fs : Fs) (cpu : Nat) : Fs :=
  let name := "cpu".toList ++ decDigits cpu
  match fs.ensureChildDir (some cpuRoot) name with
  | (none, fs) => fs
  | (some _, fs) =>
    fs.addDevice ("/sys/devices/system/cpu/".toList ++ name ++ "/online".toList) .sysCpuCoreOnline

/-- `SPORE_BOOT_CPU_MAX`. -/
def bootCpuMax : Nat := 64

/-- `add_sys_cpu_topology` for the number of possible processors. -/
def addSysCpuTopology (fs : Fs) (cpus : Nat) : Fs :=
  let possible := min (if cpus = 0 then 1 else cpus) bootCpuMax
  match fs.lookupIndex "/sys".toList with
  | none => fs
  | some sys =>
    let (devices, fs) := fs.ensureChildDir (some sys) "devices".toList
    let (system, fs) := fs.ensureChildDir devices "system".toList
    let (cpuRoot, fs) := fs.ensureChildDir system "cpu".toList
    match cpuRoot with
    | none => fs
    | some cpuRoot =>
      let fs := fs.addDevice "/sys/devices/system/cpu/possible".toList .sysCpuPossible
      let fs := fs.addDevice "/sys/devices/system/cpu/present".toList .sysCpuPresent
      let fs := fs.addDevice "/sys/devices/system/cpu/online".toList .sysCpuOnline
      (List.range possible).foldl (addCpu cpuRoot) fs

/-- `CELL_PTY_CAP`. -/
def ptyCap : Nat := 16

/-- The devices `ramfs_init` adds, in its order. -/
def bootDevices : List (List Char × RamfsDevice) :=
  [("/dev/null".toList, .null), ("/dev/zero".toList, .zero), ("/dev/full".toList, .full),
    ("/dev/random".toList, .random), ("/dev/urandom".toList, .urandom),
    ("/dev/console".toList, .console), ("/dev/tty".toList, .tty), ("/dev/ttys0".toList, .tty),
    ("/dev/ptmx".toList, .ptmx)] ++
  (List.range ptyCap).map (fun pty => ("/dev/pts/".toList ++ decDigits pty, .pts)) ++
  [("/dev/procinfo".toList, .procinfo), ("/dev/fs/root".toList, .fsRoot),
    ("/dev/fs/boot".toList, .fsBoot), ("/dev/fs/ram0".toList, .fsRam0),
    ("/dev/fs/tmp".toList, .fsTmp), ("/dev/blk/root".toList, .blkRoot),
    ("/dev/blk/boot".toList, .blkBoot), ("/proc/procinfo".toList, .procinfo),
    ("/proc/meminfo".toList, .meminfo), ("/proc/cpuinfo".toList, .cpuinfo),
    ("/proc/uptime".toList, .uptime), ("/proc/loadavg".toList, .loadavg),
    ("/proc/mounts".toList, .mounts), ("/proc/stat".toList, .stat),
    ("/proc/net/dev".toList, .netDev), ("/proc/kmsg".toList, .kmsg),
    ("/proc/filesystems".toList, .filesystems), ("/proc/partitions".toList, .partitions),
    ("/proc/devices".toList, .devices), ("/proc/fsstats".toList, .fsstats)]

/-- The directories `ramfs_init` makes. -/
def bootDirs (fs : Fs) : Fs :=
  let fs := fs.addMount "dev".toList .dev
  let fs := fs.addMount "proc".toList .proc
  let fs := fs.addMount "sys".toList .sys
  let fs := fs.addMount "tmp".toList .tmp
  let fs := fs.addMount "run".toList .run
  let fs := fs.addDir "/dev".toList "fs".toList
  let fs := fs.addDir "/dev".toList "blk".toList
  let fs := fs.addDir "/dev".toList "shm".toList
  let fs := fs.addDir "/dev".toList "pts".toList
  let fs := fs.addDir "/run".toList "memfd".toList
  fs.addDir "/proc".toList "net".toList

/-- `ramfs_init` for the number of processors and the boot modules. -/
def boot (cpus : Nat) (modules : List (List Char × List UInt8)) : Fs :=
  let fs := (blank.initRoot.bootDirs).addSysCpuTopology cpus
  let fs := bootDevices.foldl (fun fs device => fs.addDevice device.1 device.2) fs
  modules.foldl (fun fs file => fs.addRoFile file.1 file.2) fs

end Fs

/-- A call of `ramfs.h` that may change the file system. A call that asks for pages comes with
the answers it gets. -/
inductive RamOp where
  | create (path : List Char)
  | mkdir (path : List Char) (mode : BitVec 16)
  | mkfifo (path : List Char) (mode : BitVec 16)
  | mksock (path : List Char) (mode : BitVec 16)
  | link (oldPath newPath : List Char) (answers : List Bool)
  | rename (oldPath newPath : List Char)
  | unlink (path : List Char)
  | retain (index : Nat)
  | release (index : Nat)
  | chmod (index : Nat) (mode : BitVec 16)
  | chown (index uid gid : Nat)
  | write (index off : Nat) (src : List UInt8) (answers : List Bool)
  | truncate (index size : Nat)
  | setSealable (index : Nat) (allowSealing : Bool)
  | addSeals (index : Nat) (seals : BitVec 32)
  | noteMapping (index : Nat) (add : Bool)

/-- The file system after one call. -/
def Fs.step (fs : Fs) : RamOp → Fs
  | .create path => (fs.ramfsCreate path).2
  | .mkdir path mode => (fs.ramfsMkdir path mode).2
  | .mkfifo path mode => (fs.ramfsMkfifo path mode).2
  | .mksock path mode => (fs.ramfsMksock path mode).2
  | .link oldPath newPath answers => ((fs.withAnswers answers).ramfsLink oldPath newPath).2
  | .rename oldPath newPath => (fs.ramfsRename oldPath newPath).2
  | .unlink path => (fs.ramfsUnlink path).2
  | .retain index => (fs.ramfsRetainNode index).2
  | .release index => fs.ramfsReleaseNode index
  | .chmod index mode => (fs.ramfsChmodNode index mode).2
  | .chown index uid gid => (fs.ramfsChownNode index uid gid).2
  | .write index off src answers => ((fs.withAnswers answers).ramfsWrite index off src).2
  | .truncate index size => (fs.ramfsTruncate index size).2
  | .setSealable index allow => (fs.ramfsSetSealable index allow).2
  | .addSeals index seals => (fs.ramfsAddSeals index seals).2
  | .noteMapping index add => fs.ramfsNoteSharedWritableMapping index add

/-- A file system with the references its callers hold. -/
structure Session where
  /-- The file system. -/
  fs : Fs
  /-- How many references to each slot are open. -/
  held : Nat → Nat

namespace Session

/-- The open references after a call: a retain that succeeds opens one, a release closes one. -/
def heldAfter (s : Session) : RamOp → Nat → Nat
  | .retain index => fun i =>
    if i = index ∧ (s.fs.ramfsRetainNode index).1 = true then s.held i + 1 else s.held i
  | .release index => fun i => if i = index then s.held i - 1 else s.held i
  | _ => s.held

/-- One call of the session. -/
def step (s : Session) (op : RamOp) : Session := ⟨s.fs.step op, s.heldAfter op⟩

/-- A fresh file system with no references. -/
def boot (cpus : Nat) (modules : List (List Char × List UInt8)) : Session :=
  ⟨Fs.boot cpus modules, fun _ => 0⟩

end Session

end Spore.Ramfs
