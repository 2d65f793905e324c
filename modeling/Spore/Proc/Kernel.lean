import Mathlib.Logic.Function.Basic
import Spore.Proc.Policy

/-!
# Threads, domains and processors (`include/cell.h`, `arch/aarch64/regs.h`)

The tables the process code works on. A pointer into a table is an index of it. What the
process code reaches through other subsystems (address spaces, descriptors, snapshots, the
user's memory) is a parameter: a type of worlds and a `ProcHost` of operations on it that may
answer anything.
-/

namespace Spore.Proc

/-- `struct trap_frame`, without its padding word. -/
structure TrapFrame where
  /-- `x0` to `x30`. -/
  x : Fin 31 → BitVec 64
  /-- Stack pointer of the user thread. -/
  spEl0 : BitVec 64
  /-- Address the exception returns to. -/
  elrEl1 : BitVec 64
  /-- Program status the exception return loads. -/
  spsrEl1 : BitVec 64
  /-- Exception syndrome. -/
  esrEl1 : BitVec 64

/-- The zeroed frame. -/
def TrapFrame.zero : TrapFrame := ⟨fun _ => 0, 0, 0, 0, 0⟩

/-- The register of results and first arguments. -/
def regX0 : Fin 31 := 0

/-- The register of second arguments. -/
def regX1 : Fin 31 := 1

/-- The register of third arguments. -/
def regX2 : Fin 31 := 2

/-- The link register. -/
def regX30 : Fin 31 := 30

/-- Write one general register. -/
def TrapFrame.setX (frame : TrapFrame) (reg : Fin 31) (value : BitVec 64) : TrapFrame :=
  { frame with x := Function.update frame.x reg value }

/-- `struct fp_state`. -/
structure FpState where
  q : Fin 32 → BitVec 128
  fpcr : BitVec 64
  fpsr : BitVec 64

/-- The zeroed state. -/
def FpState.zero : FpState := ⟨fun _ => 0, 0, 0⟩

/-- `enum thread_state`. -/
inductive ThreadState where
  | unused
  | runnable
  | blocked
  | zombie
  deriving Repr, DecidableEq, Inhabited

/-- `enum wait_reason`. -/
inductive WaitReason where
  | none
  | child
  | stdin
  | socket
  | thread
  | futex
  | poll
  | sleep
  | vfork
  | pipe
  | epoll
  | inotify
  | pty
  deriving Repr, DecidableEq, Inhabited

/-- The fields of `struct thread` that keep the arguments of a blocking call. -/
structure WaitArgs where
  stdinBuf : BitVec 64
  stdinLen : BitVec 64
  pipeBuf : BitVec 64
  pipeLen : BitVec 64
  socketAddr : BitVec 64
  socketAddrlen : BitVec 64
  socketAcceptFlags : Int
  socketWrite : Bool
  socketMsg : Bool
  socketMsgAddr : BitVec 64
  socketIov : BitVec 64
  socketIovlen : BitVec 64
  socketFlags : BitVec 32
  socketHasDeadline : Bool
  socketDeadlineTick : BitVec 64
  pipeWrite : Bool
  pollKind : BitVec 8
  pollHasDeadline : Bool
  pollDeadlineTick : BitVec 64
  sleepDeadlineTick : BitVec 64
  pollFds : BitVec 64
  pollNfds : BitVec 64
  pollReadfds : BitVec 64
  pollWritefds : BitVec 64
  pollExceptfds : BitVec 64
  epollFd : Int
  epollEvents : BitVec 64
  epollMaxevents : Int
  deriving Repr, DecidableEq

/-- The zeroed arguments. -/
def WaitArgs.zero : WaitArgs :=
  ⟨0, 0, 0, 0, 0, 0, 0, false, false, 0, 0, 0, 0, false, 0, false, 0, false, 0, 0, 0, 0, 0, 0, 0,
    0, 0, 0⟩

/-- `struct thread`. -/
structure Thread where
  tid : Int
  /-- Processor that runs the thread; negative when none does. -/
  runningCpu : Int
  /-- Slot of the domain. -/
  domain : Option Nat
  /-- Whether the slot is in use and the thread may run. -/
  state : ThreadState
  /-- Registers saved when the thread last left a processor. -/
  tf : TrapFrame
  /-- Vector registers saved then. -/
  fp : FpState
  /-- Thread pointer saved then. -/
  tpidrEl0 : BitVec 64
  /-- What a blocked thread waits for. -/
  waitReason : WaitReason
  /-- The child, descriptor or other object it waits for. -/
  waitTarget : Int
  /-- Arguments of the blocking call. -/
  wait : WaitArgs
  /-- Blocked signals. -/
  signalMask : BitVec 64
  /-- Signals not yet delivered. -/
  pendingSignals : BitVec 64
  sigaltstackSp : BitVec 64
  sigaltstackSize : BitVec 64
  sigaltstackFlags : BitVec 32
  /-- Word to clear when the thread exits. -/
  clearChildTid : BitVec 64
  robustList : BitVec 64
  futexAddr : BitVec 64

/-- The zeroed slot. -/
def Thread.zero : Thread where
  tid := 0
  runningCpu := 0
  domain := none
  state := .unused
  tf := .zero
  fp := .zero
  tpidrEl0 := 0
  waitReason := .none
  waitTarget := 0
  wait := .zero
  signalMask := 0
  pendingSignals := 0
  sigaltstackSp := 0
  sigaltstackSize := 0
  sigaltstackFlags := 0
  clearChildTid := 0
  robustList := 0
  futexAddr := 0

/-- `struct signal_action`. -/
structure SignalAction where
  /-- Handler address; 0 is the default action and 1 ignores the signal. -/
  handler : BitVec 64
  /-- `SA_*` bits. -/
  flags : BitVec 64
  /-- Address the handler returns to. -/
  restorer : BitVec 64
  /-- Signals blocked while the handler runs. -/
  mask : BitVec 64
  deriving Repr, DecidableEq

/-- The default action. -/
def SignalAction.zero : SignalAction := ⟨0, 0, 0, 0⟩

/-- `NSIG`. -/
def nsig : Nat := 65

/-- `struct domain`, without its names, paths, owners, counters and descriptor table. -/
structure Domain where
  id : Int
  /-- Id of the parent; 0 when nothing waits for the domain. -/
  parentId : Int
  pgrpId : Int
  sessionId : Int
  /-- Threads in the domain. -/
  refcount : BitVec 16
  used : Bool
  /-- Whether the domain has exited. -/
  zombie : Bool
  exitStatus : Int
  /-- Signal that ended the domain; 0 when it exited. -/
  termSignal : Int
  mm : Option Nat
  caps : CapabilitySet
  budget : CpuBudget
  signalActions : Fin nsig → SignalAction

/-- The zeroed slot. -/
def Domain.zero : Domain where
  id := 0
  parentId := 0
  pgrpId := 0
  sessionId := 0
  refcount := 0
  used := false
  zombie := false
  exitStatus := 0
  termSignal := 0
  mm := none
  caps := .zero
  budget := ⟨0, 0⟩
  signalActions := fun _ => .zero

/-- The local variables of a processor inside the loop of `cell_schedule`. -/
structure SchedWait where
  current : Option Nat
  oldDomain : Option Nat
  start : Nat
  deriving Repr, DecidableEq

/-- What a processor is doing. -/
inductive CpuMode where
  /-- User code runs; the frame holds the registers loaded when it was entered. -/
  | user (frame : TrapFrame)
  /-- A handler runs; the frame is the one on its stack, which the exception return loads. -/
  | kernel (frame : TrapFrame)
  /-- `cell_schedule` waits for an interrupt. -/
  | waiting (wait : SchedWait)
  /-- The machine was powered off. -/
  | off

/-- One processor. -/
structure Cpu where
  /-- `current_thread` of `struct smp_cpu`. -/
  current : Option Nat
  mode : CpuMode
  fp : FpState
  tpidrEl0 : BitVec 64

/-- The process tables and the rest of the machine. -/
structure Kernel (σ : Type) where
  threads : List Thread
  domains : List Domain
  nextThreadId : Int
  nextDomainId : Int
  cpus : List Cpu
  /-- Everything else. -/
  world : σ

namespace Kernel

variable {σ : Type}

/-- Write through a thread pointer. -/
def modThread (k : Kernel σ) (thread : Nat) (change : Thread → Thread) : Kernel σ :=
  { k with threads := k.threads.modify thread change }

/-- Write to every thread. -/
def mapThreads (k : Kernel σ) (change : Thread → Thread) : Kernel σ :=
  { k with threads := k.threads.map change }

/-- Write through a domain pointer. -/
def modDomain (k : Kernel σ) (domain : Nat) (change : Domain → Domain) : Kernel σ :=
  { k with domains := k.domains.modify domain change }

/-- Write to a processor. -/
def modCpu (k : Kernel σ) (cpu : Nat) (change : Cpu → Cpu) : Kernel σ :=
  { k with cpus := k.cpus.modify cpu change }

/-- What a processor is doing. -/
def mode (k : Kernel σ) (cpu : Nat) : Option CpuMode := (k.cpus[cpu]?).map (·.mode)

/-- Give a processor its next mode. -/
def setMode (k : Kernel σ) (cpu : Nat) (mode : CpuMode) : Kernel σ :=
  k.modCpu cpu fun c => { c with mode := mode }

/-- `cell_current_thread_internal` on a processor. -/
def currentThread (k : Kernel σ) (cpu : Nat) : Option Nat :=
  (k.cpus[cpu]?).bind (·.current)

/-- `cell_current_domain_internal` on a processor. -/
def currentDomain (k : Kernel σ) (cpu : Nat) : Option Nat := do
  let thread ← k.currentThread cpu
  let thread ← k.threads[thread]?
  thread.domain

/-- Address space of a domain, as `cell_domain_as` finds it. -/
def domainMm (k : Kernel σ) (domain : Nat) : Option Nat :=
  (k.domains[domain]?).bind (·.mm)

end Kernel

/-- `struct stack_t64`. -/
structure StackT where
  ssSp : BitVec 64
  ssFlags : BitVec 32
  ssSize : BitVec 64

/-- `struct sigcontext64`, without its reserved bytes. -/
structure SigContext where
  faultAddress : BitVec 64
  regs : Fin 31 → BitVec 64
  sp : BitVec 64
  pc : BitVec 64
  pstate : BitVec 64

/-- `struct signal_frame64`: what delivery leaves on the user's stack and `rt_sigreturn` reads
back. -/
structure SignalFrame where
  siSigno : Int
  siCode : Int
  siAddr : BitVec 64
  ucStack : StackT
  ucSigmask : BitVec 64
  ucMcontext : SigContext
  magic : BitVec 64
  signal : BitVec 64
  savedSignalMask : BitVec 64
  saved : TrapFrame

/-- `struct k_sigaction64`, which user memory holds. -/
abbrev UserSigaction := SignalAction

/-- The operations of other subsystems that the process code calls. An address space is given
by its slot, none when the domain has no address space. -/
structure ProcHost (σ : Type) where
  mmCloneCow : Nat → σ → Option Nat × σ
  mmRetain : Nat → σ → σ
  mmRelease : Option Nat → σ → σ
  /-- `mm->used`. -/
  mmUsed : Nat → σ → Bool
  /-- `cell_mm_from_owned` on the image that exec or the boot code loaded. -/
  mmFromOwned : σ → Option Nat × σ
  /-- `find_snapshot`. -/
  snapshotExists : Int → σ → Bool
  /-- The clones that `snapshot_spawn` makes its child's address space from; none when one of
  them fails. -/
  mmFromSnapshot : Int → σ → Option Nat × σ
  copyFdTable : (dst src : Nat) → σ → σ
  closeAllFds : Nat → σ → σ
  /-- The loop of `cell_exec_replace` over descriptors marked close-on-exec. -/
  closeOnExec : Nat → σ → σ
  /-- `cell_init_stdio` and the insertion of the stack area for the first domain. -/
  initStdio : Nat → σ → Bool × σ
  ensureUserRange : Option Nat → BitVec 64 → Nat → (write : Bool) → σ → Bool × σ
  /-- `vmm_copy_to_user` of a 32-bit word. -/
  copyWordToUser : Option Nat → BitVec 64 → BitVec 32 → σ → Bool × σ
  /-- `vmm_copy_to_user` of a signal frame. -/
  copyFrameToUser : Option Nat → BitVec 64 → SignalFrame → σ → Bool × σ
  /-- `vmm_copy_from_user` of a signal frame. -/
  copyFrameFromUser : Option Nat → BitVec 64 → σ → Option SignalFrame
  /-- `vmm_copy_to_user` of a signal action. -/
  copyActionToUser : Option Nat → BitVec 64 → UserSigaction → σ → Bool × σ
  /-- `vmm_copy_from_user` of a signal action. -/
  copyActionFromUser : Option Nat → BitVec 64 → σ → Option UserSigaction
  /-- The futex words that `cell_futex_cleanup_robust_list` marks and wakes, in order. -/
  robustEntries : Option Nat → BitVec 64 → σ → List (BitVec 64) × σ

end Spore.Proc
