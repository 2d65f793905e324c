import Spore.Proc.Signal

/-!
# Processes (`proc/process.c`, `proc/snapshot.c`, `cell.c`)

Creation, replacement and end of threads and domains, waiting for children, and the first
domain.
-/

namespace Spore.Proc

variable {σ : Type}

/-- The result of a call that went to another thread. -/
def cellSwitched : Int := -0x40000000

/-- `CLONE_SETTLS`. -/
def cloneSettls : BitVec 64 := 0x00080000

/-- `CLONE_PARENT_SETTID`. -/
def cloneParentSettid : BitVec 64 := 0x00100000

/-- `CLONE_CHILD_CLEARTID`. -/
def cloneChildCleartid : BitVec 64 := 0x00200000

/-- `CLONE_CHILD_SETTID`. -/
def cloneChildSettid : BitVec 64 := 0x01000000

/-- The program status of a thread that starts in user code. -/
def userSpsr : BitVec 64 := 0x340

/-- The domain gets another address space and gives up its own. -/
def cellDomainSetMm (host : ProcHost σ) (domain mm : Nat) (k : Kernel σ) : Bool × Kernel σ :=
  if host.mmUsed mm k.world then
    let world := match k.domainMm domain with
      | none => k.world
      | some old => host.mmRelease (some old) k.world
    (true, { k with world := world }.modDomain domain fun d => { d with mm := some mm })
  else (false, k)

/-- The two assignments with which a failed creation gives its slots back. -/
def abandonChild (child childThread : Nat) (k : Kernel σ) : Kernel σ :=
  (k.modThread childThread fun t => { t with state := .unused }).modDomain child fun d =>
    { d with used := false }

/-- What a new domain takes from the domain that creates it. -/
def inheritDomain (host : ProcHost σ) (child parent : Nat) (k : Kernel σ) : Kernel σ :=
  match k.domains[parent]? with
  | none => k
  | some p =>
    { k with world := host.copyFdTable child parent k.world }.modDomain child fun d =>
      { cellCopyDomainMetadata d p with parentId := p.id }

/-- What the thread of a forked domain takes from the thread that forks. -/
def inheritThread (current thread : Thread) : Thread :=
  { thread with
    state := .runnable
    tf := current.tf.setX regX0 0
    fp := current.fp
    signalMask := current.signalMask
    pendingSignals := 0
    sigaltstackSp := current.sigaltstackSp
    sigaltstackSize := current.sigaltstackSize
    sigaltstackFlags := current.sigaltstackFlags
    tpidrEl0 := current.tpidrEl0 }

/-- Process id stored in a domain slot. -/
def domainId (k : Kernel σ) (domain : Nat) : Int := ((k.domains[domain]?).map (·.id)).getD 0

/-- The end of `cell_fork_current`, once the child has an address space. -/
def finishFork (host : ProcHost σ) (slot parent child childThread : Nat) (k : Kernel σ) :
    Int × Kernel σ :=
  match k.threads[slot]? with
  | none => (-12, k)
  | some current =>
    let k := inheritDomain host child parent k
    let k := k.modThread childThread (inheritThread current)
    let id := domainId k child
    (id, k.modThread slot fun t => { t with tf := t.tf.setX regX0 (BitVec.ofInt 64 id) })

/-- `cell_fork_current` once the child has a domain. -/
def forkInto (host : ProcHost σ) (cpu slot parent parentMm child : Nat) (frame : TrapFrame)
    (k : Kernel σ) : Int × Kernel σ :=
  match cellAllocThread k child with
  | none => (-11, k.modDomain child fun d => { d with used := false })
  | some (childThread, k) =>
    let k := cellSaveCurrent cpu frame k
    let cloned := host.mmCloneCow parentMm k.world
    let k := { k with world := cloned.2 }
    match cloned.1 with
    | none => (-12, abandonChild child childThread k)
    | some mm =>
      let set := cellDomainSetMm host child mm k
      if set.1 then finishFork host slot parent child childThread set.2
      else
        (-12, abandonChild child childThread
          { set.2 with world := host.mmRelease (some mm) set.2.world })

/-- A domain slot that is taken and not given back. -/
def takeDomainSlot (k : Kernel σ) : Kernel σ := ((cellAllocDomain k).map (·.2)).getD k

/-- `cell_fork_current`. The child's domain is taken before the caller is checked. -/
def cellForkCurrent (host : ProcHost σ) (cpu : Nat) (frame : TrapFrame) (k : Kernel σ) :
    Int × Kernel σ :=
  match k.currentThread cpu, k.currentDomain cpu with
  | some slot, some parent =>
    match k.domainMm parent, cellAllocDomain k with
    | none, _ => (-12, takeDomainSlot k)
    | some _, none => (-11, k)
    | some parentMm, some (child, k) => forkInto host cpu slot parent parentMm child frame k
  | _, _ => (-12, takeDomainSlot k)

/-- Arguments of `clone`. -/
structure CloneArgs where
  /-- The flags. -/
  flags : BitVec 64
  /-- The stack of the child. -/
  newsp : BitVec 64
  /-- Where the parent finds the id. -/
  parentTid : BitVec 64
  /-- The thread pointer. -/
  tls : BitVec 64
  /-- Where the child finds the id. -/
  childTid : BitVec 64

/-- Store an id for `CLONE_PARENT_SETTID` or `CLONE_CHILD_SETTID`, when the flag and the
address ask for it. -/
def storeCloneId (host : ProcHost σ) (flags flag addr : BitVec 64) (domain : Nat) (id : Int)
    (k : Kernel σ) : Bool × Kernel σ :=
  if flags &&& flag ≠ 0 ∧ addr ≠ 0 then
    match k.domainMm domain with
    | none => (false, k)
    | some mm =>
      let copied := host.copyWordToUser (some mm) addr (BitVec.ofInt 32 id) k.world
      (copied.1, { k with world := copied.2 })
  else (true, k)

/-- The end of `cell_vfork_current`: the parent waits for its child. -/
def finishVfork (host : ProcHost σ) (cpu slot child : Nat) (frame : TrapFrame) (k : Kernel σ) :
    Int × CpuMode × Kernel σ :=
  let id := domainId k child
  let k := k.modThread slot fun t =>
    { t with
      tf := t.tf.setX regX0 (BitVec.ofInt 64 id), state := .blocked, runningCpu := -1,
      waitReason := .vfork, waitTarget := id }
  (cellSwitched, cellSchedule host cpu (frame.setX regX0 (BitVec.ofInt 64 id)) k)

/-- What the thread of a vforked domain takes from its parent and the arguments. -/
def vforkThread (args : CloneArgs) (current thread : Thread) : Thread :=
  let started := inheritThread current thread
  { started with
    tf := { started.tf with spEl0 := if args.newsp ≠ 0 then args.newsp else started.tf.spEl0 }
    tpidrEl0 := if args.flags &&& cloneSettls ≠ 0 then args.tls else current.tpidrEl0
    clearChildTid := if args.flags &&& cloneChildCleartid ≠ 0 then args.childTid else 0 }

/-- A vforked child whose ids could not be stored is taken back. -/
def undoVfork (host : ProcHost σ) (cpu child childThread : Nat) (k : Kernel σ) : Kernel σ :=
  let k := cellReleaseThread k childThread
  cellDestroyDomain host cpu (destroyDepth k) child k

/-- `cell_vfork_current` once the child has its domain, thread and address space. -/
def startVfork (host : ProcHost σ) (cpu slot parent child childThread : Nat) (args : CloneArgs)
    (frame : TrapFrame) (k : Kernel σ) : Int × CpuMode × Kernel σ :=
  match k.threads[slot]? with
  | none => (-12, .kernel frame, k)
  | some current =>
    let k := inheritDomain host child parent k
    let k := k.modThread childThread (vforkThread args current)
    let id := domainId k child
    let stored := storeCloneId host args.flags cloneParentSettid args.parentTid parent id k
    if stored.1 then
      let stored := storeCloneId host args.flags cloneChildSettid args.childTid child id stored.2
      if stored.1 then finishVfork host cpu slot child frame stored.2
      else (-14, .kernel frame, undoVfork host cpu child childThread stored.2)
    else (-14, .kernel frame, undoVfork host cpu child childThread stored.2)

/-- `cell_vfork_current` once the child has a domain. -/
def vforkInto (host : ProcHost σ) (cpu slot parent parentMm child : Nat) (args : CloneArgs)
    (frame : TrapFrame) (k : Kernel σ) : Int × CpuMode × Kernel σ :=
  match cellAllocThread k child with
  | none => (-11, .kernel frame, k.modDomain child fun d => { d with used := false })
  | some (childThread, k) =>
    let k := cellSaveCurrent cpu frame k
    let k := { k with world := host.mmRetain parentMm k.world }
    let set := cellDomainSetMm host child parentMm k
    if set.1 then startVfork host cpu slot parent child childThread args frame set.2
    else (-12, .kernel frame, abandonChild child childThread set.2)

/-- `vfork`: the child borrows the space, the parent waits. -/
def cellVforkCurrent (host : ProcHost σ) (cpu : Nat) (args : CloneArgs) (frame : TrapFrame)
    (k : Kernel σ) : Int × CpuMode × Kernel σ :=
  match k.currentThread cpu, k.currentDomain cpu with
  | some slot, some parent =>
    match k.domainMm parent, cellAllocDomain k with
    | none, _ => (-12, .kernel frame, k)
    | some _, none => (-11, .kernel frame, k)
    | some parentMm, some (child, k) =>
      vforkInto host cpu slot parent parentMm child args frame k
  | _, _ => (-12, .kernel frame, k)

/-- What a new thread of the same domain takes from the thread that clones. -/
def cloneThread (args : CloneArgs) (current thread : Thread) : Thread :=
  { thread with
    state := .runnable
    tf := { current.tf.setX regX0 0 with spEl0 := args.newsp }
    fp := current.fp
    signalMask := current.signalMask
    pendingSignals := 0
    sigaltstackFlags := 2
    tpidrEl0 := if args.flags &&& cloneSettls ≠ 0 then args.tls else current.tpidrEl0
    clearChildTid := if args.flags &&& cloneChildCleartid ≠ 0 then args.childTid else 0 }

/-- A thread in the same domain. -/
def cellCloneThreadCurrent (host : ProcHost σ) (cpu : Nat) (args : CloneArgs) (frame : TrapFrame)
    (k : Kernel σ) : Int × Kernel σ :=
  match k.currentThread cpu, k.currentDomain cpu with
  | some slot, some domain =>
    if args.newsp = 0 then (-22, k)
    else
      match cellAllocThread k domain with
      | none => (-11, k)
      | some (thread, k) =>
        let k := cellSaveCurrent cpu frame k
        match k.threads[slot]? with
        | none => (-22, k)
        | some current =>
          let k := k.modThread thread (cloneThread args current)
          let tid := ((k.threads[thread]?).map (·.tid)).getD 0
          -- A store that fails is ignored here.
          let k := (storeCloneId host args.flags cloneParentSettid args.parentTid domain tid k).2
          let k := (storeCloneId host args.flags cloneChildSettid args.childTid domain tid k).2
          (tid, k.modThread slot fun t => { t with tf := t.tf.setX regX0 (BitVec.ofInt 64 tid) })
  | _, _ => (-22, k)

/-- The loop of `cell_exec_replace` over the other threads of the domain. They are freed even
while another processor runs them. -/
def dropOtherThreads (slot domain : Nat) (k : Kernel σ) : Kernel σ :=
  let dropped := (k.threads.zipIdx).countP fun (t, i) => i != slot && t.domain == some domain
  { k with
    threads := k.threads.mapIdx fun i (t : Thread) =>
      if i ≠ slot ∧ t.domain = some domain then { t with state := .unused, domain := none }
      else t }.modDomain domain (Domain.dropThread^[dropped])

/-- The registers with which a program starts. -/
def startFrame (entry sp : BitVec 64) : TrapFrame :=
  { TrapFrame.zero with elrEl1 := entry, spEl0 := sp, spsrEl1 := userSpsr }

/-- `cell_exec_replace`, with the entry point and stack that the loader computed. -/
def cellExecReplace (host : ProcHost σ) (cpu : Nat) (entry sp : BitVec 64) (frame : TrapFrame)
    (k : Kernel σ) : Bool × TrapFrame × Kernel σ :=
  match k.currentThread cpu, k.currentDomain cpu with
  | some slot, some domain =>
    let owned := host.mmFromOwned k.world
    let k := { k with world := owned.2 }
    match owned.1 with
    | none => (false, frame, k)
    | some mm =>
      let k := dropOtherThreads slot domain k
      let k := { k with world := host.closeOnExec domain k.world }
      let k := (cellDomainSetMm host domain mm k).2
      let k := k.modDomain domain fun d => { d with signalActions := fun _ => .zero }
      let k := k.modThread slot fun t =>
        { t with tf := startFrame entry sp, fp := .zero, tpidrEl0 := 0 }
      let k := k.modCpu cpu fun c => { c with fp := .zero, tpidrEl0 := 0 }
      (true, startFrame entry sp, cellWakeVforkParentOf k (domainId k domain))
  | _, _ => (false, frame, k)

/-- The registers with which the thread of a spawned domain starts. -/
def spawnFrame (frame : TrapFrame) (entry arg : BitVec 64) (id : Int) : TrapFrame :=
  { (frame.setX regX0 arg).setX regX1 (BitVec.ofInt 64 id) with
    elrEl1 := entry, spsrEl1 := frame.spsrEl1 &&& ~~~(1#64 <<< 7) }

/-- The end of `snapshot_spawn`, once the child has an address space. -/
def finishSpawn (host : ProcHost σ) (cpu slot parent child childThread : Nat)
    (entry arg : BitVec 64) (frame : TrapFrame) (k : Kernel σ) : Int × Kernel σ :=
  let k := inheritDomain host child parent k
  let k := k.modThread childThread fun t => { t with state := .runnable }
  let k := cellSaveCurrent cpu frame k
  match k.threads[slot]? with
  | none => (-12, k)
  | some current =>
    let id := domainId k child
    (id, k.modThread childThread fun t =>
      { t with
        tf := spawnFrame frame entry arg id, fp := current.fp, tpidrEl0 := current.tpidrEl0 })

/-- `snapshot_spawn` once the child has a domain. -/
def spawnInto (host : ProcHost σ) (cpu slot parent child : Nat) (snapId : Int)
    (entry arg : BitVec 64) (frame : TrapFrame) (k : Kernel σ) : Int × Kernel σ :=
  match cellAllocThread k child with
  | none => (-12, k.modDomain child fun d => { d with used := false })
  | some (childThread, k) =>
    let cloned := host.mmFromSnapshot snapId k.world
    let k := { k with world := cloned.2 }
    match cloned.1 with
    | none => (-12, abandonChild child childThread k)
    | some mm =>
      let set := cellDomainSetMm host child mm k
      if set.1 then finishSpawn host cpu slot parent child childThread entry arg frame set.2
      else
        (-12, abandonChild child childThread
          { set.2 with world := host.mmRelease (some mm) set.2.world })

/-- `snapshot_spawn`. The child's domain is taken before the caller and the snapshot are
checked. -/
def snapshotSpawn (host : ProcHost σ) (cpu : Nat) (snapId : Int) (entry arg : BitVec 64)
    (frame : TrapFrame) (k : Kernel σ) : Int × Kernel σ :=
  match k.currentThread cpu, k.currentDomain cpu, cellAllocDomain k with
  | some slot, some parent, some (child, allocated) =>
    if host.snapshotExists snapId k.world then
      spawnInto host cpu slot parent child snapId entry arg frame allocated
    else (-12, takeDomainSlot k)
  | _, _, _ => (-12, takeDomainSlot k)

/-- The clearing of `clear_child_tid` when a thread exits. -/
def clearChildTidOf (host : ProcHost σ) (slot : Nat) (k : Kernel σ) : Kernel σ :=
  match k.threads[slot]? with
  | none => k
  | some t =>
    if t.clearChildTid = 0 then k
    else
      let mm := t.domain.bind k.domainMm
      let world := match mm with
        | none => k.world
        | some _ => (host.copyWordToUser mm t.clearChildTid 0 k.world).2
      cellFutexWakeDomain { k with world := world } t.domain t.clearChildTid 1

/-- The end of both exits for the last thread of a domain: the thread is a zombie, a waiting
parent is woken, and the processor is given up. -/
def leaveDomain (host : ProcHost σ) (cpu slot domain : Nat) (frame : TrapFrame) (k : Kernel σ) :
    CpuMode × Kernel σ :=
  let k := k.modThread slot fun t => { t with state := .zombie, runningCpu := -1 }
  cellSchedule host cpu frame (cellWakeParentOf host cpu domain k)

/-- The domain of an exiting process becomes a zombie. -/
def markExited (host : ProcHost σ) (domain : Nat) (status : Int) (k : Kernel σ) : Kernel σ :=
  let k := k.modDomain domain fun d =>
    { d with exitStatus := status, termSignal := 0, zombie := true }
  { k with world := host.closeAllFds domain k.world }

/-- A thread exits, the last one with its domain. -/
def cellExitThreadCurrent (host : ProcHost σ) (cpu : Nat) (status : Int) (frame : TrapFrame)
    (k : Kernel σ) : CpuMode × Kernel σ :=
  match k.currentThread cpu, k.currentDomain cpu with
  | some slot, some domain =>
    let k := clearChildTidOf host slot (cellFutexCleanupRobustList host k slot)
    if cellRunnableOrBlockedThreadsInDomain k (some domain) ≤ 1 then
      leaveDomain host cpu slot domain frame (markExited host domain status k)
    else cellSchedule host cpu frame (cellReleaseThread k slot)
  | _, _ => (.kernel frame, k)

/-- What `cell_exit_group_current` does to another thread of the domain. -/
def exitSibling (thread : Thread) : Thread :=
  if 0 ≤ thread.runningCpu then { thread with state := .zombie }
  else { thread with state := .unused, runningCpu := -1, domain := none }

/-- The loop of `cell_exit_group_current` over the other threads of the domain. -/
def exitSiblings (slot domain : Nat) (k : Kernel σ) : Kernel σ :=
  let dropped := (k.threads.zipIdx).countP fun (t, i) =>
    i != slot && t.domain == some domain && decide (t.runningCpu < 0)
  { k with
    threads := k.threads.mapIdx fun i (t : Thread) =>
      if i ≠ slot ∧ t.domain = some domain then exitSibling t else t }.modDomain domain
    (Domain.dropThread^[dropped])

/-- All threads of the domain exit. -/
def cellExitGroupCurrent (host : ProcHost σ) (cpu : Nat) (status : Int) (frame : TrapFrame)
    (k : Kernel σ) : CpuMode × Kernel σ :=
  match k.currentThread cpu, k.currentDomain cpu with
  | some slot, some domain =>
    let k := markExited host domain status (clearChildTidOf host slot k)
    leaveDomain host cpu slot domain frame (exitSiblings slot domain k)
  | _, _ => (.kernel frame, k)

/-- A dead child that the call waits for. -/
def findWaitableChild (k : Kernel σ) (parentId pid : Int) : Option Nat :=
  k.domains.findIdx? fun d =>
    d.used && d.zombie && d.parentId == parentId && (decide (pid ≤ 0) || d.id == pid)

/-- There is a child to wait for. -/
def hasChild (k : Kernel σ) (parentId pid : Int) : Bool :=
  k.domains.any fun d => d.used && d.parentId == parentId && (decide (pid ≤ 0) || d.id == pid)

/-- The end of `cell_wait4_options`, for a zombie child whose status was stored. -/
def reapChild (host : ProcHost σ) (cpu slot child : Nat) (k : Kernel σ) : Kernel σ :=
  let running := domainHasRunningThread k child
  let k := retireChildThread child running k
  let k := releaseChild (cellDestroyDomain host cpu (destroyDepth k)) child running k
  k.modThread slot fun t => { t with waitTarget := -1, waitReason := .none }

/-- `wait4`: a status, nothing yet, or a wait. -/
def cellWait4Options (host : ProcHost σ) (cpu : Nat) (pid : Int) (statusAddr : BitVec 64)
    (noHang : Bool) (frame : TrapFrame) (k : Kernel σ) : Int × CpuMode × Kernel σ :=
  match k.currentThread cpu, k.currentDomain cpu with
  | some slot, some domain =>
    match findWaitableChild k (domainId k domain) pid with
    | none =>
      if !hasChild k (domainId k domain) pid then (-10, .kernel frame, k)
      else if noHang then (0, .kernel frame, k)
      else
        let k := cellSaveCurrent cpu frame k
        let k := k.modThread slot fun t =>
          { t with
            state := .blocked, runningCpu := -1, waitReason := .child, waitTarget := pid }
        (cellSwitched, cellSchedule host cpu frame k)
    | some child =>
      match k.domains[child]? with
      | none => (-10, .kernel frame, k)
      | some dying =>
        let stored :=
          if statusAddr = 0 then (true, k.world)
          else match k.domainMm domain with
            | none => (false, k.world)
            | some mm => host.copyWordToUser (some mm) statusAddr (waitStatus dying) k.world
        let k := { k with world := stored.2 }
        if stored.1 then (dying.id, .kernel frame, reapChild host cpu slot child k)
        else (-14, .kernel frame, k)
  | _, _ => (-10, .kernel frame, k)

/-! ## The first domain -/

/-- The tables that `cell_system_init` zeroes, and the processors: the first one runs the boot
code, the others call `cell_schedule` without a thread. -/
def systemInit (threads domains cpus : Nat) (world : σ) : Kernel σ where
  threads := List.replicate threads .zero
  domains := List.replicate domains .zero
  nextThreadId := 1
  nextDomainId := 1
  cpus := ⟨none, .kernel .zero, .zero, 0⟩ ::
    List.replicate (cpus - 1) ⟨none, .waiting ⟨none, none, 0⟩, .zero, 0⟩
  world := world

/-- `cell_create_init` followed by `enter_el0`; none when the kernel halts instead. -/
def cellCreateInit (host : ProcHost σ) (entry sp : BitVec 64) (k : Kernel σ) :
    Option (Kernel σ) := do
  let (domain, k) ← cellAllocDomain k
  let (thread, k) ← cellAllocThread k domain
  let owned := host.mmFromOwned k.world
  let mm ← owned.1
  let set := cellDomainSetMm host domain mm { k with world := owned.2 }
  let ready := host.initStdio domain set.2.world
  if set.1 && ready.1 then
    let k := { set.2 with world := ready.2 }.modThread thread fun t =>
      { t with state := .runnable, tf := startFrame entry sp, runningCpu := 0 }
    some ((k.modCpu 0 fun c => { c with current := some thread }).setMode 0
      (.user (startFrame entry sp)))
  else none

end Spore.Proc
