import Spore.Proc.Kernel

/-!
# Tables, wakeups and the scheduler (`proc/thread.c`, `proc/domain.c`, `proc/futex.c`)

Functions take the number of the processor they run on, which the source reads from a system
register. A function that may end in `cell_schedule` returns what its processor does next: it
goes on in the handler with a frame, or it waits inside the scheduler.
-/

namespace Spore.Proc

variable {σ : Type}

/-! ## Domains and threads -/

/-- The slot of the used domain with the id. -/
def cellFindDomain (k : Kernel σ) (id : Int) : Option Nat :=
  k.domains.findIdx? fun domain => domain.used && domain.id == id

/-- A free slot, with the next id. -/
def cellAllocDomain (k : Kernel σ) : Option (Nat × Kernel σ) := do
  let slot ← k.domains.findIdx? fun domain => !domain.used
  let fresh : Domain :=
    { Domain.zero with
      used := true, id := k.nextDomainId, pgrpId := k.nextDomainId,
      sessionId := k.nextDomainId }
  some (slot, { k with
    domains := k.domains.set slot fresh
    nextDomainId := k.nextDomainId + 1 })

/-- What a child has from its parent. -/
def cellCopyDomainMetadata (dst src : Domain) : Domain :=
  { dst with
    caps := src.caps, budget := src.budget, pgrpId := src.pgrpId, sessionId := src.sessionId,
    signalActions := src.signalActions }

/-- A free slot, with the next thread id. -/
def cellAllocThread (k : Kernel σ) (domain : Nat) : Option (Nat × Kernel σ) := do
  let slot ← k.threads.findIdx? fun thread => thread.state == .unused
  let fresh : Thread :=
    { Thread.zero with
      tid := k.nextThreadId, runningCpu := -1, domain := some domain, waitTarget := -1,
      sigaltstackFlags := 2 }
  let k := { k with
    threads := k.threads.set slot fresh
    nextThreadId := k.nextThreadId + 1 }
  some (slot, k.modDomain domain fun d => { d with refcount := d.refcount + 1 })

/-- `if (domain->refcount > 0) { --domain->refcount; }`. -/
def Domain.dropThread (domain : Domain) : Domain :=
  { domain with refcount := if domain.refcount = 0 then 0 else domain.refcount - 1 }

/-- `smp_clear_current_thread_if` on every processor. -/
def clearCurrentThread (thread : Nat) (k : Kernel σ) : Kernel σ :=
  { k with cpus := k.cpus.map fun cpu =>
      if cpu.current = some thread then { cpu with current := none } else cpu }

/-- The slot is free, and its domain has a thread less. -/
def cellReleaseThread (k : Kernel σ) (thread : Nat) : Kernel σ :=
  match (k.threads[thread]?).bind (·.domain) with
  | none => k
  | some domain =>
    let k := k.modDomain domain Domain.dropThread
    let k := k.modThread thread fun t =>
      { t with state := .unused, runningCpu := -1, domain := none }
    clearCurrentThread thread k

/-- The first thread of the domain. -/
def cellThreadForDomain (k : Kernel σ) (domain : Nat) : Option Nat :=
  k.threads.findIdx? fun thread => thread.state != .unused && thread.domain == some domain

/-- The threads of a domain that are left. -/
def cellRunnableOrBlockedThreadsInDomain (k : Kernel σ) (domain : Option Nat) : Nat :=
  k.threads.countP fun thread =>
    thread.domain == domain && (thread.state == .runnable || thread.state == .blocked)

/-- Some processor runs a thread of it. -/
def domainHasRunningThread (k : Kernel σ) (domain : Nat) : Bool :=
  k.threads.any fun thread => thread.domain == some domain && decide (0 ≤ thread.runningCpu)

/-! ## Wakeups -/

/-- The parent of a `vfork` goes on. -/
def cellWakeVforkParentOf (k : Kernel σ) (childId : Int) : Kernel σ :=
  k.mapThreads fun thread =>
    if thread.state = .blocked ∧ thread.waitReason = .vfork ∧ thread.waitTarget = childId then
      { thread with state := .runnable, waitReason := .none, waitTarget := -1 }
    else thread

/-- The loop of `cell_futex_wake_domain` over the threads from one slot on. -/
def futexWakeFrom (domain : Option Nat) (uaddr : BitVec 64) : Nat → List Thread → List Thread
  | _, [] => []
  | 0, threads => threads
  | count + 1, thread :: rest =>
    if thread.domain = domain ∧ thread.state = .blocked ∧ thread.waitReason = .futex ∧
        thread.futexAddr = uaddr then
      { thread with
        state := .runnable, waitReason := .none, futexAddr := 0,
        tf := thread.tf.setX regX0 0 } :: futexWakeFrom domain uaddr count rest
    else thread :: futexWakeFrom domain uaddr (count + 1) rest

/-- Waiters on the address are woken, up to the count. -/
def cellFutexWakeDomain (k : Kernel σ) (domain : Option Nat) (uaddr : BitVec 64) (count : Nat) :
    Kernel σ :=
  { k with threads := futexWakeFrom domain uaddr count k.threads }

/-- Locks that a dead thread holds are marked, and a waiter is woken. -/
def cellFutexCleanupRobustList (host : ProcHost σ) (k : Kernel σ) (thread : Nat) : Kernel σ :=
  match k.threads[thread]? with
  | none => k
  | some t =>
    match t.domain with
    | none => k
    | some domain =>
      let (words, world) := host.robustEntries (k.domainMm domain) t.robustList k.world
      words.foldl (fun k word => cellFutexWakeDomain k (some domain) word 1)
        { k with world := world }

/-- How the loops over blocked threads (sleep, pipe, socket, pty, poll, epoll, terminal) end a
wait: the result register may be written, the thread becomes runnable, and its wait arguments
are cleared in the way of the particular loop. -/
def wakeThread (k : Kernel σ) (thread : Nat) (result : Option (BitVec 64)) (target : Int)
    (args : WaitArgs) : Kernel σ :=
  k.modThread thread fun t =>
    if t.state = .blocked then
      { t with
        tf := match result with
          | some value => t.tf.setX regX0 value
          | none => t.tf
        state := .runnable
        waitReason := .none
        waitTarget := target
        wait := args }
    else t

/-- The status word that a waiting parent reads. -/
def waitStatus (domain : Domain) : BitVec 32 :=
  if domain.termSignal ≠ 0 then BitVec.ofInt 32 domain.termSignal
  else BitVec.ofInt 32 domain.exitStatus <<< 8

/-- The status of a child is stored where its waiting parent asked for it; a store that fails
is ignored. -/
def storeWaitStatus (host : ProcHost σ) (domain : Nat) (addr : BitVec 64) (status : BitVec 32)
    (k : Kernel σ) : Kernel σ :=
  if addr ≠ 0 ∧ (k.domainMm domain).isSome then
    { k with world := (host.copyWordToUser (k.domainMm domain) addr status k.world).2 }
  else k

/-- The first thread of a reaped child is freed, or left a zombie while a processor is busy
with the child. -/
def retireChildThread (child : Nat) (busy : Bool) (k : Kernel σ) : Kernel σ :=
  match cellThreadForDomain k child with
  | none => k
  | some thread =>
    k.modThread thread fun t => { t with state := if busy then .zombie else .unused }

/-- A reaped child is destroyed, or left without a parent while a processor is busy with it. -/
def releaseChild (destroy : Nat → Kernel σ → Kernel σ) (child : Nat) (busy : Bool)
    (k : Kernel σ) : Kernel σ :=
  if busy then k.modDomain child fun d => { d with parentId := 0 } else destroy child k

/-- The end of `cell_wake_parent_of`, for a parent thread that waits for the child. -/
def reapInto (host : ProcHost σ) (destroy : Nat → Kernel σ → Kernel σ)
    (cpu child : Nat) (dying : Domain) (parentDomain parent : Nat) (waiter : Thread)
    (k : Kernel σ) : Kernel σ :=
  let busy := k.currentDomain cpu == some child || domainHasRunningThread k child
  let k := storeWaitStatus host parentDomain (waiter.tf.x regX1) (waitStatus dying) k
  let k := k.modThread parent fun t => { t with tf := t.tf.setX regX0 (BitVec.ofInt 64 dying.id) }
  let k := releaseChild destroy child busy (retireChildThread child busy k)
  k.modThread parent fun t => { t with state := .runnable, waitReason := .none, waitTarget := -1 }

/-- `cell_wake_parent_of`, with `cell_destroy_domain` as an argument. -/
def wakeParentWith (host : ProcHost σ) (destroy : Nat → Kernel σ → Kernel σ) (cpu child : Nat)
    (k : Kernel σ) : Kernel σ :=
  match k.domains[child]? with
  | none => k
  | some dying =>
    let k := cellWakeVforkParentOf k dying.id
    match cellFindDomain k dying.parentId with
    | none => k
    | some parentDomain =>
      match cellThreadForDomain k parentDomain with
      | none => k
      | some parent =>
        match k.threads[parent]? with
        | none => k
        | some waiter =>
          if waiter.state = .blocked ∧ waiter.waitReason = .child ∧
              (waiter.waitTarget < 0 ∨ waiter.waitTarget = dying.id) then
            reapInto host destroy cpu child dying parentDomain parent waiter k
          else k

/-- One turn of the loop of `cell_destroy_domain` over the children of a domain. -/
def reparentChild (host : ProcHost σ) (destroy : Nat → Kernel σ → Kernel σ) (cpu : Nat)
    (id reparentTo : Int) (k : Kernel σ) (slot : Nat) : Kernel σ :=
  match k.domains[slot]? with
  | none => k
  | some child =>
    if child.used ∧ child.parentId = id then
      let k := k.modDomain slot fun d => { d with parentId := reparentTo }
      if child.zombie ∧ reparentTo ≠ 0 then wakeParentWith host destroy cpu slot k else k
    else k

/-- `cell_destroy_domain`. It and `cell_wake_parent_of` call each other; each nested call is for
a domain that was just given a new parent, so the number of domains bounds the depth. -/
def cellDestroyDomain (host : ProcHost σ) (cpu : Nat) : Nat → Nat → Kernel σ → Kernel σ
  | 0, _, k => k
  | depth + 1, domain, k =>
    match k.domains[domain]? with
    | none => k
    | some dying =>
      let reparentTo : Int := if dying.id ≠ 1 ∧ (cellFindDomain k 1).isSome then 1 else 0
      let k := (List.range k.domains.length).foldl
        (reparentChild host (cellDestroyDomain host cpu depth) cpu dying.id reparentTo) k
      let k := k.mapThreads fun t =>
        if t.domain = some domain then
          { t with state := .unused, runningCpu := -1, domain := none }
        else t
      let world := host.mmRelease (k.domainMm domain) (host.closeAllFds domain k.world)
      { k with world := world }.modDomain domain fun d =>
        { d with mm := none, used := false, zombie := false, refcount := 0 }

/-- Enough depth for every nested call. -/
def destroyDepth (k : Kernel σ) : Nat := k.domains.length + 1

/-- A parent that waits for the child is woken with its status. -/
def cellWakeParentOf (host : ProcHost σ) (cpu child : Nat) (k : Kernel σ) : Kernel σ :=
  wakeParentWith host (cellDestroyDomain host cpu (destroyDepth k)) cpu child k

/-! ## The scheduler -/

/-- The registers of the running thread are stored. -/
def cellSaveCurrent (cpu : Nat) (frame : TrapFrame) (k : Kernel σ) : Kernel σ :=
  match k.cpus[cpu]? with
  | none => k
  | some c =>
    match c.current with
    | none => k
    | some thread =>
      k.modThread thread fun t => { t with tf := frame, fp := c.fp, tpidrEl0 := c.tpidrEl0 }

/-- A dead domain without a parent goes when no processor runs it any more. -/
def cleanupReapedCurrentDomain (host : ProcHost σ) (cpu : Nat) (oldDomain : Option Nat)
    (next : Nat) (k : Kernel σ) : Kernel σ :=
  match oldDomain with
  | none => k
  | some old =>
    match k.domains[old]? with
    | none => k
    | some domain =>
      if (k.threads[next]?).bind (·.domain) = some old ∨ !domain.zombie ∨ domain.parentId ≠ 0 ∨
          domainHasRunningThread k old then k
      else cellDestroyDomain host cpu (destroyDepth k) old k

/-- `restore_thread`, and `cell_restore_current` on the current thread. -/
def restoreThread (cpu thread : Nat) (k : Kernel σ) : CpuMode × Kernel σ :=
  match k.threads[thread]? with
  | none => (.off, k)
  | some t => (.kernel t.tf, k.modCpu cpu fun c => { c with fp := t.fp, tpidrEl0 := t.tpidrEl0 })

/-- The thread that was current gives up the processor it still holds. -/
def leaveCurrent (cpu : Nat) (wait : SchedWait) (candidate : Nat) (k : Kernel σ) : Kernel σ :=
  match wait.current with
  | none => k
  | some current =>
    k.modThread current fun t =>
      if current ≠ candidate ∧ t.runningCpu = cpu then { t with runningCpu := -1 } else t

/-- What `cell_schedule` does with the tables once it has chosen a thread. -/
def prepareSwitch (host : ProcHost σ) (cpu : Nat) (wait : SchedWait) (candidate : Nat)
    (k : Kernel σ) : Kernel σ :=
  let k := leaveCurrent cpu wait candidate k
  let k := k.modCpu cpu fun c => { c with current := some candidate }
  let k := k.modThread candidate fun t => { t with runningCpu := cpu }
  cleanupReapedCurrentDomain host cpu wait.oldDomain candidate k

/-- The first thread from a slot on, wrapping around, that a test accepts. -/
def findThreadFrom (k : Kernel σ) (start : Nat) (accepts : Thread → Bool) : Option Nat :=
  ((List.range k.threads.length).map fun n => (start + n) % k.threads.length).find? fun slot =>
    (k.threads[slot]?).any accepts

/-- The thread that one turn of the loop of `cell_schedule` chooses. -/
def scheduleChoice (cpu : Nat) (wait : SchedWait) (k : Kernel σ) : Option Nat :=
  let currentRunnable := (wait.current.bind (k.threads[·]?)).any (·.state == .runnable)
  let near := if currentRunnable then
      findThreadFrom k wait.start fun t =>
        t.state == .runnable && (decide (t.runningCpu < 0) || t.runningCpu == (cpu : Int))
    else none
  near.or (findThreadFrom k wait.start fun t =>
    t.state == .runnable && decide (t.runningCpu < 0))

/-- One turn of the loop of `cell_schedule`. -/
def schedulePass (host : ProcHost σ) (cpu : Nat) (wait : SchedWait) (k : Kernel σ) :
    CpuMode × Kernel σ :=
  match scheduleChoice cpu wait k with
  | some candidate =>
    restoreThread cpu candidate (prepareSwitch host cpu wait candidate k)
  | none =>
    let hasBlocked := k.threads.any (·.state == .blocked)
    let hasRunningElsewhere := k.threads.any fun t =>
      t.state == .runnable && decide (0 ≤ t.runningCpu) && t.runningCpu != (cpu : Int)
    if hasBlocked || hasRunningElsewhere then (.waiting wait, k) else (.off, k)

/-- `cell_schedule` up to its first wait. -/
def cellSchedule (host : ProcHost σ) (cpu : Nat) (frame : TrapFrame) (k : Kernel σ) :
    CpuMode × Kernel σ :=
  let current := k.currentThread cpu
  let wait : SchedWait := ⟨current, k.currentDomain cpu, (current.map (· + 1)).getD 0⟩
  schedulePass host cpu wait (cellSaveCurrent cpu frame k)

/-- The `cell_block_current_on_*` functions and the other places that block the caller: each
saves the frame, records its reason and arguments, and gives up the processor. -/
def blockCurrent (host : ProcHost σ) (cpu : Nat) (reason : WaitReason) (target : Option Int)
    (args : WaitArgs) (futexAddr : BitVec 64) (frame : TrapFrame) (k : Kernel σ) :
    CpuMode × Kernel σ :=
  match k.currentThread cpu with
  | none => (.kernel frame, k)
  | some thread =>
    let k := cellSaveCurrent cpu frame k
    let k := k.modThread thread fun t =>
      { t with
        runningCpu := -1, state := .blocked, waitReason := reason,
        waitTarget := target.getD t.waitTarget, wait := args, futexAddr := futexAddr }
    cellSchedule host cpu frame k

end Spore.Proc
