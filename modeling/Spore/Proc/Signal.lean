import Spore.Proc.Thread

/-!
# Signals (`proc/signal.c`)

Delivery saves the interrupted context in a frame on the user's stack and sends the thread to
its handler; `rt_sigreturn` reads such a frame back.
-/

namespace Spore.Proc

variable {σ : Type}

/-- `SIGKILL`. -/
def sigKill : Int := 9

/-- `SIGSEGV`. -/
def sigSegv : Int := 11

/-- `SA_SIGINFO`. -/
def saSiginfo : BitVec 64 := 4

/-- `SA_ONSTACK`. -/
def saOnstack : BitVec 64 := 0x08000000

/-- `SA_RESTART`. -/
def saRestart : BitVec 64 := 0x10000000

/-- `SA_RESETHAND`. -/
def saResethand : BitVec 64 := 0x80000000

/-- `SS_ONSTACK`. -/
def ssOnstack : BitVec 32 := 1

/-- `SS_DISABLE`. -/
def ssDisable : BitVec 32 := 2

/-- The word "SPGSIGFR" that marks a frame written by delivery. -/
def signalFrameMagic : BitVec 64 := 0x5350475349474652

/-- `sizeof(struct signal_frame64)`. -/
def signalFrameSize : Nat := 5000

/-- `offsetof(struct signal_frame64, ucontext)`; `siginfo` is at offset 0. -/
def ucontextOffset : Nat := 128

/-- The signals the kernel knows. -/
def signalIsSupported (signal : Int) : Bool :=
  [1, 2, 3, 6, 9, 10, 11, 12, 13, 15, 17, 18, 23, 28].contains signal

/-- Ignored without a handler: child, continue, urgent data, window size. -/
def signalDefaultIgnored (signal : Int) : Bool := [17, 18, 23, 28].contains signal

/-- The bit of a signal in a mask. -/
def signalBit (signal : Int) : BitVec 64 :=
  if signal ≤ 0 ∨ (nsig : Int) ≤ signal then 0 else 1#64 <<< (signal - 1).toNat

/-- These two cannot be blocked. -/
def signalIsUnblockable (signal : Int) : Bool := signal == sigKill || signal == sigSegv

/-- A mask without them. -/
def signalMaskSanitized (mask : BitVec 64) : BitVec 64 :=
  mask &&& ~~~signalBit sigKill &&& ~~~signalBit sigSegv

/-- The mask of the thread has the signal. -/
def signalIsBlocked (thread : Thread) (signal : Int) : Bool :=
  !signalIsUnblockable signal && thread.signalMask &&& signalBit signal != 0

/-- The slot of a signal in `signal_actions`; none outside the range every entry point
checks. -/
def signalSlot (signal : Int) : Option (Fin nsig) :=
  if range : 0 < signal ∧ signal < nsig then
    some ⟨signal.toNat, by have := range.1; have := range.2; omega⟩
  else none

/-- The stack pointer is on the alternate stack. -/
def threadOnSigaltstack (thread : Thread) : Bool :=
  if thread.sigaltstackFlags &&& ssDisable ≠ 0 ∨ thread.sigaltstackSize = 0 then false
  else
    let last := thread.sigaltstackSp + thread.sigaltstackSize
    decide (thread.sigaltstackSp ≤ last ∧ thread.sigaltstackSp ≤ thread.tf.spEl0 ∧
      thread.tf.spEl0 < last)

/-- The frame that `cell_deliver_signal_to_thread_fault` and `fill_signal_context` build. -/
def fillSignalFrame (thread : Thread) (signal : Int) (faultAddr : BitVec 64) (sigCode : Int) :
    SignalFrame where
  siSigno := signal
  siCode := sigCode
  siAddr := faultAddr
  ucStack :=
    { ssSp := thread.sigaltstackSp
      ssFlags := if threadOnSigaltstack thread then ssOnstack else thread.sigaltstackFlags
      ssSize := thread.sigaltstackSize }
  ucSigmask := thread.signalMask
  ucMcontext :=
    { faultAddress := faultAddr
      regs := thread.tf.x
      sp := thread.tf.spEl0
      pc := thread.tf.elrEl1
      pstate := thread.tf.spsrEl1 }
  magic := signalFrameMagic
  signal := BitVec.ofInt 64 signal
  savedSignalMask := thread.signalMask
  saved := thread.tf

/-- All threads of the domain exit with the signal. -/
def terminateDomainBySignal (host : ProcHost σ) (cpu domain : Nat) (signal : Int)
    (k : Kernel σ) : Kernel σ :=
  match k.domains[domain]? with
  | none => k
  | some d =>
    if d.zombie then k
    else
      let k := k.modDomain domain fun d =>
        { d with exitStatus := 128 + signal, termSignal := signal, zombie := true }
      let k := { k with world := host.closeAllFds domain k.world }
      let k := k.mapThreads fun t =>
        if t.domain = some domain then
          { t with state := .zombie, runningCpu := if t.runningCpu < 0 then -1 else t.runningCpu }
        else t
      cellWakeParentOf host cpu domain k

/-- The waits that `SA_RESTART` restarts. -/
def waitReasonIsRestartable (reason : WaitReason) : Bool :=
  [.child, .stdin, .socket, .pipe, .inotify, .pty, .futex].contains reason

/-- The frame has to wait while the thread runs on another processor. -/
def threadRequiresDeferredSignalFrame (k : Kernel σ) (cpu slot : Nat) (thread : Thread) : Bool :=
  k.currentThread cpu != some slot && thread.state == .runnable && decide (0 ≤ thread.runningCpu)

/-- The signal becomes pending. -/
def queueSignalToThread (slot : Nat) (signal : Int) (k : Kernel σ) : Kernel σ :=
  k.modThread slot fun t => { t with pendingSignals := t.pendingSignals ||| signalBit signal }

/-- How delivery ends a blocking call: it is restarted or returns `EINTR`. -/
def interruptWait (action : SignalAction) (thread : Thread) : Thread :=
  if thread.state = .blocked then
    let restart := action.flags &&& saRestart != 0 && waitReasonIsRestartable thread.waitReason &&
      decide (4 ≤ thread.tf.elrEl1)
    { thread with
      tf := if restart then { thread.tf with elrEl1 := thread.tf.elrEl1 - 4 }
        else thread.tf.setX regX0 (-4)
      state := .runnable
      waitReason := .none
      waitTarget := -1
      wait :=
        { thread.wait with
          stdinBuf := 0, stdinLen := 0, pipeBuf := 0, pipeLen := 0, socketAddr := 0,
          socketAddrlen := 0, socketAcceptFlags := 0, socketWrite := false, socketMsg := false,
          socketMsgAddr := 0, socketIov := 0, socketIovlen := 0, socketFlags := 0,
          socketHasDeadline := false, socketDeadlineTick := 0 } }
  else thread

/-- Where delivery puts the frame. -/
def signalFrameAddr (thread : Thread) (action : SignalAction) : BitVec 64 :=
  let top :=
    if action.flags &&& saOnstack ≠ 0 ∧ ¬ threadOnSigaltstack thread ∧
        thread.sigaltstackFlags &&& ssDisable = 0 ∧
        BitVec.ofNat 64 signalFrameSize ≤ thread.sigaltstackSize then
      thread.sigaltstackSp + thread.sigaltstackSize
    else thread.tf.spEl0
  (top - BitVec.ofNat 64 signalFrameSize) &&& ~~~15#64

/-- The registers and mask with which a handler starts. -/
def enterHandler (action : SignalAction) (signal : Int) (frameAddr : BitVec 64)
    (thread : Thread) : Thread :=
  let withInfo := action.flags &&& saSiginfo ≠ 0
  let tf := thread.tf.setX regX0 (BitVec.ofInt 64 signal)
  let tf := tf.setX regX1 (if withInfo then frameAddr else 0)
  let tf := tf.setX regX2 (if withInfo then frameAddr + BitVec.ofNat 64 ucontextOffset else 0)
  let tf := tf.setX regX30 action.restorer
  { thread with
    tf := { tf with spEl0 := frameAddr, elrEl1 := action.handler }
    signalMask := signalMaskSanitized (thread.signalMask ||| action.mask ||| signalBit signal) }

/-- Store a frame in user memory, once its pages are in and writable. -/
def storeSignalFrame (host : ProcHost σ) (mm : Option Nat) (addr : BitVec 64)
    (sigframe : SignalFrame) (world : σ) : Bool × σ :=
  match host.ensureUserRange mm addr signalFrameSize true world with
  | (false, world) => (false, world)
  | (true, world) => host.copyFrameToUser mm addr sigframe world

/-- The second half of `cell_deliver_signal_to_thread_fault`: the signal has a handler and the
thread can take a frame now. -/
def deliverToHandler (host : ProcHost σ) (cpu slot domain : Nat) (signal : Int)
    (index : Fin nsig) (action : SignalAction) (faultAddr : BitVec 64) (sigCode : Int)
    (k : Kernel σ) : Bool × Kernel σ :=
  let k := k.modThread slot (interruptWait action)
  match k.threads[slot]? with
  | none => (false, k)
  | some thread =>
    let addr := signalFrameAddr thread action
    let stored := storeSignalFrame host (k.domainMm domain) addr
      (fillSignalFrame thread signal faultAddr sigCode) k.world
    let k := { k with world := stored.2 }
    if stored.1 then
      let k := k.modThread slot (enterHandler action signal addr)
      if action.flags &&& saResethand ≠ 0 then
        (true, k.modDomain domain fun d =>
          { d with
            signalActions := Function.update d.signalActions index { action with handler := 0 } })
      else (true, k)
    else (true, terminateDomainBySignal host cpu domain sigSegv k)

/-- A signal with its cause: ignored, queued, fatal or a handler's frame. -/
def cellDeliverSignalToThreadFault (host : ProcHost σ) (cpu : Nat) (thread : Option Nat)
    (signal : Int) (faultAddr : BitVec 64) (sigCode : Int) (k : Kernel σ) : Bool × Kernel σ :=
  match thread, signalSlot signal with
  | some slot, some index =>
    match k.threads[slot]? with
    | none => (false, k)
    | some t =>
      match t.domain with
      | none => (false, k)
      | some domain =>
        match k.domains[domain]? with
        | none => (false, k)
        | some d =>
          let action := d.signalActions index
          if signalIsBlocked t signal then (false, queueSignalToThread slot signal k)
          else if action.handler = 0 ∧ signalDefaultIgnored signal then (true, k)
          else if action.handler = 0 ∨ signal = sigKill then
            (true, terminateDomainBySignal host cpu domain signal k)
          else if action.handler = 1 then (true, k)
          else if action.restorer = 0 then
            (true, terminateDomainBySignal host cpu domain signal k)
          else if threadRequiresDeferredSignalFrame k cpu slot t then
            (false, queueSignalToThread slot signal k)
          else deliverToHandler host cpu slot domain signal index action faultAddr sigCode k
  | _, _ => (false, k)

/-- A signal without a cause. -/
def cellDeliverSignalToThread (host : ProcHost σ) (cpu : Nat) (thread : Option Nat)
    (signal : Int) (k : Kernel σ) : Bool × Kernel σ :=
  cellDeliverSignalToThreadFault host cpu thread signal 0 0 k

/-- The signal that the loop of `cell_deliver_pending_signals` stops at. -/
def nextPendingSignal (thread : Thread) : Option Int :=
  ((List.range (nsig - 1)).map fun n => (n : Int) + 1).find? fun signal =>
    thread.pendingSignals &&& signalBit signal != 0 && !signalIsBlocked thread signal

/-- The next pending signal is delivered. -/
def cellDeliverPendingSignals (host : ProcHost σ) (cpu slot : Nat) (k : Kernel σ) :
    Bool × Kernel σ :=
  match (k.threads[slot]?).bind nextPendingSignal with
  | none => (false, k)
  | some signal =>
    let k := k.modThread slot fun t =>
      { t with pendingSignals := t.pendingSignals &&& ~~~signalBit signal }
    cellDeliverSignalToThread host cpu (some slot) signal k

/-- The common body of `cell_deliver_pending_signals_current` and `cell_signal_current_fault`:
the frame goes through the thread, and a thread that died gives up the processor. -/
def deliverOnFrame (host : ProcHost σ) (cpu slot : Nat) (ignored : Bool)
    (deliver : Kernel σ → Bool × Kernel σ) (frame : TrapFrame) (k : Kernel σ) :
    Bool × CpuMode × Kernel σ :=
  let delivered := deliver (k.modThread slot fun t => { t with tf := frame })
  match delivered.2.threads[slot]? with
  | none => (delivered.1, .kernel frame, delivered.2)
  | some t =>
    if t.state = .zombie then (true, cellSchedule host cpu t.tf delivered.2)
    else (delivered.1 && !ignored, .kernel t.tf, delivered.2)

/-- The same for the running thread, on its frame. -/
def cellDeliverPendingSignalsCurrent (host : ProcHost σ) (cpu : Nat) (frame : TrapFrame)
    (k : Kernel σ) : Bool × CpuMode × Kernel σ :=
  match k.currentThread cpu with
  | none => (false, .kernel frame, k)
  | some slot =>
    if (k.threads[slot]?).any (·.pendingSignals != 0) then
      deliverOnFrame host cpu slot false (cellDeliverPendingSignals host cpu slot) frame k
    else (false, .kernel frame, k)

/-- A fault of the running thread. -/
def cellSignalCurrentFault (host : ProcHost σ) (cpu : Nat) (signal : Int) (faultAddr : BitVec 64)
    (sigCode : Int) (frame : TrapFrame) (k : Kernel σ) : Bool × CpuMode × Kernel σ :=
  match k.currentThread cpu with
  | none => (false, .kernel frame, k)
  | some slot =>
    let ignored :=
      match (k.currentDomain cpu).bind (k.domains[·]?), signalSlot signal with
      | some domain, some index =>
        (domain.signalActions index).handler == 1 && signal != sigKill
      | _, _ => false
    deliverOnFrame host cpu slot ignored
      (cellDeliverSignalToThreadFault host cpu (some slot) signal faultAddr sigCode) frame k

/-- A signal the thread sends itself. -/
def cellSignalCurrent (host : ProcHost σ) (cpu : Nat) (signal : Int) (frame : TrapFrame)
    (k : Kernel σ) : Bool × CpuMode × Kernel σ :=
  cellSignalCurrentFault host cpu signal 0 0 frame k

/-- The store of the new action at the end of `cell_rt_sigaction`. -/
def storeSigaction (host : ProcHost σ) (domain : Nat) (index : Fin nsig) (actAddr : BitVec 64)
    (k : Kernel σ) : Int × Kernel σ :=
  if actAddr = 0 then (0, k)
  else
    let ensured := host.ensureUserRange (k.domainMm domain) actAddr 32 false k.world
    let k := { k with world := ensured.2 }
    let copied :=
      if ensured.1 then host.copyActionFromUser (k.domainMm domain) actAddr k.world else none
    match copied with
    | none => (-14, k)
    | some action =>
      (0, k.modDomain domain fun d =>
        { d with signalActions := Function.update d.signalActions index action })

/-- `rt_sigaction` reads the old handler and sets the new one. -/
def cellRtSigaction (host : ProcHost σ) (cpu : Nat) (signal : Int) (actAddr oldAddr : BitVec 64)
    (sigsetSize : BitVec 64) (k : Kernel σ) : Int × Kernel σ :=
  match k.currentDomain cpu, signalSlot signal with
  | some domain, some index =>
    match k.domains[domain]? with
    | none => (-22, k)
    | some d =>
      if sigsetSize ≠ 8 then (-22, k)
      else if oldAddr = 0 then storeSigaction host domain index actAddr k
      else
        let mm := k.domainMm domain
        let ensured := host.ensureUserRange mm oldAddr 32 true k.world
        let k := { k with world := ensured.2 }
        if ensured.1 then
          let copied := host.copyActionToUser mm oldAddr (d.signalActions index) k.world
          let k := { k with world := copied.2 }
          if copied.1 then storeSigaction host domain index actAddr k else (-14, k)
        else (-14, k)
  | _, _ => (-22, k)

/-- The frame that `cell_rt_sigreturn` accepts from the user's stack, with the world after the
pages were brought in. -/
def acceptedSignalFrame (host : ProcHost σ) (mm : Option Nat) (frame : TrapFrame) (world : σ) :
    Option SignalFrame × σ :=
  let ensured := host.ensureUserRange mm frame.spEl0 signalFrameSize false world
  let copied := if ensured.1 then host.copyFrameFromUser mm frame.spEl0 ensured.2 else none
  (copied.filter fun sigframe => sigframe.magic == signalFrameMagic, ensured.2)

/-- The registers that `cell_rt_sigreturn` takes from an accepted frame. -/
def SignalFrame.restored (sigframe : SignalFrame) : TrapFrame :=
  { sigframe.saved with
    x := sigframe.ucMcontext.regs
    spEl0 := sigframe.ucMcontext.sp
    elrEl1 := sigframe.ucMcontext.pc
    spsrEl1 := sigframe.ucMcontext.pstate }

/-- `rt_sigreturn` restores what the frame saved. -/
def cellRtSigreturn (host : ProcHost σ) (cpu : Nat) (frame : TrapFrame) (k : Kernel σ) :
    Int × CpuMode × Kernel σ :=
  match k.currentThread cpu, k.currentDomain cpu with
  | some slot, some domain =>
    let accepted := acceptedSignalFrame host (k.domainMm domain) frame k.world
    let k := { k with world := accepted.2 }
    match accepted.1 with
    | none => (-14, (cellSignalCurrent host cpu sigSegv frame k).2)
    | some sigframe =>
      let frame := sigframe.restored
      let k := k.modThread slot fun t =>
        { t with tf := frame, signalMask := signalMaskSanitized sigframe.savedSignalMask }
      (0, (cellDeliverPendingSignalsCurrent host cpu frame k).2)
  | _, _ => (-14, .kernel frame, k)

/-- One turn of the loop of `cell_kill` over the domains of a process group, with the number of
signals sent so far. -/
def killGroupMember (host : ProcHost σ) (cpu : Nat) (pgrp signal : Int) (sent : Nat × Kernel σ)
    (slot : Nat) : Nat × Kernel σ :=
  if (sent.2.domains[slot]?).any fun d => d.used && !d.zombie && d.pgrpId == pgrp then
    if signal = 0 ∨ ¬ signalIsSupported signal then (sent.1 + 1, sent.2)
    else
      (sent.1 + 1, (cellDeliverSignalToThread host cpu (cellThreadForDomain sent.2 slot) signal
        sent.2).2)
  else sent

/-- `kill`: a domain, or each domain of a group. -/
def cellKill (host : ProcHost σ) (cpu : Nat) (pid signal : Int) (k : Kernel σ) : Int × Kernel σ :=
  if pid = 0 ∨ pid < -1 then
    let pgrp := if pid = 0 then
        (((k.currentDomain cpu).bind (k.domains[·]?)).map (·.pgrpId)).getD (-3)
      else -pid
    let sent := (List.range k.domains.length).foldl (killGroupMember host cpu pgrp signal) (0, k)
    (if sent.1 = 0 then -3 else 0, sent.2)
  else
    match cellFindDomain k pid with
    | none => (-3, k)
    | some domain =>
      if (k.domains[domain]?).any (·.zombie) then (-3, k)
      else if signal = 0 ∨ ¬ signalIsSupported signal then (0, k)
      else (0, (cellDeliverSignalToThread host cpu (cellThreadForDomain k domain) signal k).2)

/-- The loop that `cell_tkill` and `cell_tgkill` share, for threads that a test accepts. -/
def killThread (host : ProcHost σ) (cpu : Nat) (accepts : Thread → Bool) (signal : Int)
    (k : Kernel σ) : Int × Kernel σ :=
  match k.threads.findIdx? fun t => t.state != .unused && accepts t with
  | none => (-3, k)
  | some slot =>
    if signal = 0 then (0, k)
    else (0, (cellDeliverSignalToThread host cpu (some slot) signal k).2)

/-- `cell_tkill`. Signal 0 does not require the thread to have a domain. -/
def cellTkill (host : ProcHost σ) (cpu : Nat) (tid signal : Int) (k : Kernel σ) : Int × Kernel σ :=
  if signal ≠ 0 ∧ ¬ signalIsSupported signal then (0, k)
  else killThread host cpu (fun t => t.tid == tid && (signal == 0 || t.domain.isSome)) signal k

/-- `tgkill`: one thread of a domain. -/
def cellTgkill (host : ProcHost σ) (cpu : Nat) (pid tid signal : Int) (k : Kernel σ) :
    Int × Kernel σ :=
  match cellFindDomain k pid with
  | none => (-3, k)
  | some domain =>
    if (k.domains[domain]?).any (·.zombie) then (-3, k)
    else if signal ≠ 0 ∧ ¬ signalIsSupported signal then (0, k)
    else killThread host cpu (fun t => t.tid == tid && t.domain == some domain) signal k

end Spore.Proc
