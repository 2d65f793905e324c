import Spore.Proc.Privilege

/-!
# The context a signal interrupts (`proc/signal.c`)

Delivery stores the interrupted registers and the signal mask in a frame on the user's stack or
on the alternate stack, and `rt_sigreturn` puts them back. The vector registers are not part of
the frame: neither function saves or loads them, so that the thread goes on with those that its
handler left. A frame lives until its handler returns, and another signal may store its own frame
over it: handlers that nest off the low end of the alternate stack count as not being on it, and
the next signal starts at its high end again.
-/

namespace Spore.Proc

variable {σ : Type}

/-- What a thread has in user mode: its general registers with stack pointer, program counter and
status, its signal mask and its vector registers. -/
structure UserContext where
  /-- The registers. -/
  tf : TrapFrame
  /-- The blocked signals. -/
  signalMask : BitVec 64
  /-- The vector registers. -/
  fp : FpState

/-- The vector registers of a thread: those of the processor that runs it, or else the saved
ones. -/
def Kernel.fpOf (k : Kernel σ) (slot : Nat) (t : Thread) : FpState :=
  ((k.cpus.find? fun c => c.current == some slot).map (·.fp)).getD t.fp

/-- A signal for which a handler is entered. -/
structure Delivery where
  /-- The thread. -/
  slot : Nat
  /-- Its domain. -/
  domain : Nat
  /-- The signal. -/
  signal : Int
  /-- The handler. -/
  action : SignalAction
  /-- The address of a fault. -/
  faultAddr : BitVec 64
  /-- The cause. -/
  sigCode : Int

/-- The frame that the delivery stores. -/
def Delivery.sigframe (d : Delivery) (t : Thread) : SignalFrame :=
  fillSignalFrame t d.signal d.faultAddr d.sigCode

/-- The frame that `rt_sigreturn` would accept at an address. -/
def frameAt (host : ProcHost σ) (mm : Option Nat) (addr : BitVec 64) (world : σ) :
    Option SignalFrame :=
  (acceptedSignalFrame host mm { TrapFrame.zero with spEl0 := addr } world).1

/-- User memory as far as signal frames go. -/
structure KeepsFrames (host : ProcHost σ) : Prop where
  /-- A frame that was stored is there. -/
  stored : ∀ {mm addr sigframe world after}, sigframe.magic = signalFrameMagic →
    storeSignalFrame host mm addr sigframe world = (true, after) →
    frameAt host mm addr after = some sigframe
  /-- Storing another one that shares no byte with it leaves it there. -/
  apart : ∀ {mm addr other sigframe world after},
    storeSignalFrame host mm other sigframe world = (true, after) → FramesApart other addr →
    frameAt host mm addr after = frameAt host mm addr world

/-- What happens to user memory while a handler runs with its frame at `addr`. The list has the
addresses of the frames that the kernel stores for other signals. -/
inductive Meanwhile (host : ProcHost σ) (mm : Option Nat) (addr : BitVec 64) :
    List (BitVec 64) → σ → σ → Prop
  | done {world : σ} : Meanwhile host mm addr [] world world
  /-- User code, and the calls it makes, do not change the frame of the handler. -/
  | user {nested : List (BitVec 64)} {world next last : σ}
      (unchanged : frameAt host mm addr next = frameAt host mm addr world)
      (rest : Meanwhile host mm addr nested next last) : Meanwhile host mm addr nested world last
  /-- Another signal is delivered. -/
  | signal {nested : List (BitVec 64)} {other : BitVec 64} {sigframe : SignalFrame}
      {world next last : σ} (stored : storeSignalFrame host mm other sigframe world = (true, next))
      (rest : Meanwhile host mm addr nested next last) :
      Meanwhile host mm addr (other :: nested) world last

/-- A frame survives the signals whose frames lie elsewhere. -/
theorem Meanwhile.survives {host : ProcHost σ} {mm : Option Nat} {addr : BitVec 64}
    {nested : List (BitVec 64)} {world last : σ} (keeps : KeepsFrames host)
    (meanwhile : Meanwhile host mm addr nested world last)
    (room : ∀ other ∈ nested, FramesApart other addr) :
    frameAt host mm addr last = frameAt host mm addr world := by
  induction meanwhile with
  | done => rfl
  | user unchanged _ ih => exact (ih room).trans unchanged
  | signal stored _ ih =>
    have rest := ih fun other member => room other (List.mem_cons_of_mem _ member)
    exact rest.trans (keeps.apart stored (room _ List.mem_cons_self))

/-- The handler of a signal returns without having changed its frame. `t` is the thread that the
signal interrupted in `k`; a call in which it was blocked has been ended. With the registers
`frame` the thread calls `rt_sigreturn` in `k'`. In between it may have moved to another processor
and taken other signals, whose frames are at `nested`. -/
structure Handled (host : ProcHost σ) (d : Delivery) (nested : List (BitVec 64)) (k : Kernel σ)
    (t : Thread) (cpu : Nat) (frame : TrapFrame) (k' : Kernel σ) : Prop where
  /-- The thread after its wait. -/
  interrupted : (k.modThread d.slot (interruptWait d.action)).threads[d.slot]? = some t
  /-- The frame is stored. -/
  stored : (storeSignalFrame host (k.domainMm d.domain) (signalFrameAddr t d.action)
    (d.sigframe t) k.world).1 = true
  /-- The thread comes back to return from its handler. -/
  current : k'.currentThread cpu = some d.slot
  /-- The domain runs when the handler returns. -/
  owner : k'.currentDomain cpu = some d.domain
  /-- It is still in the same address space. -/
  space : k'.domainMm d.domain = k.domainMm d.domain
  /-- The stack pointer is at the frame again. -/
  sp : frame.spEl0 = signalFrameAddr t d.action
  /-- Only other signals came in between. -/
  meanwhile : Meanwhile host (k.domainMm d.domain) (signalFrameAddr t d.action) nested
    (storeSignalFrame host (k.domainMm d.domain) (signalFrameAddr t d.action) (d.sigframe t)
      k.world).2 k'.world

/-- `cell_rt_sigreturn` up to the point where it looks for pending signals. -/
def Kernel.restoreContext (host : ProcHost σ) (slot domain : Nat) (frame : TrapFrame)
    (k : Kernel σ) : Kernel σ :=
  let accepted := acceptedSignalFrame host (k.domainMm domain) frame k.world
  match accepted.1 with
  | none => k
  | some sigframe =>
    { k with world := accepted.2 }.modThread slot fun t =>
      { t with
        tf := sigframe.restored, signalMask := signalMaskSanitized sigframe.savedSignalMask }

/-- `rt_sigreturn` takes the thread back to a context: it leaves the thread with these registers,
mask and vector registers, a pending signal interrupts exactly these registers, and without one
the processor goes on with them. -/
structure Resumes (host : ProcHost σ) (cpu slot domain : Nat) (frame : TrapFrame) (k : Kernel σ)
    (context : UserContext) : Prop where
  /-- Registers and mask are restored. -/
  restored : ((k.restoreContext host slot domain frame).threads[slot]?).map
    (fun t => (t.tf, t.signalMask)) = some (context.tf, context.signalMask)
  /-- So are the vector registers. -/
  vectors : ((k.restoreContext host slot domain frame).cpus[cpu]?).map (·.fp) = some context.fp
  /-- What is pending comes next. -/
  pending : cellRtSigreturn host cpu frame k = (0, (cellDeliverPendingSignalsCurrent host cpu
    context.tf (k.restoreContext host slot domain frame)).2)
  /-- Otherwise the thread goes on. -/
  goesOn : ((k.restoreContext host slot domain frame).threads[slot]?).any
    (·.pendingSignals != 0) = false → (cellRtSigreturn host cpu frame k).2.1 = .kernel context.tf

section Handled

variable {host : ProcHost σ} {d : Delivery} {nested : List (BitVec 64)} {k k' : Kernel σ}
  {t : Thread} {cpu : Nat} {frame : TrapFrame}

/-- The thread that returns is there. -/
theorem Handled.thread (handled : Handled host d nested k t cpu frame k') :
    ∃ now, k'.threads[d.slot]? = some now := by
  have owner := handled.owner
  simp only [Kernel.currentDomain, handled.current] at owner
  cases found : k'.threads[d.slot]? with
  | none => simp [found] at owner
  | some now => exact ⟨now, rfl⟩

section

variable (handled : Handled host d nested k t cpu frame k') (keeps : KeepsFrames host)
  (room : ∀ other ∈ nested, FramesApart other (signalFrameAddr t d.action))

include handled keeps room

/-- The frame is accepted as it was stored. -/
theorem Handled.unchanged : (acceptedSignalFrame host (k'.domainMm d.domain) frame k'.world).1 =
    some (d.sigframe t) := by
  have same : (acceptedSignalFrame host (k'.domainMm d.domain) frame k'.world).1 =
      frameAt host (k.domainMm d.domain) (signalFrameAddr t d.action) k'.world := by
    unfold frameAt acceptedSignalFrame
    rw [handled.space, handled.sp]
  rw [same, handled.meanwhile.survives keeps room]
  exact keeps.stored rfl (Prod.ext handled.stored rfl)

/-- The return puts the interrupted registers and the mask back. -/
theorem Handled.restoreContext_eq :
    k'.restoreContext host d.slot d.domain frame =
      { k' with world := (acceptedSignalFrame host (k'.domainMm d.domain) frame k'.world).2
        }.modThread d.slot fun now =>
          { now with tf := t.tf, signalMask := signalMaskSanitized t.signalMask } := by
  unfold Kernel.restoreContext
  dsimp only
  rw [handled.unchanged keeps room]
  rfl

/-- It leaves the processors alone. -/
theorem Handled.cpus : (k'.restoreContext host d.slot d.domain frame).cpus = k'.cpus := by
  rw [handled.restoreContext_eq keeps room]
  rfl

/-- Then it looks for pending signals. -/
theorem Handled.rtSigreturn_eq :
    cellRtSigreturn host cpu frame k' = (0, (cellDeliverPendingSignalsCurrent host cpu t.tf
      (k'.restoreContext host d.slot d.domain frame)).2) := by
  unfold cellRtSigreturn
  rw [handled.current, handled.owner, handled.restoreContext_eq keeps room]
  dsimp only
  rw [handled.unchanged keeps room]
  rfl

end

end Handled

/-- Flat memory keeps frames. -/
theorem flatHost_keepsFrames : KeepsFrames flatHost where
  stored {mm addr sigframe world after} mark stored := by
    cases stored
    simp [frameAt, acceptedSignalFrame, flatHost, mark]
  apart {mm addr other sigframe world after} stored apart := by
    cases stored
    have elsewhere : addr ≠ other := by
      rintro rfl
      unfold FramesApart signalFrameSize at apart
      omega
    simp [frameAt, acceptedSignalFrame, flatHost, elsewhere, apart]

/-- Signal 10 for the first thread, with a handler that returns to `rt_sigreturn`. -/
def plainDelivery : Delivery := ⟨0, 0, 10, ⟨0x400000, 0, 0x401000, 0⟩, 0, 0⟩

/-- The handler has run and left these vector registers, after another signal that stored its
frame below. -/
def handlerRan (fp : FpState) (k : Kernel Frames) : Kernel Frames :=
  let k := (deliverToHandler flatHost 0 0 0 10 ⟨10, by decide⟩ plainDelivery.action 0 0 k).2
  let k := { k with
    world := (storeSignalFrame flatHost (some 0) 0x7f0000 (forgedFrame 0) k.world).2 }
  k.modCpu 0 fun c => { c with fp := fp }

/-- The run is one in which the handler returns. -/
theorem plainDelivery_handled (fp : FpState) : ∃ k t frame, flatBoot = some k ∧
    (t.signalMask = 0 ∧ signalFrameAddr t plainDelivery.action = 0x7fdc70 ∧ k.fpOf 0 t = .zero ∧
      (handlerRan fp k).cpus[0]?.map (·.fp) = some fp) ∧
      Handled flatHost plainDelivery [0x7f0000] k t 0 frame (handlerRan fp k) :=
  ⟨_, _, { TrapFrame.zero with spEl0 := _ }, rfl, ⟨rfl, by decide, rfl, rfl⟩, rfl,
    rfl, rfl, rfl, rfl,
    rfl, .signal rfl .done⟩

/-- The frame of the other signal lies below. -/
theorem nested_apart : ∀ other ∈ [(0x7f0000 : BitVec 64)], FramesApart other 0x7fdc70 := by
  rw [List.forall_mem_singleton]
  exact .inl (by simp [signalFrameSize])

example : [0x7ff000, 0x20c70, 0x1f8e0].map (fun sp => signalFrameAddr
      { Thread.zero with
        tf := { TrapFrame.zero with spEl0 := sp }
        sigaltstackSp := 0x20000, sigaltstackSize := 0x2000, sigaltstackFlags := 0 }
      ⟨0x400000, saOnstack, 0x401000, 0⟩) = [0x20c70, 0x1f8e0, 0x20c70] := by
  decide

end Spore.Proc
