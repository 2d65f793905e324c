import Spore.Lib.Run
import Spore.Proc.Statuses

/-!
# Privilege confinement

A machine that takes the process operations in any order on any processor, and the condition
under which no status it ever holds for a user thread selects another level than the user's.
-/

namespace Spore.Proc

open Spore.Lib

variable {σ : Type} {k : Kernel σ} {cpu threads domains cpus : Nat}

/-- One operation of the machine. Except for `trap`, `world`, `deliver`, `wake` and `resume`, it
is a call made by the handler that runs on a processor. -/
inductive ProcOp (σ : Type) where
  /-- An exception is taken from user code. -/
  | trap (cpu : Nat) (frame : TrapFrame) (fp : FpState) (tpidrEl0 : BitVec 64)
  | eret (cpu : Nat)
  /-- User code stores to memory, or another subsystem works. -/
  | world (world : σ)
  /-- The result of a system call is written to the frame. -/
  | answer (cpu : Nat) (value : BitVec 64)
  | fork (cpu : Nat)
  | vfork (cpu : Nat) (args : CloneArgs)
  | clone (cpu : Nat) (args : CloneArgs)
  | exec (cpu : Nat) (entry sp : BitVec 64)
  | spawn (cpu : Nat) (snapId : Int) (entry arg : BitVec 64)
  | exitThread (cpu : Nat) (status : Int)
  | exitGroup (cpu : Nat) (status : Int)
  | wait4 (cpu : Nat) (pid : Int) (statusAddr : BitVec 64) (noHang : Bool)
  | kill (cpu : Nat) (pid signal : Int)
  | tkill (cpu : Nat) (tid signal : Int)
  | tgkill (cpu : Nat) (pid tid signal : Int)
  | signalCurrent (cpu : Nat) (signal : Int) (faultAddr : BitVec 64) (sigCode : Int)
  | deliverPending (cpu : Nat)
  /-- The terminal signals a thread, also from an interrupt taken in the scheduler. -/
  | deliver (cpu : Nat) (thread : Option Nat) (signal : Int)
  | sigaction (cpu : Nat) (signal : Int) (actAddr oldAddr sigsetSize : BitVec 64)
  /-- `rt_sigprocmask` and `sigaltstack` store their arguments in the current thread. -/
  | signalState (cpu : Nat) (mask sp size : BitVec 64) (flags : BitVec 32)
  | sigreturn (cpu : Nat)
  | schedule (cpu : Nat)
  | block (cpu : Nat) (reason : WaitReason) (target : Option Int) (args : WaitArgs)
      (futexAddr : BitVec 64)
  | wake (thread : Nat) (result : Option (BitVec 64)) (target : Int) (args : WaitArgs)
  /-- A processor that waits in the scheduler takes another turn of its loop. -/
  | resume (cpu : Nat)

/-- Run a call of the handler on a processor; nothing happens when no handler runs there. -/
def inHandler (cpu : Nat) (call : TrapFrame → Kernel σ → CpuMode × Kernel σ) (k : Kernel σ) :
    Kernel σ :=
  match k.mode cpu with
  | some (.kernel frame) => (call frame k).2.setMode cpu (call frame k).1
  | _ => k

/-- Run a call that leaves the handler's frame alone. -/
def inHandlerQuiet (cpu : Nat) (call : TrapFrame → Kernel σ → Kernel σ) (k : Kernel σ) :
    Kernel σ :=
  inHandler cpu (fun frame k => (.kernel frame, call frame k)) k

/-- One step of the machine. -/
def procStep (host : ProcHost σ) (k : Kernel σ) : ProcOp σ → Kernel σ
  | .trap cpu frame fp tpidrEl0 =>
    match k.mode cpu with
    | some (.user loaded) =>
      -- User code runs at the level its status selected, and the hardware records that level.
      if SelectsEl0 loaded.spsrEl1 ∧ SelectsEl0 frame.spsrEl1 then
        (k.modCpu cpu fun c => { c with fp := fp, tpidrEl0 := tpidrEl0 }).setMode cpu
          (.kernel frame)
      else k
    | _ => k
  | .eret cpu => inHandler cpu (fun frame k => (.user frame, k)) k
  | .world world => { k with world := world }
  | .answer cpu value => inHandler cpu (fun frame k => (.kernel (frame.setX regX0 value), k)) k
  | .fork cpu => inHandlerQuiet cpu (fun frame k => (cellForkCurrent host cpu frame k).2) k
  | .vfork cpu args => inHandler cpu (fun frame k => (cellVforkCurrent host cpu args frame k).2) k
  | .clone cpu args =>
    inHandlerQuiet cpu (fun frame k => (cellCloneThreadCurrent host cpu args frame k).2) k
  | .exec cpu entry sp =>
    inHandler cpu (fun frame k =>
      let result := cellExecReplace host cpu entry sp frame k
      (.kernel result.2.1, result.2.2)) k
  | .spawn cpu snapId entry arg =>
    inHandlerQuiet cpu (fun frame k => (snapshotSpawn host cpu snapId entry arg frame k).2) k
  | .exitThread cpu status => inHandler cpu (cellExitThreadCurrent host cpu status) k
  | .exitGroup cpu status => inHandler cpu (cellExitGroupCurrent host cpu status) k
  | .wait4 cpu pid statusAddr noHang =>
    inHandler cpu (fun frame k => (cellWait4Options host cpu pid statusAddr noHang frame k).2) k
  | .kill cpu pid signal => inHandlerQuiet cpu (fun _ k => (cellKill host cpu pid signal k).2) k
  | .tkill cpu tid signal => inHandlerQuiet cpu (fun _ k => (cellTkill host cpu tid signal k).2) k
  | .tgkill cpu pid tid signal =>
    inHandlerQuiet cpu (fun _ k => (cellTgkill host cpu pid tid signal k).2) k
  | .signalCurrent cpu signal faultAddr sigCode =>
    inHandler cpu (fun frame k =>
      (cellSignalCurrentFault host cpu signal faultAddr sigCode frame k).2) k
  | .deliverPending cpu =>
    inHandler cpu (fun frame k => (cellDeliverPendingSignalsCurrent host cpu frame k).2) k
  | .deliver cpu thread signal => (cellDeliverSignalToThread host cpu thread signal k).2
  | .sigaction cpu signal actAddr oldAddr sigsetSize =>
    inHandlerQuiet cpu (fun _ k =>
      (cellRtSigaction host cpu signal actAddr oldAddr sigsetSize k).2) k
  | .signalState cpu mask sp size flags =>
    inHandlerQuiet cpu (fun _ k =>
      match k.currentThread cpu with
      | none => k
      | some thread => k.modThread thread fun t =>
        { t with
          signalMask := signalMaskSanitized mask, sigaltstackSp := sp, sigaltstackSize := size,
          sigaltstackFlags := flags }) k
  | .sigreturn cpu => inHandler cpu (fun frame k => (cellRtSigreturn host cpu frame k).2) k
  | .schedule cpu => inHandler cpu (cellSchedule host cpu) k
  | .block cpu reason target args futexAddr =>
    inHandler cpu (blockCurrent host cpu reason target args futexAddr) k
  | .wake thread result target args => wakeThread k thread result target args
  | .resume cpu =>
    match k.mode cpu with
    | some (.waiting wait) =>
      (schedulePass host cpu wait k).2.setMode cpu (schedulePass host cpu wait k).1
    | _ => k

/-- The condition on a step: a signal frame that `rt_sigreturn` accepts from the user's stack
has a status that selects the user level. -/
def RestoresUser (host : ProcHost σ) (k : Kernel σ) : ProcOp σ → Prop
  | .sigreturn cpu => ∀ frame, k.mode cpu = some (.kernel frame) →
      ∀ sigframe, returnFrame host cpu frame k = some sigframe →
        SelectsEl0 sigframe.ucMcontext.pstate
  | _ => True

/-! ## One step -/

/-- A confined kernel is guarded. -/
theorem Confined.guarded (confined : Confined k) : Guarded k :=
  (confined_iff.mp confined).1

/-- Steps that guard the frames keep it confined. -/
theorem Confined.of_guards {k' : Kernel σ} (confined : Confined k) (guards : Guards k k') :
    Confined k' := by
  rw [confined_iff] at confined ⊢
  refine ⟨guards.guarded confined.1, ?_⟩
  rw [guards.modes]
  exact confined.2

/-- A processor enters a confined mode. -/
theorem Confined.setMode (confined : Confined k) (cpu : Nat) {mode : CpuMode}
    (fine : mode.Confined) : Confined (k.setMode cpu mode) := by
  refine ⟨confined.threads, ?_⟩
  intro c member
  obtain ⟨i, at_i⟩ := List.getElem?_of_mem member
  simp only [Kernel.setMode, Kernel.modCpu, List.getElem?_modify] at at_i
  cases found : k.cpus[i]? with
  | none => simp [found] at at_i
  | some old =>
    by_cases here : cpu = i
    · have new : { old with mode := mode } = c := by simpa [found, here] using at_i
      rw [← new]
      exact fine
    · have same : old = c := by simpa [found, here] using at_i
      rw [← same]
      exact confined.cpus old (List.mem_of_getElem? found)

/-- The frame of a handler has a user status. -/
theorem Confined.handler (confined : Confined k) {frame : TrapFrame}
    (running : k.mode cpu = some (.kernel frame)) : SelectsEl0 frame.spsrEl1 := by
  obtain ⟨c, found, mode⟩ := Option.map_eq_some_iff.mp running
  exact confined.cpus c (List.mem_of_getElem? found) frame (by rw [mode]; rfl)

/-- A handler that lands where it may. -/
theorem Confined.inHandler (confined : Confined k)
    {call : TrapFrame → Kernel σ → CpuMode × Kernel σ}
    (lands : ∀ frame, k.mode cpu = some (.kernel frame) → SelectsEl0 frame.spsrEl1 →
      Lands k (call frame k)) : Confined (inHandler cpu call k) := by
  unfold Proc.inHandler
  split
  · rename_i frame running
    have landed := lands frame running (confined.handler running)
    exact (confined.of_guards landed.guards).setMode cpu (landed.confined confined.guarded)
  · exact confined

/-- A handler that returns to its caller. -/
theorem Confined.inHandlerQuiet (confined : Confined k) {call : TrapFrame → Kernel σ → Kernel σ}
    (guards : ∀ frame, SelectsEl0 frame.spsrEl1 → Guards k (call frame k)) :
    Confined (inHandlerQuiet cpu call k) :=
  confined.inHandler fun frame _ user => .stay (guards frame user) user

/-- A step that meets the condition keeps the machine confined. -/
theorem Confined.step (host : ProcHost σ) (confined : Confined k) (op : ProcOp σ)
    (restores : RestoresUser host k op) : Confined (procStep host k op) := by
  cases op with
  | trap cpu frame fp tpidrEl0 =>
    simp only [procStep]
    split
    · split
      · rename_i levels
        refine .setMode (confined.of_guards (Keeps.guards ?_)) cpu ?_
        · exact keeps_modCpu k fun _ => rfl
        · intro loaded eq
          cases eq
          exact levels.2
      · exact confined
    · exact confined
  | eret cpu =>
    refine confined.inHandler fun frame _ user => ⟨(Keeps.refl k).guards, ?_⟩
    intro _ loaded eq
    cases eq
    exact user
  | world world => exact confined.of_guards (keeps_world k world).guards
  | answer cpu value =>
    refine confined.inHandler fun frame _ user => .stay (Keeps.refl k).guards ?_
    exact user
  | fork cpu => exact confined.inHandlerQuiet fun frame user => guards_fork host cpu user
  | vfork cpu args =>
    rw [procStep]
    refine confined.inHandler fun frame _ user => ?_
    exact lands_vfork host cpu user
  | clone cpu args =>
    exact confined.inHandlerQuiet fun frame user => guards_cloneThread host cpu user
  | exec cpu entry sp =>
    rw [procStep]
    refine confined.inHandler fun frame _ user => ?_
    exact .stay guards_exec (exec_confined user)
  | spawn cpu snapId entry arg =>
    exact confined.inHandlerQuiet fun frame user =>
      guards_spawn host cpu user
  | exitThread cpu status =>
    exact confined.inHandler fun frame _ user => lands_exitThread host cpu user status
  | exitGroup cpu status =>
    exact confined.inHandler fun frame _ user => lands_exitGroup host cpu user status
  | wait4 cpu pid statusAddr noHang =>
    rw [procStep]
    refine confined.inHandler fun frame _ user => ?_
    exact lands_wait4 host cpu user
  | kill cpu pid signal =>
    exact confined.inHandlerQuiet fun _ _ => (keeps_kill host).guards
  | tkill cpu tid signal =>
    exact confined.inHandlerQuiet fun _ _ => (keeps_tkill host).guards
  | tgkill cpu pid tid signal =>
    exact confined.inHandlerQuiet fun _ _ => (keeps_tgkill host).guards
  | signalCurrent cpu signal faultAddr sigCode =>
    rw [procStep]
    refine confined.inHandler fun frame _ user => ?_
    exact lands_signalCurrentFault user
  | deliverPending cpu =>
    rw [procStep]
    refine confined.inHandler fun frame _ user => ?_
    exact lands_deliverPendingCurrent user
  | deliver cpu thread signal =>
    exact confined.of_guards (keeps_deliverSignalToThreadFault host thread k).guards
  | sigaction cpu signal actAddr oldAddr sigsetSize =>
    exact confined.inHandlerQuiet fun _ _ =>
      (keeps_rtSigaction host).guards
  | signalState cpu mask sp size flags =>
    refine confined.inHandlerQuiet fun _ _ => Keeps.guards ?_
    split
    · exact .refl k
    · exact keeps_modThread k _ fun _ => rfl
  | sigreturn cpu =>
    rw [procStep]
    refine confined.inHandler fun frame running user => ?_
    exact lands_rtSigreturn user (restores frame running)
  | schedule cpu => exact confined.inHandler fun frame _ user => lands_schedule host cpu user
  | block cpu reason target args futexAddr =>
    exact confined.inHandler fun frame _ user =>
      lands_blockCurrent reason target args user
  | wake thread result target args =>
    exact confined.of_guards (keeps_wakeThread result target args).guards
  | resume cpu =>
    simp only [procStep]
    split
    · refine .setMode (confined.of_guards ?_) cpu ?_
      · exact (keeps_schedulePass host cpu _).guards
      · exact schedulePass_confined host cpu _ confined.guarded
    · exact confined

/-- A step leaves the machine confined only if it meets the condition: an accepted status goes
to the thread table as it is. -/
theorem restoresUser_of_confined (host : ProcHost σ) (op : ProcOp σ)
    (confined : Confined (procStep host k op)) : RestoresUser host k op := by
  cases op with
  | sigreturn cpu =>
    intro frame running sigframe accepted
    have stored := mem_statuses_rtSigreturn accepted
    simp only [procStep, inHandler, running] at confined
    exact confined.guarded _ stored
  | _ => trivial

/-! ## Whole runs -/

/-- Before boot nothing runs. -/
theorem systemInit_confined (world : σ) : Confined (systemInit threads domains cpus world) := by
  constructor
  · intro thread member
    have zero : thread = .zero := List.eq_of_mem_replicate member
    rw [zero]
    decide
  intro c member
  rcases List.mem_cons.mp member with first | other
  · rw [first]
    intro frame eq
    cases eq
    decide
  · rw [List.eq_of_mem_replicate other]
    intro frame eq
    cases eq

/-- The first process starts at EL0. -/
theorem createInit_confined (host : ProcHost σ) (entry sp : BitVec 64) {k' : Kernel σ}
    (confined : Confined k) (created : cellCreateInit host entry sp k = some k') : Confined k' := by
  obtain ⟨⟨domain, k₁⟩, domain_taken, created⟩ := Option.bind_eq_some_iff.mp created
  obtain ⟨⟨thread, k₂⟩, thread_taken, created⟩ := Option.bind_eq_some_iff.mp created
  obtain ⟨mm, _, created⟩ := Option.bind_eq_some_iff.mp created
  have taken := (keeps_allocDomain domain_taken).guards.trans (guards_allocThread thread_taken)
  dsimp only at created
  split at created
  · cases created
    refine .setMode (confined.of_guards (taken.trans ?_)) 0 ?_
    · refine .trans ?_ (Keeps.guards (keeps_modCpu _ fun _ => rfl))
      refine .trans ?_ (guards_modThread _ fun _ _ => userSpsr_selectsEl0)
      exact ((keeps_world k₂ _).trans (keeps_domainSetMm host domain mm)).guards.trans
        (keeps_world _ _).guards
    · intro frame eq
      cases eq
      exact userSpsr_selectsEl0
  · cases created

/-- Every status held for a user thread selects the user level, in every state of a run from
boot, exactly when every signal frame that `rt_sigreturn` accepts in the run has a status that
selects it. -/
theorem privilege_confined_iff (host : ProcHost σ) (threads domains cpus : Nat) (world : σ)
    (entry sp : BitVec 64) (k : Kernel σ)
    (booted : cellCreateInit host entry sp (systemInit threads domains cpus world) = some k)
    (ops : List (ProcOp σ)) :
    EveryState (procStep host) Confined k ops ↔
      EveryInput (procStep host) (RestoresUser host) k ops := by
  have start : Confined k := createInit_confined host entry sp (systemInit_confined world) booted
  refine everyState_iff_everyInput (fun _ confined => confined) ?_ ?_ start
  · intro k op confined
    exact ⟨restoresUser_of_confined host op, confined.step host op⟩
  · intro k op confined restores
    exact confined.step host op restores

/-! ## A machine with flat user memory

The world is the signal frame that user memory holds at an address, if any, and every access to
user memory succeeds.
-/

/-- Signal frames that share no byte. -/
def FramesApart (a b : BitVec 64) : Prop :=
  a.toNat + signalFrameSize ≤ b.toNat ∨ b.toNat + signalFrameSize ≤ a.toNat

instance (a b : BitVec 64) : Decidable (FramesApart a b) := inferInstanceAs (Decidable (_ ∨ _))

/-- The signal frames of one address space. -/
abbrev Frames := BitVec 64 → Option SignalFrame

/-- A host with one address space; a frame that is stored destroys those it overlaps. -/
def flatHost : ProcHost Frames where
  mmCloneCow _ world := (some 0, world)
  mmRetain _ world := world
  mmRelease _ world := world
  mmUsed _ _ := true
  mmFromOwned world := (some 0, world)
  snapshotExists _ _ := true
  mmFromSnapshot _ world := (some 0, world)
  copyFdTable _ _ world := world
  closeAllFds _ world := world
  closeOnExec _ world := world
  initStdio _ world := (true, world)
  ensureUserRange _ _ _ _ world := (true, world)
  copyWordToUser _ _ _ world := (true, world)
  copyFrameToUser _ addr sigframe world := (true, fun other =>
    if other = addr then some sigframe else if FramesApart addr other then world other else none)
  copyFrameFromUser _ addr world := world addr
  copyActionToUser _ _ _ world := (true, world)
  copyActionFromUser _ _ _ := none
  robustEntries _ _ world := ([], world)

/-- The machine after boot with one processor, four threads and two domains. -/
def flatBoot : Option (Kernel Frames) :=
  cellCreateInit flatHost 0x400000 0x7ff000 (systemInit 4 2 1 fun _ => none)

/-- A frame that user code writes on its own stack; only the mark and the status matter. -/
def forgedFrame (pstate : BitVec 64) : SignalFrame where
  siSigno := 0
  siCode := 0
  siAddr := 0
  ucStack := ⟨0, 0, 0⟩
  ucSigmask := 0
  ucMcontext := ⟨0, fun _ => 0, 0x7ff000, 0x400000, pstate⟩
  magic := signalFrameMagic
  signal := 0
  savedSignalMask := 0
  saved := .zero

/-- User code writes a frame, calls `rt_sigreturn` and goes on. -/
def forgedReturn (pstate : BitVec 64) : List (ProcOp Frames) :=
  [.world fun _ => some (forgedFrame pstate), .trap 0 (startFrame 0x400000 0x7ff000) .zero 0,
    .sigreturn 0, .eret 0]

/-- A forged frame with other flags stays confined. -/
theorem privilege_confined_flags : ∃ k, flatBoot = some k ∧
    EveryState (procStep flatHost) Confined k (forgedReturn 0x60000000) := by
  refine ⟨_, rfl, ?_⟩
  refine (privilege_confined_iff flatHost 4 2 1 (fun _ => none) 0x400000 0x7ff000 _ rfl _).mpr ?_
  refine ⟨trivial, trivial, ?_, trivial, trivial⟩
  intro frame running sigframe accepted
  have same : some (forgedFrame 0x60000000) = some sigframe := accepted
  cases same
  decide

/-- With a status of 0x3c5 in the frame the thread goes on at the kernel's own level. -/
theorem forged_status_enters_el1 : ∃ k, flatBoot = some k ∧
    ¬ EveryState (procStep flatHost) Confined k (forgedReturn 0x3c5) := by
  refine ⟨_, rfl, ?_⟩
  intro every
  have last := every.last
  have running := last.cpus _ (List.mem_of_getElem? (i := 0) rfl) _ rfl
  exact absurd running (by decide)

end Spore.Proc
