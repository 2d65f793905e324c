import Spore.Proc.Process

/-!
# Saved program statuses

The program status that an exception return loads decides the exception level that runs next.
Every status the kernel holds for a user thread (in the thread table, on the stack of a
handler, or loaded by a processor in user code) must select the user level. This module says
what each function of the process code does to those statuses.
-/

namespace Spore.Proc

open List

variable {σ : Type} {k k' k₁ k₂ k₃ : Kernel σ} {frame : TrapFrame}
  {slot cpu depth domain thread child parentDomain parent childThread : Nat}
  {candidate count parentMm next : Nat} {host : ProcHost σ}
  {signal sigCode snapId tid reparentTo pid pgrp : Int}
  {faultAddr entry arg uaddr futexAddr sp actAddr flags flag addr : BitVec 64}
  {statusAddr oldAddr sigsetSize : BitVec 64} {args : CloneArgs} {busy noHang : Bool}
  {change : Thread → Thread}

/-- The status selects the user level: the low four bits of the mode field are zero, which is
`EL0t`, or the user mode of a 32-bit thread. -/
def SelectsEl0 (spsr : BitVec 64) : Prop := spsr &&& 0xf = 0

instance (spsr : BitVec 64) : Decidable (SelectsEl0 spsr) :=
  inferInstanceAs (Decidable (spsr &&& 0xf = 0))

/-- The frame, if any, that a processor loads when its handler returns, or has loaded. -/
def CpuMode.frame? : CpuMode → Option TrapFrame
  | .user frame => some frame
  | .kernel frame => some frame
  | .waiting _ => none
  | .off => none

/-- The mode holds no status that selects another level. -/
def CpuMode.Confined (mode : CpuMode) : Prop :=
  ∀ frame, mode.frame? = some frame → SelectsEl0 frame.spsrEl1

/-- A user thread can only come back to the user level. -/
structure Confined (k : Kernel σ) : Prop where
  /-- Saved frames return to EL0. -/
  threads : ∀ thread ∈ k.threads, SelectsEl0 thread.tf.spsrEl1
  /-- Processors are confined. -/
  cpus : ∀ cpu ∈ k.cpus, cpu.mode.Confined

/-! ## What the kernel functions do to saved statuses

Most functions leave every saved status and every processor's mode alone (`Keeps`). The ones
that start, save or replace a thread store statuses that select the user level if the old ones
and the frame do (`Guards`).
-/

/-- The saved statuses, in slot order. -/
def statuses (k : Kernel σ) : List (BitVec 64) := k.threads.map (·.tf.spsrEl1)

/-- The modes of the processors. -/
def modes (k : Kernel σ) : List CpuMode := k.cpus.map (·.mode)

/-- Every saved status selects the user level. -/
def Guarded (k : Kernel σ) : Prop := ∀ status ∈ statuses k, SelectsEl0 status

/-- Saved statuses and modes are unchanged. -/
structure Keeps (k k' : Kernel σ) : Prop where
  /-- Saved states stay. -/
  statuses : statuses k' = statuses k
  /-- Modes stay. -/
  modes : modes k' = modes k

/-- Modes are unchanged, and saved statuses still select the user level. -/
structure Guards (k k' : Kernel σ) : Prop where
  /-- Saved frames stay guarded. -/
  guarded : Guarded k → Guarded k'
  /-- Modes stay. -/
  modes : modes k' = modes k

/-- Confinement, split into the saved statuses and the modes of the processors. -/
theorem confined_iff : Confined k ↔ Guarded k ∧ ∀ mode ∈ modes k, mode.Confined := by
  constructor
  · intro confined
    refine ⟨?_, ?_⟩
    · intro status member
      obtain ⟨thread, present, rfl⟩ := mem_map.mp member
      exact confined.threads thread present
    · intro mode member
      obtain ⟨cpu, present, rfl⟩ := mem_map.mp member
      exact confined.cpus cpu present
  · rintro ⟨guarded, confined⟩
    exact ⟨fun thread present => guarded _ (mem_map_of_mem present),
      fun cpu present => confined _ (mem_map_of_mem present)⟩

/-- Doing nothing keeps everything. -/
theorem Keeps.refl (k : Kernel σ) : Keeps k k := ⟨rfl, rfl⟩

/-- What two steps keep, both together keep. -/
theorem Keeps.trans (first : Keeps k₁ k₂) (second : Keeps k₂ k₃) : Keeps k₁ k₃ :=
  ⟨second.statuses.trans first.statuses, second.modes.trans first.modes⟩

/-- Statuses that are unchanged stay guarded. -/
theorem Keeps.guards (keeps : Keeps k k') : Guards k k' := by
  refine ⟨?_, keeps.modes⟩
  intro guarded status member
  rw [keeps.statuses] at member
  exact guarded status member

/-- Doing nothing guards the statuses. -/
theorem Guards.refl (k : Kernel σ) : Guards k k := (Keeps.refl k).guards

/-- Two guarding steps one after the other. -/
theorem Guards.trans (first : Guards k₁ k₂) (second : Guards k₂ k₃) : Guards k₁ k₃ :=
  ⟨fun guarded => second.guarded (first.guarded guarded), second.modes.trans first.modes⟩

/-- A loop whose every turn leaves statuses and modes alone does so as a whole. -/
theorem keeps_foldl {α : Type} {turn : Kernel σ → α → Kernel σ}
    (each : ∀ k item, Keeps k (turn k item)) (items : List α) :
    ∀ k, Keeps k (items.foldl turn k) := by
  induction items with
  | nil => exact .refl
  | cons item rest rest_keeps => intro k; exact (each k item).trans (rest_keeps _)

section

variable (k : Kernel σ)

/-- A change of a thread outside its saved status. -/
theorem keeps_modThread (slot : Nat)
    (same : ∀ thread, (change thread).tf.spsrEl1 = thread.tf.spsrEl1) :
    Keeps k (k.modThread slot change) := by
  refine ⟨?_, rfl⟩
  apply ext_getElem?
  intro i
  simp only [statuses, Kernel.modThread, getElem?_map, getElem?_modify]
  cases k.threads[i]? with
  | none => rfl
  | some thread =>
    by_cases here : slot = i
    · simp [here, same]
    · simp [here]

/-- The same change of every thread. -/
theorem keeps_mapThreads (same : ∀ thread, (change thread).tf.spsrEl1 = thread.tf.spsrEl1) :
    Keeps k (k.mapThreads change) := by
  refine ⟨?_, rfl⟩
  simp only [statuses, Kernel.mapThreads, map_map]
  exact map_congr_left fun thread _ => same thread

/-- Domains hold no status. -/
theorem keeps_modDomain (slot : Nat) (change : Domain → Domain) :
    Keeps k (k.modDomain slot change) := ⟨rfl, rfl⟩

/-- The world outside the kernel holds no status. -/
theorem keeps_world (world : σ) : Keeps k { k with world := world } := ⟨rfl, rfl⟩

/-- A change of a processor outside its mode. -/
theorem keeps_modCpu {change : Cpu → Cpu} (same : ∀ c, (change c).mode = c.mode) :
    Keeps k (k.modCpu cpu change) := by
  refine ⟨rfl, ?_⟩
  apply ext_getElem?
  intro i
  simp only [modes, Kernel.modCpu, getElem?_map, getElem?_modify]
  cases k.cpus[i]? with
  | none => rfl
  | some c =>
    by_cases here : cpu = i
    · simp [here, same]
    · simp [here]

/-- A thread's own status after a write that keeps it. -/
theorem guards_modThread
    (fine : ∀ thread, SelectsEl0 thread.tf.spsrEl1 → SelectsEl0 (change thread).tf.spsrEl1) :
    Guards k (k.modThread slot change) := by
  refine ⟨?_, rfl⟩
  intro guarded status member
  obtain ⟨i, at_i⟩ := getElem?_of_mem member
  simp only [statuses, Kernel.modThread, getElem?_map, getElem?_modify] at at_i
  cases found : k.threads[i]? with
  | none => simp [found] at at_i
  | some thread =>
    have old : SelectsEl0 thread.tf.spsrEl1 := guarded _ (mem_map_of_mem (mem_of_getElem? found))
    by_cases here : slot = i
    · have new : (change thread).tf.spsrEl1 = status := by simpa [found, here] using at_i
      rw [← new]
      exact fine thread old
    · have same : thread.tf.spsrEl1 = status := by simpa [found, here] using at_i
      rw [← same]
      exact old

end

/-! ### Wakeups and reaping -/

/-- No processor has the thread as its current one any more. -/
theorem keeps_clearCurrentThread : Keeps k (clearCurrentThread thread k) := by
  refine ⟨rfl, ?_⟩
  simp only [modes, clearCurrentThread, map_map]
  apply map_congr_left
  intro c _
  by_cases was : c.current = some thread <;> simp [was]

/-- Freeing a thread's slot leaves its saved status. -/
theorem keeps_releaseThread : Keeps k (cellReleaseThread k thread) := by
  unfold cellReleaseThread
  split
  · exact .refl k
  refine .trans ?_ keeps_clearCurrentThread
  refine .trans ?_ (keeps_modThread _ thread fun _ => rfl)
  exact keeps_modDomain k _ .dropThread

/-- The parent of a `vfork` is woken, its registers are not touched. -/
theorem keeps_wakeVforkParentOf (k : Kernel σ) (childId : Int) :
    Keeps k (cellWakeVforkParentOf k childId) := by
  apply keeps_mapThreads
  intro thread
  split <;> rfl

/-- Waking the waiters of a futex changes results, not statuses. -/
theorem futexWakeFrom_statuses (domain : Option Nat) (threads : List Thread) :
    ∀ count, (futexWakeFrom domain uaddr count threads).map (·.tf.spsrEl1) =
      threads.map (·.tf.spsrEl1) := by
  induction threads with
  | nil => intro count; rfl
  | cons thread rest rest_same =>
    intro count
    cases count with
    | zero => rfl
    | succ count =>
      unfold futexWakeFrom
      split
      · simp [rest_same, TrapFrame.setX]
      · simp [rest_same]

/-- `cell_futex_wake_domain`, for one domain or for all. -/
theorem keeps_futexWakeDomain (domain : Option Nat) :
    Keeps k (cellFutexWakeDomain k domain uaddr count) :=
  ⟨futexWakeFrom_statuses domain k.threads count, rfl⟩

/-- The walk over the robust list of a dying thread. -/
theorem keeps_futexCleanupRobustList (host : ProcHost σ) (k : Kernel σ) (thread : Nat) :
    Keeps k (cellFutexCleanupRobustList host k thread) := by
  unfold cellFutexCleanupRobustList
  split
  · exact .refl k
  split
  · exact .refl k
  · exact (keeps_world k _).trans (keeps_foldl (fun k word => keeps_futexWakeDomain _) _ _)

/-- A woken thread gets its result in a general register. -/
theorem keeps_wakeThread (result : Option (BitVec 64)) (target : Int) (args : WaitArgs) :
    Keeps k (wakeThread k thread result target args) := by
  apply keeps_modThread
  intro t
  cases result <;> by_cases blocked : t.state = .blocked <;> simp [blocked, TrapFrame.setX]

/-- The thread of a reaped child is given up. -/
theorem keeps_retireChildThread : Keeps k (retireChildThread child busy k) := by
  unfold retireChildThread
  split
  · exact .refl k
  · exact keeps_modThread k _ fun _ => rfl

section Destroy

variable {host : ProcHost σ} {destroy : Nat → Kernel σ → Kernel σ}
  (destroy_keeps : ∀ domain k, Keeps k (destroy domain k))

include destroy_keeps

/-- The child is given up with all that it holds. -/
theorem keeps_releaseChild : Keeps k (releaseChild destroy child busy k) := by
  unfold releaseChild
  split
  · exact keeps_modDomain k child _
  · exact destroy_keeps child k

/-- The parent that waits gets the child's status and id. -/
theorem keeps_reapInto (dying : Domain) (waiter : Thread) :
    Keeps k (reapInto host destroy cpu child dying parentDomain parent waiter k) := by
  refine .trans ?_ (keeps_modThread _ parent fun _ => rfl)
  refine .trans ?_ (keeps_releaseChild destroy_keeps)
  refine .trans ?_ keeps_retireChildThread
  refine .trans ?_ (keeps_modThread _ parent fun _ => rfl)
  unfold storeWaitStatus
  split
  · exact keeps_world k _
  · exact .refl k

/-- The parent is woken, whether it waits for the child or not. -/
theorem keeps_wakeParentWith : Keeps k (wakeParentWith host destroy cpu child k) := by
  unfold wakeParentWith
  split
  · exact .refl k
  have woken := fun id => keeps_wakeVforkParentOf k id
  dsimp only
  split
  · exact woken _
  split
  · exact woken _
  split
  · exact woken _
  · split
    · exact (woken _).trans (keeps_reapInto destroy_keeps _ _)
    · exact woken _

/-- A child of the dying domain goes to its new parent. -/
theorem keeps_reparentChild (id : Int) (k : Kernel σ) (slot : Nat) :
    Keeps k (reparentChild host destroy cpu id reparentTo k slot) := by
  unfold reparentChild
  split
  · exact .refl k
  split
  · have moved := keeps_modDomain k slot fun d => { d with parentId := reparentTo }
    split
    · exact moved.trans (keeps_wakeParentWith destroy_keeps)
    · exact moved
  · exact .refl k

end Destroy

/-- `cell_destroy_domain`, to any depth of children that it takes along. -/
theorem keeps_destroyDomain : ∀ domain k, Keeps k (cellDestroyDomain host cpu depth domain k) := by
  induction depth with
  | zero => intro domain k; exact .refl k
  | succ depth deeper =>
    intro domain k
    unfold cellDestroyDomain
    split
    · exact .refl k
    refine .trans ?_ (keeps_modDomain _ _ _)
    refine .trans ?_ (keeps_world _ _)
    refine .trans ?_ (keeps_mapThreads _ ?_)
    · exact keeps_foldl (keeps_reparentChild deeper _) _ k
    · intro t
      split <;> rfl

/-- `cell_wake_parent_of` at full depth. -/
theorem keeps_wakeParentOf : Keeps k (cellWakeParentOf host cpu child k) :=
  keeps_wakeParentWith keeps_destroyDomain

/-- The domain that was left behind by a switch is destroyed. -/
theorem keeps_cleanupReapedCurrentDomain (oldDomain : Option Nat) :
    Keeps k (cleanupReapedCurrentDomain host cpu oldDomain next k) := by
  unfold cleanupReapedCurrentDomain
  split
  · exact .refl k
  split
  · exact .refl k
  · split
    · exact .refl k
    · exact keeps_destroyDomain _ k

/-! ### Signal delivery -/

/-- A signal without a handler ends the domain. -/
theorem keeps_terminateDomainBySignal :
    Keeps k (terminateDomainBySignal host cpu domain signal k) := by
  unfold terminateDomainBySignal
  split
  · exact .refl k
  split
  · exact .refl k
  refine .trans ?_ keeps_wakeParentOf
  refine .trans ?_ (keeps_mapThreads _ ?_)
  · exact (keeps_modDomain k domain _).trans (keeps_world _ _)
  · intro t
    split <;> rfl

/-- Ending a blocked call keeps the status of the thread. -/
theorem interruptWait_status (action : SignalAction) (thread : Thread) :
    (interruptWait action thread).tf.spsrEl1 = thread.tf.spsrEl1 := by
  unfold interruptWait
  split
  · dsimp only
    split <;> rfl
  · rfl

section

variable (host : ProcHost σ)

/-- The registers for the handler have the status of the interrupted code. -/
theorem keeps_deliverToHandler (index : Fin nsig) (action : SignalAction) :
    Keeps k (deliverToHandler host cpu slot domain signal index action faultAddr sigCode k).2 := by
  have interrupted := keeps_modThread k slot (interruptWait_status action)
  unfold deliverToHandler
  dsimp only
  split
  · exact interrupted
  have stored := fun world => interrupted.trans (keeps_world _ world)
  split
  · have entered := fun world addr => (stored world).trans
      (keeps_modThread _ slot (fun _ => rfl : ∀ thread,
        (enterHandler action signal addr thread).tf.spsrEl1 = thread.tf.spsrEl1))
    split
    · exact (entered _ _).trans (keeps_modDomain _ _ _)
    · exact entered _ _
  · exact (stored _).trans keeps_terminateDomainBySignal

/-- Delivery to a thread, with a handler or without. -/
theorem keeps_deliverSignalToThreadFault (thread : Option Nat) (k : Kernel σ) :
    Keeps k (cellDeliverSignalToThreadFault host cpu thread signal faultAddr sigCode k).2 := by
  unfold cellDeliverSignalToThreadFault
  dsimp only
  repeat' split
  all_goals first
    | exact .refl k
    | exact keeps_modThread k _ fun _ => rfl
    | exact keeps_terminateDomainBySignal
    | exact keeps_deliverToHandler host _ _

/-- All pending signals of a thread. -/
theorem keeps_deliverPendingSignals (k : Kernel σ) :
    Keeps k (cellDeliverPendingSignals host cpu slot k).2 := by
  unfold cellDeliverPendingSignals
  split
  · exact .refl k
  · refine .trans ?_ (keeps_deliverSignalToThreadFault host _ _)
    exact keeps_modThread k slot fun _ => rfl

/-- A new action is stored. -/
theorem keeps_storeSigaction (index : Fin nsig) :
    Keeps k (storeSigaction host domain index actAddr k).2 := by
  unfold storeSigaction
  split
  · exact .refl k
  dsimp only
  split
  · exact keeps_world k _
  · exact (keeps_world k _).trans (keeps_modDomain _ _ _)

/-- `rt_sigaction`, with its copies to and from the user. -/
theorem keeps_rtSigaction :
    Keeps k (cellRtSigaction host cpu signal actAddr oldAddr sigsetSize k).2 := by
  unfold cellRtSigaction
  dsimp only
  repeat' split
  all_goals first
    | exact .refl k
    | exact keeps_storeSigaction host _
    | exact (keeps_world k _).trans (keeps_storeSigaction host _)
    | exact keeps_world k _

/-- Signals to the members of a process group, one after the other. -/
theorem keeps_killGroup (cpu : Nat) (signal : Int) (slots : List Nat) :
    ∀ sent : Nat × Kernel σ,
      Keeps sent.2 (slots.foldl (killGroupMember host cpu pgrp signal) sent).2 := by
  induction slots with
  | nil => intro sent; exact .refl sent.2
  | cons slot rest rest_keeps =>
    intro sent
    refine .trans ?_ (rest_keeps (killGroupMember host cpu pgrp signal sent slot))
    unfold killGroupMember
    split
    · split
      · exact .refl sent.2
      · exact keeps_deliverSignalToThreadFault host _ sent.2
    · exact .refl sent.2

/-- `kill`, to a process or to a group. -/
theorem keeps_kill : Keeps k (cellKill host cpu pid signal k).2 := by
  unfold cellKill
  split
  · exact keeps_killGroup host cpu signal _ (0, k)
  repeat' split
  all_goals first
    | exact .refl k
    | exact keeps_deliverSignalToThreadFault host _ k

/-- A signal to the thread that a test accepts. -/
theorem keeps_killThread (accepts : Thread → Bool) :
    Keeps k (killThread host cpu accepts signal k).2 := by
  unfold killThread
  repeat' split
  all_goals first
    | exact .refl k
    | exact keeps_deliverSignalToThreadFault host _ k

/-- `tkill` finds the thread by its id alone. -/
theorem keeps_tkill : Keeps k (cellTkill host cpu tid signal k).2 := by
  unfold cellTkill
  split
  · exact .refl k
  · exact keeps_killThread host _

/-- `tgkill` also compares the process. -/
theorem keeps_tgkill : Keeps k (cellTgkill host cpu pid tid signal k).2 := by
  unfold cellTgkill
  repeat' split
  all_goals first
    | exact .refl k
    | exact keeps_killThread host _

end

/-! ### The scheduler -/

/-- A thread that is taken up again returns to the user level. -/
theorem restoreThread_confined (guarded : Guarded k) : (restoreThread cpu thread k).1.Confined := by
  unfold restoreThread
  split
  · intro frame none_loaded
    cases none_loaded
  rename_i t found
  intro frame loaded
  cases loaded
  exact guarded _ (mem_map_of_mem (mem_of_getElem? found))

/-- The thread that waits is saved before, so leaving it keeps its status. -/
theorem keeps_leaveCurrent (wait : SchedWait) : Keeps k (leaveCurrent cpu wait candidate k) := by
  unfold leaveCurrent
  split
  · exact .refl k
  · refine keeps_modThread k _ fun t => ?_
    split <;> rfl

section

variable (host : ProcHost σ) (cpu : Nat) (wait : SchedWait)

/-- The kernel that `switchTo` restores the candidate from. -/
theorem keeps_prepareSwitch : Keeps k (prepareSwitch host cpu wait candidate k) := by
  refine .trans ?_ (keeps_cleanupReapedCurrentDomain wait.oldDomain)
  refine .trans ?_ (keeps_modThread _ candidate fun _ => rfl)
  refine .trans ?_ (keeps_modCpu _ fun _ => rfl)
  exact keeps_leaveCurrent wait

/-- One pass of the scheduler over the threads. -/
theorem keeps_schedulePass : Keeps k (schedulePass host cpu wait k).2 := by
  unfold schedulePass
  split
  · unfold restoreThread
    split
    · exact keeps_prepareSwitch host cpu wait
    · exact (keeps_prepareSwitch host cpu wait).trans (keeps_modCpu _ fun _ => rfl)
  · dsimp only
    split <;> exact .refl k

/-- Whatever thread the pass takes up, it returns to the user level. -/
theorem schedulePass_confined
    (guarded : Guarded k) : (schedulePass host cpu wait k).1.Confined := by
  unfold schedulePass
  split
  · exact restoreThread_confined ((keeps_prepareSwitch host cpu wait).guards.guarded guarded)
  dsimp only
  split
  all_goals
    intro frame none_loaded
    cases none_loaded

end

/-- Saving stores the status of a frame that selects the user level. -/
theorem guards_saveCurrent (cpu : Nat) (user : SelectsEl0 frame.spsrEl1) (k : Kernel σ) :
    Guards k (cellSaveCurrent cpu frame k) := by
  unfold cellSaveCurrent
  split
  · exact .refl k
  · split
    · exact .refl k
    · exact guards_modThread k fun _ _ => user

/-- The result of a call that may end in `cell_schedule`. -/
structure Lands (k : Kernel σ) (result : CpuMode × Kernel σ) : Prop where
  /-- Saved frames stay guarded. -/
  guards : Guards k result.2
  /-- The new mode is confined. -/
  confined : Guarded k → result.1.Confined

/-- Steps before the call only guard. -/
theorem Lands.of_guards {result : CpuMode × Kernel σ} (first : Guards k k')
    (second : Lands k' result) : Lands k result :=
  ⟨first.trans second.guards, fun guarded => second.confined (first.guarded guarded)⟩

/-- A handler that goes on with a user frame. -/
theorem Lands.stay (first : Guards k k') (user : SelectsEl0 frame.spsrEl1) :
    Lands k (.kernel frame, k') := by
  refine ⟨first, ?_⟩
  intro _ loaded eq
  cases eq
  exact user

/-- A handler that returns at once lands where it came from. -/
theorem Lands.here (user : SelectsEl0 frame.spsrEl1) : Lands k (.kernel frame, k) :=
  .stay (.refl k) user

/-- The scheduler saves the current thread and takes up another. -/
theorem lands_schedule (host : ProcHost σ) (cpu : Nat) (user : SelectsEl0 frame.spsrEl1) :
    Lands k (cellSchedule host cpu frame k) := by
  have saved := guards_saveCurrent cpu user k
  exact ⟨saved.trans (keeps_schedulePass host cpu _).guards,
    fun guarded => schedulePass_confined host cpu _ (saved.guarded guarded)⟩

/-- A call that blocks ends in the scheduler. -/
theorem lands_blockCurrent (reason : WaitReason) (target : Option Int) (args : WaitArgs)
    (user : SelectsEl0 frame.spsrEl1) :
    Lands k (blockCurrent host cpu reason target args futexAddr frame k) := by
  unfold blockCurrent
  split
  · exact .here user
  · refine .of_guards ?_ (lands_schedule host cpu user)
    refine (guards_saveCurrent cpu user k).trans (Keeps.guards ?_)
    exact keeps_modThread _ _ fun _ => rfl

/-! ### Creating, replacing and ending threads -/

/-- A thread that starts from the registers of an existing one. -/
theorem guards_copyThread (source : Nat) (current : Thread)
    (found : k.threads[source]? = some current)
    (copied : ∀ thread, (change thread).tf.spsrEl1 = current.tf.spsrEl1) :
    Guards k (k.modThread slot change) := by
  refine ⟨?_, rfl⟩
  intro guarded
  refine (guards_modThread k ?_).guarded guarded
  intro thread _
  rw [copied thread]
  exact guarded _ (mem_map_of_mem (mem_of_getElem? found))

/-- A new domain has no thread yet. -/
theorem keeps_allocDomain (allocated : cellAllocDomain k = some (slot, k')) : Keeps k k' := by
  obtain ⟨free, _, result⟩ := Option.bind_eq_some_iff.mp allocated
  cases result
  exact ⟨rfl, rfl⟩

/-- A new thread begins with a zero frame, which selects the user level. -/
theorem guards_allocThread {domain : Nat} (allocated : cellAllocThread k domain = some (slot, k')) :
    Guards k k' := by
  obtain ⟨free, _, result⟩ := Option.bind_eq_some_iff.mp allocated
  cases result
  refine ⟨?_, rfl⟩
  intro guarded status member
  simp only [statuses, Kernel.modDomain, map_set] at member
  rcases mem_or_eq_of_mem_set member with old | new
  · exact guarded status old
  · rw [new]
    decide

/-- The address space of a domain is replaced. -/
theorem keeps_domainSetMm (host : ProcHost σ) (domain mm : Nat) :
    Keeps k (cellDomainSetMm host domain mm k).2 := by
  unfold cellDomainSetMm
  split <;> exact ⟨rfl, rfl⟩

/-- What was allocated for a child that cannot be made is given back. -/
theorem keeps_abandonChild (child childThread : Nat) :
    Keeps k (abandonChild child childThread k) := by
  refine .trans ?_ (keeps_modDomain _ _ _)
  exact keeps_modThread k _ fun _ => rfl

/-- The child's domain takes over what it inherits. -/
theorem keeps_inheritDomain (host : ProcHost σ) (child parent : Nat) (k : Kernel σ) :
    Keeps k (inheritDomain host child parent k) := by
  unfold inheritDomain
  split <;> exact ⟨rfl, rfl⟩

/-- Inheriting touches domains only. -/
theorem inheritDomain_threads : (inheritDomain host child parent k).threads = k.threads := by
  unfold inheritDomain
  split <;> rfl

/-- The child gets the registers of its parent with another result. -/
theorem guards_finishFork : Guards k (finishFork host slot parent child childThread k).2 := by
  unfold finishFork
  split
  · exact .refl k
  rename_i current found
  refine .trans ?_ (Keeps.guards (keeps_modThread _ slot fun _ => rfl))
  refine (keeps_inheritDomain host child parent k).guards.trans ?_
  refine guards_copyThread slot current ?_ fun _ => rfl
  rw [inheritDomain_threads]
  exact found

/-- A slot is taken for the new domain. -/
theorem keeps_takeDomainSlot : Keeps k (takeDomainSlot k) := by
  unfold takeDomainSlot
  cases allocated : cellAllocDomain k with
  | none => exact .refl k
  | some result => exact keeps_allocDomain allocated

section Frames

variable (host : ProcHost σ) (cpu : Nat) {frame : TrapFrame} (user : SelectsEl0 frame.spsrEl1)

include user

/-- `fork` after the slot for the child was found. -/
theorem guards_forkInto : Guards k (forkInto host cpu slot parent parentMm child frame k).2 := by
  unfold forkInto
  split
  · exact (keeps_modDomain k child _).guards
  rename_i childThread started allocated
  have saved := (guards_allocThread allocated).trans (guards_saveCurrent cpu user started)
  dsimp only
  split
  · exact saved.trans ((keeps_world _ _).trans (keeps_abandonChild child childThread)).guards
  have installed := fun world mm => saved.trans
    ((keeps_world (cellSaveCurrent cpu frame started) world).trans
      (keeps_domainSetMm host child mm)).guards
  split
  · exact (installed _ _).trans guards_finishFork
  · exact (installed _ _).trans
      ((keeps_world _ _).trans (keeps_abandonChild child childThread)).guards

/-- `fork` as a whole, with all its failures. -/
theorem guards_fork : Guards k (cellForkCurrent host cpu frame k).2 := by
  unfold cellForkCurrent
  split
  · split
    · exact keeps_takeDomainSlot.guards
    · exact .refl k
    · rename_i allocated
      exact (keeps_allocDomain allocated).guards.trans (guards_forkInto host cpu user)
  · exact keeps_takeDomainSlot.guards

end Frames

/-- `clone` stores the new id where it is asked to. -/
theorem keeps_storeCloneId (id : Int) :
    Keeps k (storeCloneId host flags flag addr domain id k).2 := by
  unfold storeCloneId
  repeat' split
  all_goals exact ⟨rfl, rfl⟩

/-- A `vfork` that fails half way is undone. -/
theorem keeps_undoVfork : Keeps k (undoVfork host cpu child childThread k) :=
  keeps_releaseThread.trans (keeps_destroyDomain child _)

/-- The word that a joiner waits on is cleared. -/
theorem keeps_clearChildTidOf (host : ProcHost σ) (slot : Nat) :
    Keeps k (clearChildTidOf host slot k) := by
  unfold clearChildTidOf
  split
  · exact .refl k
  split
  · exact .refl k
  · dsimp only
    exact (keeps_world k _).trans (keeps_futexWakeDomain _)

/-- A loop over the table that may change each thread in its own way, but not its status. -/
theorem keeps_mapIdxThreads (change : Nat → Thread → Thread)
    (same : ∀ i thread, (change i thread).tf.spsrEl1 = thread.tf.spsrEl1) :
    Keeps k { k with threads := k.threads.mapIdx change } := by
  refine ⟨?_, rfl⟩
  apply ext_getElem?
  intro i
  simp only [statuses, getElem?_map, getElem?_mapIdx]
  cases k.threads[i]? <;> simp [same]

/-- `execve` drops the other threads of the process. -/
theorem keeps_dropOtherThreads : Keeps k (dropOtherThreads slot domain k) := by
  refine .trans ?_ (keeps_modDomain _ _ _)
  refine keeps_mapIdxThreads _ ?_
  intro i thread
  split <;> rfl

/-- The other threads of an exiting process stop. -/
theorem keeps_exitSiblings : Keeps k (exitSiblings slot domain k) := by
  refine .trans ?_ (keeps_modDomain _ _ _)
  refine keeps_mapIdxThreads _ ?_
  intro i thread
  unfold exitSibling
  repeat' split
  all_goals rfl

/-- The exit status is recorded in the domain. -/
theorem keeps_markExited (status : Int) : Keeps k (markExited host domain status k) := ⟨rfl, rfl⟩

/-- `wait4` reaps a child that is dead already. -/
theorem keeps_reapChild (host : ProcHost σ) (cpu slot child : Nat) :
    Keeps k (reapChild host cpu slot child k) := by
  refine .trans ?_ (keeps_modThread _ slot fun _ => rfl)
  refine .trans ?_ (keeps_releaseChild keeps_destroyDomain)
  exact keeps_retireChildThread

section Frames

variable (host : ProcHost σ) (cpu : Nat) {frame : TrapFrame} (user : SelectsEl0 frame.spsrEl1)

include user

/-- The parent of a `vfork` waits, and the scheduler goes on. -/
theorem lands_finishVfork : Lands k (finishVfork host cpu slot child frame k).2 := by
  have answered := user
  refine .of_guards (Keeps.guards ?_) (lands_schedule host cpu answered)
  exact keeps_modThread k slot fun _ => rfl

/-- The child of a `vfork` is given the frame and runs first. -/
theorem lands_startVfork :
    Lands k (startVfork host cpu slot parent child childThread args frame k).2 := by
  unfold startVfork
  split
  · exact .here user
  rename_i current found
  have started : Guards k
      ((inheritDomain host child parent k).modThread childThread (vforkThread args current)) := by
    refine (keeps_inheritDomain host child parent k).guards.trans ?_
    refine guards_copyThread slot current ?_ fun _ => rfl
    rw [inheritDomain_threads]
    exact found
  dsimp only
  split
  · split
    · refine .of_guards ?_ (lands_finishVfork host cpu user)
      refine .trans ?_ (keeps_storeCloneId _).guards
      exact started.trans (keeps_storeCloneId _).guards
    · refine .stay ?_ user
      refine .trans ?_ keeps_undoVfork.guards
      refine .trans ?_ (keeps_storeCloneId _).guards
      exact started.trans (keeps_storeCloneId _).guards
  · refine .stay ?_ user
    refine .trans ?_ keeps_undoVfork.guards
    exact started.trans (keeps_storeCloneId _).guards

/-- `vfork` after the slot for the child was found. -/
theorem lands_vforkInto :
    Lands k (vforkInto host cpu slot parent parentMm child args frame k).2 := by
  unfold vforkInto
  split
  · exact .stay (keeps_modDomain k child _).guards user
  rename_i childThread started allocated
  have saved := (guards_allocThread allocated).trans (guards_saveCurrent cpu user started)
  have installed := fun world => saved.trans
    ((keeps_world (cellSaveCurrent cpu frame started) world).trans
      (keeps_domainSetMm host child parentMm)).guards
  dsimp only
  split
  · exact .of_guards (installed _) (lands_startVfork host cpu user)
  · exact .stay ((installed _).trans (keeps_abandonChild child childThread).guards) user

/-- `vfork` as a whole. -/
theorem lands_vfork : Lands k (cellVforkCurrent host cpu args frame k).2 := by
  unfold cellVforkCurrent
  split
  · split
    · exact .here user
    · exact .here user
    · rename_i allocated
      exact .of_guards (keeps_allocDomain allocated).guards (lands_vforkInto host cpu user)
  · exact .here user

/-- A new thread of the same process. -/
theorem guards_cloneThread : Guards k (cellCloneThreadCurrent host cpu args frame k).2 := by
  unfold cellCloneThreadCurrent
  split
  · split
    · exact .refl k
    split
    · exact .refl k
    rename_i thread started allocated
    have saved := (guards_allocThread allocated).trans (guards_saveCurrent cpu user started)
    dsimp only
    split
    · exact saved
    rename_i current found
    refine .trans ?_ (Keeps.guards (keeps_modThread _ _ fun _ => rfl))
    refine .trans ?_ (keeps_storeCloneId _).guards
    refine .trans ?_ (keeps_storeCloneId _).guards
    exact saved.trans (guards_copyThread _ current found fun _ => rfl)
  · exact .refl k

/-- A spawned domain begins at its entry on the user level. -/
theorem guards_finishSpawn :
    Guards k (finishSpawn host cpu slot parent child childThread entry arg frame k).2 := by
  have saved : Guards k (cellSaveCurrent cpu frame
      ((inheritDomain host child parent k).modThread childThread fun t =>
        { t with state := .runnable })) := by
    refine .trans ?_ (guards_saveCurrent cpu user _)
    refine Keeps.guards (.trans (keeps_inheritDomain host child parent k) ?_)
    exact keeps_modThread _ _ fun _ => rfl
  unfold finishSpawn
  dsimp only
  split
  · exact saved
  refine saved.trans (guards_modThread _ ?_)
  intro thread _
  show (frame.spsrEl1 &&& ~~~(1#64 <<< 7)) &&& 0xf = 0
  have low : ~~~(1#64 <<< 7) &&& 0xf#64 = 0xf#64 := by decide
  rw [BitVec.and_assoc]
  exact (congrArg (frame.spsrEl1 &&& ·) low).trans user

/-- Spawning from a snapshot after the slot was found. -/
theorem guards_spawnInto :
    Guards k (spawnInto host cpu slot parent child snapId entry arg frame k).2 := by
  unfold spawnInto
  split
  · exact (keeps_modDomain k child _).guards
  rename_i childThread started allocated
  have begun := guards_allocThread allocated
  dsimp only
  split
  · exact begun.trans ((keeps_world _ _).trans (keeps_abandonChild child childThread)).guards
  have installed := fun world mm => begun.trans
    ((keeps_world started world).trans (keeps_domainSetMm host child mm)).guards
  split
  · exact (installed _ _).trans (guards_finishSpawn host cpu user)
  · exact (installed _ _).trans
      ((keeps_world _ _).trans (keeps_abandonChild child childThread)).guards

/-- Spawning from a snapshot as a whole. -/
theorem guards_spawn : Guards k (snapshotSpawn host cpu snapId entry arg frame k).2 := by
  unfold snapshotSpawn
  split
  · split
    · rename_i allocated _
      exact (keeps_allocDomain allocated).guards.trans (guards_spawnInto host cpu user)
    · exact keeps_takeDomainSlot.guards
  · exact keeps_takeDomainSlot.guards

/-- The last thread leaves, and the domain dies. -/
theorem lands_leaveDomain : Lands k (leaveDomain host cpu slot domain frame k) := by
  refine .of_guards (Keeps.guards ?_) (lands_schedule host cpu user)
  refine .trans ?_ keeps_wakeParentOf
  exact keeps_modThread k slot fun _ => rfl

/-- `exit` of one thread. -/
theorem lands_exitThread (status : Int) :
    Lands k (cellExitThreadCurrent host cpu status frame k) := by
  unfold cellExitThreadCurrent
  split
  · rename_i slot domain _ _
    have cleared := (keeps_futexCleanupRobustList host k slot).trans
      (keeps_clearChildTidOf host slot)
    dsimp only
    split
    · exact .of_guards (cleared.trans (keeps_markExited status)).guards
        (lands_leaveDomain host cpu user)
    · exact .of_guards (cleared.trans keeps_releaseThread).guards (lands_schedule host cpu user)
  · exact .here user

/-- `exit_group` of all threads. -/
theorem lands_exitGroup (status : Int) :
    Lands k (cellExitGroupCurrent host cpu status frame k) := by
  unfold cellExitGroupCurrent
  split
  · rename_i slot domain _ _
    refine .of_guards (Keeps.guards ?_) (lands_leaveDomain host cpu user)
    refine .trans ?_ keeps_exitSiblings
    exact (keeps_clearChildTidOf host slot).trans (keeps_markExited status)
  · exact .here user

/-- `wait4` returns, or blocks in the scheduler. -/
theorem lands_wait4 : Lands k (cellWait4Options host cpu pid statusAddr noHang frame k).2 := by
  have here : Lands k (.kernel frame, k) := .here user
  unfold cellWait4Options
  split
  · split
    · split
      · exact here
      split
      · exact here
      · refine .of_guards ?_ (lands_schedule host cpu user)
        refine (guards_saveCurrent cpu user k).trans (Keeps.guards ?_)
        exact keeps_modThread _ _ fun _ => rfl
    · split
      · exact here
      have reaped := fun world slot child =>
        Lands.stay ((keeps_world k world).trans (keeps_reapChild host cpu slot child)).guards user
      have failed := fun world => Lands.stay (keeps_world k world).guards user
      dsimp only
      repeat' split
      all_goals first
        | exact reaped _ _ _
        | exact failed _
  · exact here

end Frames

/-- The status that `execve` gives a thread selects the user level. -/
theorem userSpsr_selectsEl0 : SelectsEl0 userSpsr := by decide

/-- `execve` replaces the registers of the thread by fresh ones. -/
theorem guards_exec : Guards k (cellExecReplace host cpu entry sp frame k).2.2 := by
  unfold cellExecReplace
  split
  · dsimp only
    split
    · exact (keeps_world k _).guards
    refine .trans ?_ (keeps_wakeVforkParentOf _ _).guards
    refine .trans ?_ (Keeps.guards (keeps_modCpu _ fun _ => rfl))
    refine .trans ?_ (guards_modThread _ fun _ _ => userSpsr_selectsEl0)
    refine Keeps.guards (.trans ?_ (keeps_modDomain _ _ _))
    refine .trans ?_ (keeps_domainSetMm host _ _)
    refine .trans ?_ (keeps_world _ _)
    exact (keeps_world k _).trans keeps_dropOtherThreads
  · exact .refl k

/-- The frame that `execve` returns with selects the user level. -/
theorem exec_confined (user : SelectsEl0 frame.spsrEl1) :
    SelectsEl0 (cellExecReplace host cpu entry sp frame k).2.1.spsrEl1 := by
  unfold cellExecReplace
  split
  · dsimp only
    split
    · exact user
    · exact userSpsr_selectsEl0
  · exact user

/-! ### Delivery to the current thread -/

/-- A status written to a slot is in the table. -/
theorem mem_statuses_modThread {thread : Thread} (found : k.threads[slot]? = some thread)
    (change : Thread → Thread) :
    (change thread).tf.spsrEl1 ∈ statuses (k.modThread slot change) := by
  apply mem_of_getElem? (i := slot)
  simp [statuses, Kernel.modThread, getElem?_map, found]

/-- Saving a frame does not lose a status that the frame itself has. -/
theorem mem_statuses_saveCurrent (present : frame.spsrEl1 ∈ statuses k) :
    frame.spsrEl1 ∈ statuses (cellSaveCurrent cpu frame k) := by
  unfold cellSaveCurrent
  split
  · exact present
  split
  · exact present
  rename_i c _ _ slot _
  cases found : k.threads[slot]? with
  | some thread =>
    exact mem_statuses_modThread found fun t =>
      { t with tf := frame, fp := c.fp, tpidrEl0 := c.tpidrEl0 }
  | none =>
    have out : k.threads.length ≤ slot := getElem?_eq_none_iff.mp found
    simp only [statuses, Kernel.modThread, modify_eq_self out]
    exact present

section

variable (host : ProcHost σ) (cpu slot : Nat) (ignored : Bool)

variable {deliver : Kernel σ → Bool × Kernel σ}

section

variable (deliver_keeps : ∀ k, Keeps k (deliver k).2)

include deliver_keeps

/-- Whatever the delivery does, the handler goes on, or gives up the processor, with the status
of the frame it was given, and that status is also saved in the slot. -/
theorem deliverOnFrame_cases :
    ∃ after next, Keeps (k.modThread slot fun t => { t with tf := frame }) after ∧
      next.spsrEl1 = frame.spsrEl1 ∧
      ((deliverOnFrame host cpu slot ignored deliver frame k).2 = (.kernel next, after) ∨
        (deliverOnFrame host cpu slot ignored deliver frame k).2 =
          cellSchedule host cpu next after) := by
  have kept := deliver_keeps (k.modThread slot fun t => { t with tf := frame })
  unfold deliverOnFrame
  generalize deliver (k.modThread slot fun t => { t with tf := frame }) = delivered at kept ⊢
  dsimp only
  cases found : delivered.2.threads[slot]? with
  | none => exact ⟨_, frame, kept, rfl, .inl rfl⟩
  | some t =>
    have same : t.tf.spsrEl1 = frame.spsrEl1 := by
      have at_slot := congrArg (·[slot]?) kept.statuses
      simp only [statuses, getElem?_map, found, Kernel.modThread, getElem?_modify] at at_slot
      cases before : k.threads[slot]? with
      | none => simp [before] at at_slot
      | some old => simpa [before] using at_slot
    refine ⟨_, t.tf, kept, same, ?_⟩
    dsimp only
    split
    · exact .inr rfl
    · exact .inl rfl

/-- A delivery to the current thread returns with the frame it leaves, or ends in the scheduler. -/
theorem lands_deliverOnFrame (user : SelectsEl0 frame.spsrEl1) :
    Lands k (deliverOnFrame host cpu slot ignored deliver frame k).2 := by
  obtain ⟨after, next, kept, same, result⟩ :=
    deliverOnFrame_cases host cpu slot ignored deliver_keeps
  have user_next : SelectsEl0 next.spsrEl1 := by rw [same]; exact user
  have written : Guards k (k.modThread slot fun t => { t with tf := frame }) :=
    guards_modThread k fun _ _ => user
  rcases result with stay | switch
  · rw [stay]
    exact .stay (written.trans kept.guards) user_next
  · rw [switch]
    exact .of_guards (written.trans kept.guards) (lands_schedule host cpu user_next)

/-- A status that was on the frame of an existing thread is not lost by a delivery. -/
theorem mem_statuses_deliverOnFrame (present : slot < k.threads.length) :
    frame.spsrEl1 ∈ statuses (deliverOnFrame host cpu slot ignored deliver frame k).2.2 := by
  obtain ⟨after, next, kept, same, result⟩ :=
    deliverOnFrame_cases host cpu slot ignored deliver_keeps
  have kept_status : frame.spsrEl1 ∈ statuses after := by
    rw [kept.statuses]
    exact mem_statuses_modThread (getElem?_eq_getElem present) fun t =>
      { t with tf := frame }
  rcases result with stay | switch
  · rw [stay]
    exact kept_status
  rw [switch]
  rw [← same] at kept_status ⊢
  rw [cellSchedule, (keeps_schedulePass host _ _).statuses]
  exact mem_statuses_saveCurrent kept_status

end

end

/-- The frame, if any, that `rt_sigreturn` would take its registers from on a processor. -/
def returnFrame (host : ProcHost σ) (cpu : Nat) (frame : TrapFrame) (k : Kernel σ) :
    Option SignalFrame := do
  let _ ← k.currentThread cpu
  let domain ← k.currentDomain cpu
  (acceptedSignalFrame host (k.domainMm domain) frame k.world).1

section

variable (user : SelectsEl0 frame.spsrEl1)

include user

/-- Pending signals are delivered on the way back to the user. -/
theorem lands_deliverPendingCurrent :
    Lands k (cellDeliverPendingSignalsCurrent host cpu frame k).2 := by
  unfold cellDeliverPendingSignalsCurrent
  split
  · exact .here user
  · split
    · exact lands_deliverOnFrame host cpu _ false (keeps_deliverPendingSignals host) user
    · exact .here user

/-- A fault of the current thread becomes a signal. -/
theorem lands_signalCurrentFault :
    Lands k (cellSignalCurrentFault host cpu signal faultAddr sigCode frame k).2 := by
  unfold cellSignalCurrentFault
  split
  · exact .here user
  · exact lands_deliverOnFrame host cpu _ _ (keeps_deliverSignalToThreadFault host _) user

/-- `rt_sigreturn` stays confined when the frame it takes, if any, has a user status. -/
theorem lands_rtSigreturn
    (restored : ∀ sigframe, returnFrame host cpu frame k = some sigframe →
      SelectsEl0 sigframe.ucMcontext.pstate) : Lands k (cellRtSigreturn host cpu frame k).2 := by
  unfold cellRtSigreturn
  split
  · rename_i slot domain thread_found domain_found
    dsimp only
    split
    · refine .of_guards ?_ (lands_signalCurrentFault user)
      exact (keeps_world k _).guards
    rename_i sigframe accepted
    have user_status : SelectsEl0 sigframe.restored.spsrEl1 := by
      apply restored sigframe
      simp [returnFrame, thread_found, domain_found, accepted]
    refine .of_guards ?_ (lands_deliverPendingCurrent user_status)
    refine .trans ?_ (guards_modThread _ fun _ _ => user_status)
    exact (keeps_world k _).guards
  · exact .here user

end

/-- The status that `rt_sigreturn` takes from the user's frame is stored in the thread table as
it is. -/
theorem mem_statuses_rtSigreturn {sigframe : SignalFrame}
    (accepted : returnFrame host cpu frame k = some sigframe) :
    sigframe.ucMcontext.pstate ∈ statuses (cellRtSigreturn host cpu frame k).2.2 := by
  obtain ⟨slot, thread_found, accepted⟩ := Option.bind_eq_some_iff.mp accepted
  obtain ⟨domain, domain_found, accepted⟩ := Option.bind_eq_some_iff.mp accepted
  -- The current domain is read from the current thread's slot, so the slot exists.
  have present : slot < k.threads.length := by
    by_contra out
    have none_there : k.threads[slot]? = none := getElem?_eq_none_iff.mpr (by omega)
    simp [Kernel.currentDomain, thread_found, none_there] at domain_found
  simp only [cellRtSigreturn, thread_found, domain_found, accepted]
  have stored := mem_statuses_modThread (getElem?_eq_getElem present) fun t =>
    { t with
      tf := sigframe.restored
      signalMask := signalMaskSanitized sigframe.savedSignalMask }
  unfold cellDeliverPendingSignalsCurrent
  split
  · exact stored
  rename_i current current_found
  have same : current = slot := Option.some.inj (current_found.symm.trans thread_found)
  subst same
  split
  · apply mem_statuses_deliverOnFrame host cpu current false (keeps_deliverPendingSignals host)
    simpa [Kernel.modThread] using present
  · exact stored

end Spore.Proc
