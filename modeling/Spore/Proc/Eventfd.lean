import Spore.Ipc.UserMemory
import Spore.Lib.Run

/-!
# Event counters (`proc/fd.c`, `proc/io.c`, `arch/aarch64/sys_io.c`)

A read takes its value off the counter before it copies it to the caller, and does not put it back
if the copy faults. It never does: `sys_read` has made the caller's range writable before. So the
counter is what its creation and the accepted writes have put in, less what readers got. Only
creation can put it above its maximum, because it takes any value.
-/

namespace Spore.Proc

open Spore.Lib
open Spore.Ipc (UserMemory Access)

/-- The fields of an `OPEN_EVENTFD` file. -/
structure Eventfd where
  /-- The counter. -/
  eventfdValue : UInt64
  /-- Whether a read takes one. -/
  eventfdSemaphore : Bool
  /-- Whether calls fail instead of waiting. -/
  nonblock : Bool

/-- `user_readable` and `user_writable`: pages are faulted in and then tested. -/
def syscallUserRange (m : UserMemory) (domain buf len : Nat) (access : Access) :
    Bool × UserMemory :=
  if len = 0 then (true, m)
  else
    let ensured := m.cellDomainEnsureUserRange domain buf len access
    if ensured.1 = false then ensured
    else match ensured.2.mm domain with
      | none => (false, ensured.2)
      | some mm => (ensured.2.vmmUserRangeAccessible mm buf len access, ensured.2)

/-- The bytes of a value in memory, the lowest first. -/
def valueBytes (value : UInt64) : List UInt8 :=
  (List.range 8).map fun k => (value >>> (8 * k.toUInt64)).toUInt8

/-- The value that such bytes hold. -/
def bytesValue (bytes : List UInt8) : UInt64 :=
  bytes.foldr (fun byte high => byte.toUInt64 ||| high <<< 8) 0

/-- The value at a user address; none if copying it faults. -/
def userValue (m : UserMemory) (domain buf : Nat) : Option UInt64 :=
  match m.mm domain with
  | none => none
  | some mm => (m.vmmCopyFromUser mm buf 8).map bytesValue

/-- `write`: eight bytes, added unless they overflow. -/
def cellEventfdWriteFromDomain (file : Eventfd) (m : UserMemory) (domain buf len : Nat) :
    Int × Eventfd :=
  if len < 8 then (-22, file)
  else
    match userValue m domain buf with
    | none => (-14, file)
    | some add =>
      if add = 0xffffffffffffffff ∨ 0xffffffffffffffff - file.eventfdValue ≤ add then (-11, file)
      else (8, { file with eventfdValue := file.eventfdValue + add })

/-- What one read takes off the counter. -/
def Eventfd.portion (file : Eventfd) : UInt64 :=
  if file.eventfdSemaphore then 1 else file.eventfdValue

/-- `read`: the counter, or one in semaphore mode. -/
def cellEventfdReadToDomain (file : Eventfd) (m : UserMemory) (domain buf len : Nat) :
    Int × Eventfd × UserMemory :=
  if len < 8 then (-22, file, m)
  else if file.eventfdValue = 0 then (-11, file, m)
  else
    let taken := { file with eventfdValue := file.eventfdValue - file.portion }
    match m.mm domain with
    | none => (-14, taken, m)
    | some mm =>
      let copied := m.vmmCopyToUser mm buf (valueBytes file.portion)
      (if copied.1 then 8 else -14, taken, copied.2)

/-- The end of `cell_fd_read` and `cell_fd_write` of an event counter: a call that would have to
wait returns `-EAGAIN`, blocking or not. -/
def Eventfd.answer (file : Eventfd) (frame : Bool) (result : Int) : Int :=
  if result = -11 ∧ file.nonblock = false ∧ frame then -11 else result

/-- `sys_write` and `cell_fd_write`. -/
def Eventfd.sysWrite (file : Eventfd) (m : UserMemory) (domain buf len : Nat) (frame : Bool) :
    Int × Eventfd × UserMemory :=
  let checked := syscallUserRange m domain buf len .read
  if checked.1 = false then (-14, file, checked.2)
  else if len = 0 then (0, file, checked.2)
  else
    let wrote := cellEventfdWriteFromDomain file checked.2 domain buf len
    (file.answer frame wrote.1, wrote.2, checked.2)

/-- `sys_read` and `cell_fd_read`. -/
def Eventfd.sysRead (file : Eventfd) (m : UserMemory) (domain buf len : Nat) (frame : Bool) :
    Int × Eventfd × UserMemory :=
  let checked := syscallUserRange m domain buf len .write
  if checked.1 = false then (-14, file, checked.2)
  else
    let got := cellEventfdReadToDomain file checked.2 domain buf len
    (file.answer frame got.1, got.2)

/-- The counter and user memory, with the sums of what was put in and of what readers got. -/
structure EventRun where
  /-- The file. -/
  file : Eventfd
  /-- The memory of the callers. -/
  memory : UserMemory
  /-- The first value and the values of the accepted writes. -/
  accepted : Nat
  /-- The values of the reads that succeeded. -/
  delivered : Nat

/-- A call of a domain, with a frame to block with or none; or anything that other code does to
user memory between the calls. -/
inductive EventOp where
  | write (domain buf len : Nat) (frame : Bool)
  | read (domain buf len : Nat) (frame : Bool)
  | memory (next : UserMemory)

namespace EventRun

/-- `cell_fd_eventfd`. -/
def start (initval : UInt64) (semaphore nonblock : Bool) (memory : UserMemory) : EventRun :=
  ⟨⟨initval, semaphore, nonblock⟩, memory, initval.toNat, 0⟩

/-- One call; a call that returns eight has moved its value. -/
def step (run : EventRun) : EventOp → EventRun
  | .write domain buf len frame =>
    let result := run.file.sysWrite run.memory domain buf len frame
    let add := userValue (syscallUserRange run.memory domain buf len .read).2 domain buf
    ⟨result.2.1, result.2.2,
      run.accepted + (if result.1 = 8 then (add.getD 0).toNat else 0), run.delivered⟩
  | .read domain buf len frame =>
    let result := run.file.sysRead run.memory domain buf len frame
    ⟨result.2.1, result.2.2, run.accepted,
      run.delivered + (if result.1 = 8 then run.file.portion.toNat else 0)⟩
  | .memory next => { run with memory := next }

/-- The counter holds what was put in and not delivered, and has not passed its maximum. -/
def Conserved (run : EventRun) : Prop :=
  run.file.eventfdValue.toNat + run.delivered = run.accepted ∧
    run.file.eventfdValue.toNat < 2 ^ 64 - 1

end EventRun

/-- Whether a call may block makes no difference to its answer. -/
theorem Eventfd.answer_eq (file : Eventfd) (frame : Bool) (result : Int) :
    file.answer frame result = result := by
  unfold answer
  split
  · rename_i waits
    exact waits.1.symm
  · rfl

/-- A read takes no more than there is. -/
theorem Eventfd.portion_le {file : Eventfd} (some_left : file.eventfdValue ≠ 0) :
    file.portion.toNat ≤ file.eventfdValue.toNat := by
  have positive : 0 < file.eventfdValue.toNat := by
    rw [Nat.pos_iff_ne_zero]
    exact fun zero => some_left (UInt64.toNat_inj.mp zero)
  unfold portion
  split
  · exact positive
  · exact Nat.le_refl _

/-- A range that passed the check of `sys_read` takes every copy to its first bytes. -/
theorem syscallUserRange_copies {m : UserMemory} {domain buf len : Nat} (bytes : List UInt8)
    (checked : (syscallUserRange m domain buf len .write).1) (short : bytes.length ≤ len)
    (some_bytes : len ≠ 0) :
    ∃ mm, (syscallUserRange m domain buf len .write).2.mm domain = some mm ∧
      ((syscallUserRange m domain buf len .write).2.vmmCopyToUser mm buf bytes).1 := by
  unfold syscallUserRange at checked ⊢
  rw [if_neg some_bytes] at checked ⊢
  dsimp only at checked ⊢
  split at checked
  · rename_i refused
    rw [refused] at checked
    cases checked
  rename_i good
  rw [if_neg good]
  obtain ⟨mm, space, bounded, ready⟩ := UserMemory.ensure_ready some_bytes (by simpa using good)
  have same : (m.cellDomainEnsureUserRange domain buf len .write).2.mm domain = some mm := by
    rw [UserMemory.keeps_ensure.spaces]
    exact space
  rw [same]
  have first : UserMemory.Ready _ mm (buf + 0) bytes.length .write := ready.part (by omega)
  exact ⟨mm, same, (UserMemory.copyTo_of_ready first (by omega)).1⟩

namespace EventRun

variable {run : EventRun}

/-- A write adds to the counter what it is credited with, and stops below the maximum. -/
theorem conserved_write (conserved : run.Conserved) (domain buf len : Nat) (frame : Bool) :
    (run.step (.write domain buf len frame)).Conserved := by
  obtain ⟨balance, below⟩ := conserved
  simp only [step, Eventfd.sysWrite, Eventfd.answer_eq]
  generalize syscallUserRange run.memory domain buf len .read = checked
  split
  · exact ⟨balance, below⟩
  split
  · exact ⟨balance, below⟩
  unfold cellEventfdWriteFromDomain
  split
  · exact ⟨balance, below⟩
  cases userValue checked.2 domain buf with
  | none => exact ⟨balance, below⟩
  | some add =>
    dsimp only
    split
    · exact ⟨balance, below⟩
    rename_i fits
    simp only [not_or, UInt64.not_le, UInt64.lt_iff_toNat_lt] at fits
    have room : add.toNat < (0xffffffffffffffff - run.file.eventfdValue).toNat := fits.2
    have left : (0xffffffffffffffff - run.file.eventfdValue).toNat =
        2 ^ 64 - 1 - run.file.eventfdValue.toNat :=
      UInt64.toNat_sub_of_le _ _ (UInt64.le_iff_toNat_le.mpr (Nat.le_of_lt below))
    have sum : (run.file.eventfdValue + add).toNat = run.file.eventfdValue.toNat + add.toNat := by
      rw [UInt64.toNat_add, Nat.mod_eq_of_lt (by omega)]
    refine ⟨?_, ?_⟩
    · show (run.file.eventfdValue + add).toNat + run.delivered = run.accepted + add.toNat
      omega
    · show (run.file.eventfdValue + add).toNat < _
      omega

/-- A read delivers what it takes: its range has been checked. -/
theorem conserved_read (conserved : run.Conserved) (domain buf len : Nat) (frame : Bool) :
    (run.step (.read domain buf len frame)).Conserved := by
  obtain ⟨balance, below⟩ := conserved
  simp only [step, Eventfd.sysRead, Eventfd.answer_eq]
  split
  · exact ⟨balance, below⟩
  rename_i checked
  unfold cellEventfdReadToDomain
  split
  · exact ⟨balance, below⟩
  split
  · exact ⟨balance, below⟩
  rename_i long some_left
  have taken := UInt64.toNat_sub_of_le _ _
    (UInt64.le_iff_toNat_le.mpr (Eventfd.portion_le some_left))
  have within := Eventfd.portion_le some_left
  obtain ⟨mm, space, copies⟩ := syscallUserRange_copies (valueBytes run.file.portion)
    (by simpa using checked) (by simpa [valueBytes] using long) (by omega)
  simp only [space, copies, ↓reduceIte]
  refine ⟨?_, ?_⟩
  · show (run.file.eventfdValue - run.file.portion).toNat +
      (run.delivered + run.file.portion.toNat) = run.accepted
    omega
  · show (run.file.eventfdValue - run.file.portion).toNat < _
    omega

end EventRun

/-- Along every run of reads and writes by any domains, with user memory that changes in any way
between them, the counter is conserved and below its maximum exactly if it was created so. -/
theorem eventfd_conserved_iff (initval : UInt64) (semaphore nonblock : Bool) (memory : UserMemory)
    (ops : List EventOp) :
    EveryState EventRun.step EventRun.Conserved (.start initval semaphore nonblock memory) ops ↔
      initval.toNat < 2 ^ 64 - 1 := by
  constructor
  · exact fun every => every.start.2
  · intro small
    refine everyState_of_kept (fun run op conserved => ?_) ⟨rfl, small⟩
    cases op with
    | write domain buf len frame => exact EventRun.conserved_write conserved domain buf len frame
    | read domain buf len frame => exact EventRun.conserved_read conserved domain buf len frame
    | memory next => exact conserved

/-- Memory without an address space. -/
def noMemory : UserMemory := ⟨fun _ _ => 0, fun _ _ => ⟨none, fun _ => none⟩, fun _ => none⟩

/-- Creation takes the one value that is above the maximum. -/
theorem eventfd_created_above_maximum :
    ¬ EveryState EventRun.step EventRun.Conserved
      (.start 0xffffffffffffffff false false noMemory) [] := by
  intro every
  exact absurd every.start.2 (by decide)

end Spore.Proc
