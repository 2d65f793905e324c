import Spore.Mm.Syscalls

/-!
# The initial stack (`exec/stack.c`)

Strings go down from the top of the stack, the table of pointers lies below them.
`stack_copy_to_user` stores the bytes or fails; whether pages can be had is left open.
-/

namespace Spore.Exec

open Spore.Mm Option

/-- The bytes of the user's address space. -/
abbrev UserBytes := Nat → UInt8

/-- A string without its terminating NUL. -/
def CString := { bytes : List UInt8 // 0 ∉ bytes }

/-- The bytes after a copy to an address. -/
def store (m : UserBytes) (va : Nat) (data : List UInt8) : UserBytes :=
  fun a => if va ≤ a ∧ a < va + data.length then data.getD (a - va) 0 else m a

/-- The bytes from an address on. -/
def load (m : UserBytes) (va count : Nat) : List UInt8 := (List.range count).map fun i => m (va + i)

/-- The eight bytes of a word. -/
def wordBytes (w : BitVec 64) : List UInt8 :=
  (List.range 8).map fun i => (w.toNat / 256 ^ i).toUInt8

/-- The word at an address, the lowest byte first. -/
def readWord (m : UserBytes) (p : Nat) : BitVec 64 :=
  BitVec.ofNat 64 ((m p).toNat + 256 * (m (p + 1)).toNat + 256 ^ 2 * (m (p + 2)).toNat +
    256 ^ 3 * (m (p + 3)).toNat + 256 ^ 4 * (m (p + 4)).toNat + 256 ^ 5 * (m (p + 5)).toNat +
    256 ^ 6 * (m (p + 6)).toNat + 256 ^ 7 * (m (p + 7)).toNat)

/-- The words from an address on. -/
def readWords (m : UserBytes) (p : Nat) : Nat → List (BitVec 64)
  | 0 => []
  | count + 1 => readWord m p :: readWords m (p + 8) count

/-- What `elf_load_aarch64` and the credentials contribute. -/
structure LoadedElf where
  /-- Where the program headers are, their size and number, where the interpreter was loaded and
  where the program starts. -/
  (phdr phent phnum atBase entry : BitVec 64)
  /-- The real and effective ids of user and group. -/
  (uid euid gid egid : BitVec 64)

/-- The auxiliary pairs, each a type and a value. -/
def auxiliary (elf : LoadedElf) (platform random execfn : BitVec 64) :
    List (BitVec 64 × BitVec 64) :=
  [(3, elf.phdr), (4, elf.phent), (5, elf.phnum), (6, 4096), (7, elf.atBase), (9, elf.entry),
    (11, elf.uid), (12, elf.euid), (13, elf.gid), (14, elf.egid), (15, platform), (16, 0x1fb),
    (17, 100), (23, 0), (25, random), (26, 0), (31, execfn), (51, 8192), (0, 0)]

/-- `cursor - n`, modulo 2^64. -/
def down (cursor : BitVec 64) (n : Nat) : BitVec 64 := cursor - BitVec.ofNat 64 n

/-- The multiple of 16 at or below. -/
def alignDown16 (a : BitVec 64) : BitVec 64 := BitVec.ofNat 64 (a.toNat / 16 * 16)

/-- The platform string, `aarch64`. -/
def platformName : CString := ⟨[97, 97, 114, 99, 104, 54, 52], by decide⟩

section

-- Whether the pages of a range are there or can be allocated, and are written.
variable (granted : Nat → Nat → Bool)

/-- `stack_copy_to_user`: the range lies in the stack and its pages can be had. -/
def stackCopyToUser (va : BitVec 64) (data : List UInt8) (m : UserBytes) : Option UserBytes :=
  if data = [] ∨ va.toNat < userStackTop - userStackSize ∨ userStackTop < va.toNat + data.length ∨
    granted va.toNat data.length = false then none
  else some (store m va.toNat data)

/-- The loops over `argv` and `envp`. -/
def pushStrings : List CString → BitVec 64 → UserBytes →
    Option (List (BitVec 64) × BitVec 64 × UserBytes)
  | [], cursor, m => some ([], cursor, m)
  | s :: rest, cursor, m => do
    let va := down cursor (s.1.length + 1)
    let m ← stackCopyToUser granted va (s.1 ++ [0]) m
    let (vas, cursor, m) ← pushStrings rest va m
    return (va :: vas, cursor, m)

/-- The words of the table, from `p` upwards. -/
def writeWords : List (BitVec 64) → BitVec 64 → UserBytes → Option UserBytes
  | [], _, m => some m
  | w :: rest, p, m => do
    let m ← stackCopyToUser granted p (wordBytes w) m
    writeWords rest (p + 8) m

/-- The table: the count, the two lists of addresses, the auxiliary pairs. -/
def table (argv envp : List (BitVec 64)) (aux : List (BitVec 64 × BitVec 64)) : List (BitVec 64) :=
  BitVec.ofNat 64 argv.length :: argv ++ 0 :: envp ++ 0 :: aux.flatMap fun pair => [pair.1, pair.2]

/-- `build_initial_stack_args`; `scratch` says whether the pages for the addresses of the strings
were there. -/
def buildInitialStackArgs (scratch : Bool) (random : Fin 16 → UInt8) (elf : LoadedElf)
    (argv envp : List CString) (m : UserBytes) : Option (BitVec 64 × UserBytes) :=
  if userStackSize < 8 * (argv.length + envp.length) ∨
    argv.length + envp.length ≠ 0 ∧ scratch = false then none
  else do
    let (argvVa, cursor, m) ← pushStrings granted argv (BitVec.ofNat 64 userStackTop) m
    let (envpVa, cursor, m) ← pushStrings granted envp cursor m
    let platformVa := down cursor 8
    let m ← stackCopyToUser granted platformVa (platformName.1 ++ [0]) m
    let randomVa := alignDown16 (down platformVa 16)
    let m ← stackCopyToUser granted randomVa (List.ofFn random) m
    let words := table argvVa envpVa (auxiliary elf platformVa randomVa (argvVa.headD 0))
    let sp := alignDown16 (down randomVa (8 * words.length))
    let m ← writeWords granted words sp m
    return (sp, m)

end

/-! ## Reading back -/

/-- What was stored is read back. -/
theorem load_store (m : UserBytes) (va : Nat) (data : List UInt8) :
    load (store m va data) va data.length = data := by
  apply List.ext_getElem
  · simp [load]
  · intro i h1 h2
    simp [load, store, h2]

section

variable {granted : Nat → Nat → Bool} {m after : UserBytes} {cursor : BitVec 64} {va n : Nat}
  {data : List UInt8}

/-- A read depends on the bytes of its range. -/
theorem load_congr {m m' : UserBytes} {count : Nat}
    (same : ∀ a, va ≤ a → a < va + count → m' a = m a) : load m' va count = load m va count := by
  apply List.map_congr_left
  intro i inside
  have := List.mem_range.mp inside
  exact same _ (by omega) (by omega)

/-- A copy leaves the bytes outside its range alone. -/
theorem store_of_lt {m : UserBytes} {a : Nat}
    (outside : a < va ∨ va + data.length ≤ a) : store m va data a = m a := by
  rw [store, if_neg (by omega)]

/-- The bytes of a word are read as the word. -/
theorem readWord_of_load {m : UserBytes} {p : Nat} {w : BitVec 64}
    (bytes : load m p 8 = wordBytes w) : readWord m p = w := by
  have number : ∀ i < 8, (m (p + i)).toNat = w.toNat / 256 ^ i % 256 := by
    intro i small
    have each := congrArg (fun l => (l.getD i 0).toNat) bytes
    simpa [load, wordBytes, small] using each
  rw [readWord, number 1 (by decide), number 2 (by decide), number 3 (by decide),
    number 4 (by decide), number 5 (by decide), number 6 (by decide), number 7 (by decide)]
  have first := number 0 (by decide)
  rw [Nat.add_zero] at first
  apply BitVec.eq_of_toNat_eq
  rw [BitVec.toNat_ofNat]
  omega

/-- A copy lies in the stack, and changes nothing else. -/
theorem stackCopyToUser_eq {va : BitVec 64}
    (copied : stackCopyToUser granted va data m = some after) :
    0 < data.length ∧ userStackTop - userStackSize ≤ va.toNat ∧
      va.toNat + data.length ≤ userStackTop ∧ after = store m va.toNat data := by
  unfold stackCopyToUser at copied
  split at copied
  · cases copied
  · rename_i fits
    push Not at fits
    exact ⟨List.length_pos_iff.mpr fits.1, fits.2.1, fits.2.2.1, (some.inj copied).symm⟩

/-- The string stands at the address, between two bounds. -/
def Placed (m : UserBytes) (low high : Nat) (va : BitVec 64) (s : CString) : Prop :=
  load m va.toNat (s.1.length + 1) = s.1 ++ [0] ∧ low ≤ va.toNat ∧ va.toNat + s.1.length + 1 ≤ high

/-- A string stays where it is while no byte from the lower bound on changes. -/
theorem Placed.mono {low low' high high' : Nat} {va : BitVec 64} {s : CString}
    (placed : Placed m low high va s) (same : ∀ a, low ≤ a → after a = m a) (lower : low' ≤ low)
    (higher : high ≤ high') : Placed after low' high' va s := by
  obtain ⟨bytes, above, below⟩ := placed
  refine ⟨?_, lower.trans above, below.trans higher⟩
  rw [← bytes]
  exact load_congr fun a inside _ => same a (above.trans inside)

/-- A subtraction whose result can be undone did not wrap around. -/
theorem toNat_down (fits : (down cursor n).toNat + n < 2 ^ 64) :
    (down cursor n).toNat + n = cursor.toNat := by
  rw [down, BitVec.toNat_sub, BitVec.toNat_ofNat] at fits ⊢
  omega

/-- The addresses of the stack are words. -/
theorem userStackTop_lt : userStackTop < 2 ^ 64 := by decide

/-- The strings stand below the cursor and above the new one, and nothing above changed. -/
theorem pushStrings_placed {strings : List CString} {low : BitVec 64} {vas : List (BitVec 64)}
    (pushed : pushStrings granted strings cursor m = some (vas, low, after)) :
    low.toNat ≤ cursor.toNat ∧ (∀ a, cursor.toNat ≤ a → after a = m a) ∧
      List.Forall₂ (Placed after low.toNat cursor.toNat) vas strings := by
  induction strings generalizing cursor m vas with
  | nil =>
    obtain ⟨rfl, rfl, rfl⟩ := pushed
    exact ⟨le_rfl, fun _ _ => rfl, .nil⟩
  | cons s rest ih =>
    simp only [pushStrings, bind_eq_bind, bind_eq_some_iff, pure_def,
      some.injEq, Prod.mk.injEq, Prod.exists] at pushed
    obtain ⟨middle, copied, vas', low', last, pushed, rfl, rfl, rfl⟩ := pushed
    obtain ⟨_, _, fits, rfl⟩ := stackCopyToUser_eq copied
    have length : (s.1 ++ [0]).length = s.1.length + 1 := List.length_append
    rw [length] at fits
    have exact_fit := toNat_down (Nat.lt_of_le_of_lt fits userStackTop_lt)
    obtain ⟨lower, same, placed⟩ := ih pushed
    refine ⟨by omega, fun a above => ?_, .cons ?_ ?_⟩
    · rw [same a (by omega), store_of_lt (by omega)]
    · have here := load_store m (down cursor (s.1.length + 1)).toNat (s.1 ++ [0])
      rw [length] at here
      refine ⟨?_, lower, by omega⟩
      rw [← here]
      exact load_congr fun a above _ => same a above
    · exact placed.imp fun va t placed => placed.mono (fun _ _ => rfl) le_rfl (by omega)

/-- The words of the table are read back, lie in the stack, and nothing else changed. -/
theorem writeWords_spec {words : List (BitVec 64)} {p : BitVec 64}
    (written : writeWords granted words p m = some after) :
    (∀ a, a < p.toNat ∨ p.toNat + 8 * words.length ≤ a → after a = m a) ∧
      readWords after p.toNat words.length = words ∧
      (words ≠ [] → userStackTop - userStackSize ≤ p.toNat ∧
        p.toNat + 8 * words.length ≤ userStackTop) := by
  induction words generalizing p m with
  | nil =>
    simp only [writeWords, some.injEq] at written
    subst written
    exact ⟨fun _ _ => rfl, rfl, fun none => absurd rfl none⟩
  | cons w rest ih =>
    simp only [writeWords, bind_eq_bind, bind_eq_some_iff] at written
    obtain ⟨middle, copied, written⟩ := written
    obtain ⟨_, above, fits, rfl⟩ := stackCopyToUser_eq copied
    have length : (wordBytes w).length = 8 := rfl
    rw [length] at fits
    have next : (p + 8).toNat = p.toNat + 8 := by
      unfold userStackTop at fits
      exact Nat.mod_eq_of_lt (by simp; omega)
    obtain ⟨same, read, inside⟩ := ih written
    rw [next] at same read inside
    refine ⟨fun a outside => ?_, ?_, fun _ => ?_⟩
    · rw [List.length_cons] at outside
      rw [same a (by omega), store_of_lt (by omega)]
    · rw [List.length_cons, readWords, read]
      congr 1
      apply readWord_of_load
      rw [← load_store m p.toNat (wordBytes w), length]
      exact load_congr fun a above below => same a (.inl (by omega))
    · refine ⟨above, ?_⟩
      rw [List.length_cons]
      by_cases none : rest = []
      · subst none
        simpa using fits
      · have := (inside none).2
        omega

/-- An aligned place for `n` bytes that fits lies below the cursor. -/
theorem alignDown16_down (fits : (alignDown16 (down cursor n)).toNat + n ≤ userStackTop) :
    (alignDown16 (down cursor n)).toNat + n ≤ cursor.toNat ∧
      (alignDown16 (down cursor n)).toNat % 16 = 0 := by
  have value : (alignDown16 (down cursor n)).toNat = (down cursor n).toNat / 16 * 16 := by
    exact Nat.mod_eq_of_lt (by omega)
  unfold userStackTop at fits
  have below : (down cursor n).toNat + n = cursor.toNat := toNat_down (by omega)
  omega

/-- From the stack pointer upwards stand the count, the addresses of the arguments and of the
environment, each list with a null behind it, and the auxiliary pairs. The strings, the platform
string and the sixteen random bytes are where the addresses say, above the table and below the
top. -/
theorem initial_stack_decodes {scratch : Bool} {random : Fin 16 → UInt8} {elf : LoadedElf}
    {argv envp : List CString} {sp : BitVec 64}
    (built : buildInitialStackArgs granted scratch random elf argv envp m = some (sp, after)) :
    sp.toNat % 16 = 0 ∧ userStackTop - userStackSize ≤ sp.toNat ∧
      ∃ argvAt envpAt platform randomAt words,
      words = table argvAt envpAt (auxiliary elf platform randomAt (argvAt.headD 0)) ∧
      readWords after sp.toNat words.length = words ∧
      List.Forall₂ (Placed after (sp.toNat + 8 * words.length) userStackTop) argvAt argv ∧
      List.Forall₂ (Placed after (sp.toNat + 8 * words.length) userStackTop) envpAt envp ∧
      Placed after (sp.toNat + 8 * words.length) userStackTop platform platformName ∧
      load after randomAt.toNat 16 = List.ofFn random ∧
      sp.toNat + 8 * words.length ≤ randomAt.toNat ∧ randomAt.toNat + 16 ≤ userStackTop := by
  unfold buildInitialStackArgs at built
  split at built
  · cases built
  simp only [bind_eq_bind, bind_eq_some_iff, pure_def, some.injEq,
    Prod.mk.injEq, Prod.exists] at built
  obtain ⟨argvAt, argvLow, afterArgv, pushedArgv, envpAt, envpLow, afterEnvp, pushedEnvp,
    _, platformCopied, _, randomCopied, after, written, rfl, rfl⟩ := built
  obtain ⟨argvInside, _, argvPlaced⟩ := pushStrings_placed pushedArgv
  obtain ⟨lower, envpSame, envpPlaced⟩ := pushStrings_placed pushedEnvp
  obtain ⟨_, _, platformFits, rfl⟩ := stackCopyToUser_eq platformCopied
  obtain ⟨_, randomInside, randomFits, rfl⟩ := stackCopyToUser_eq randomCopied
  obtain ⟨tableSame, read, tableFits⟩ := writeWords_spec written
  obtain ⟨inside, tableFits⟩ := tableFits (by simp [table])
  generalize is : table argvAt envpAt _ = words at *
  have platformLength : (platformName.1 ++ [0]).length = 8 := rfl
  have randomLength : (List.ofFn random).length = 16 := List.length_ofFn
  rw [platformLength] at platformFits
  rw [randomLength] at randomFits
  have belowEnvp := toNat_down (Nat.lt_of_le_of_lt platformFits userStackTop_lt)
  obtain ⟨belowPlatform, _⟩ := alignDown16_down randomFits
  obtain ⟨belowRandom, aligned⟩ := alignDown16_down tableFits
  generalize down envpLow 8 = platform at *
  generalize alignDown16 (down platform 16) = randomAt at *
  generalize alignDown16 (down randomAt _) = sp at *
  have same : ∀ a, envpLow.toNat ≤ a → after a = afterEnvp a := by
    intro a above
    rw [tableSame a (.inr (by omega)), store_of_lt (.inr (by omega)),
      store_of_lt (.inr (by omega))]
  refine ⟨aligned, inside, argvAt, envpAt, platform, randomAt, words, is.symm, read, ?_, ?_, ?_,
    ?_, belowRandom, randomFits⟩
  · refine argvPlaced.imp fun va s placed => placed.mono (fun a above => ?_) (by omega) le_rfl
    rw [same a (by omega), envpSame a above]
  · exact envpPlaced.imp fun va s placed => placed.mono same (by omega) argvInside
  · refine ⟨?_, by omega, ?_⟩
    · rw [← load_store afterEnvp platform.toNat (platformName.1 ++ [0])]
      refine load_congr fun a above _ => ?_
      rw [tableSame a (.inr (by omega)), store_of_lt (.inr (by omega))]
    · exact platformFits
  · rw [← load_store (store afterEnvp platform.toNat (platformName.1 ++ [0])) randomAt.toNat
      (List.ofFn random), randomLength]
    exact load_congr fun a above _ => tableSame a (.inr (by omega))

/-- A program with three arguments and two strings in its environment. -/
def severalStrings : Option (BitVec 64 × UserBytes) :=
  buildInitialStackArgs (fun _ _ => true) true (fun i => i.val.toUInt8)
    ⟨64, 56, 1, 0, 0, 0, 0, 0, 0⟩ [⟨[108, 115], by decide⟩, ⟨[], by decide⟩, ⟨[47], by decide⟩]
    [⟨[65, 61, 49], by decide⟩, ⟨[66, 61], by decide⟩] fun _ => 0

/-- Its stack is aligned and begins with the count of the arguments. -/
theorem initial_stack_decodes_several_strings :
    ∃ sp after, severalStrings = some (sp, after) ∧ sp.toNat % 16 = 0 ∧
      readWord after sp.toNat = 3 := by
  have enough : severalStrings.isSome = true := by decide +kernel
  obtain ⟨⟨sp, after⟩, built⟩ := isSome_iff_exists.mp enough
  obtain ⟨aligned, _, argvAt, envpAt, _, _, words, is, read, placed, _⟩ :=
    initial_stack_decodes built
  refine ⟨sp, after, built, aligned, ?_⟩
  subst is
  rw [(List.cons.inj read).1, placed.length_eq]
  rfl

end

end Spore.Exec
