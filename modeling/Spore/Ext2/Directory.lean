import Spore.Ext2.BlockCache

/-!
# Removing directories (`ext2.c`)

`ext2_unlink` looks at what `ext2_dirent` returns for index 0, 1 and so on, and keeps the
directory when a name is neither of the two dots. The comparison takes the length from the dots
and not from the name, and a block that cannot be read ends the directory. A block is read alike
each time. Path lookup, `remove_dirent` and `write_inode` are represented by what they return.
-/

namespace Spore.Ext2

open Volume List

/-- A directory inode with its blocks as `file_block` and `read_block` give them. -/
structure Directory where
  /-- Its inode. -/
  ino : Nat
  /-- Its size in bytes. -/
  size : Nat
  /-- A byte of a block; a block that is not allocated is zero. -/
  byte : Nat → Nat → UInt8
  /-- Which blocks can be read. -/
  readable : Nat → Bool

/-- The directory on a device that reads every block. -/
def Directory.whole (dir : Directory) : Directory := { dir with readable := fun _ => true }

/-- A record of a directory. -/
structure Record where
  /-- The inode it names. -/
  ino : Nat
  /-- Its length in bytes. -/
  recLen : Nat
  /-- The kind of the inode. -/
  type : UInt8
  /-- The name. -/
  name : List UInt8
  deriving DecidableEq

/-- The record at an offset of the directory. -/
def Directory.record (dir : Directory) (blockSize off : Nat) : Record :=
  let byte i := dir.byte (off / blockSize) (off % blockSize + i)
  { ino := (byte 0).toNat + 2 ^ 8 * (byte 1).toNat + 2 ^ 16 * (byte 2).toNat +
      2 ^ 24 * (byte 3).toNat
    recLen := (byte 4).toNat + 2 ^ 8 * (byte 5).toNat
    type := byte 7
    name := (List.range (byte 6).toNat).map fun i => byte (8 + i) }

/-- The byte `.`. -/
def dot : UInt8 := 46

/-- The record is in use and names something other than the directory and its parent. -/
def Record.Entry (r : Record) : Prop :=
  r.ino ≠ 0 ∧ r.name ≠ [] ∧ r.name.length + 8 ≤ r.recLen ∧ r.name ≠ [dot] ∧ r.name ≠ [dot, dot]
  deriving Decidable

/-- `ext2plus_hidden_name`, with `EXT2_ROOT_INO`. -/
def hiddenName (ext2plus : Bool) (dir : Directory) (r : Record) : Bool :=
  ext2plus && dir.ino == 2 &&
    r.name == ".spore-inodes".toList.map fun letter => letter.toNat.toUInt8

/-- `name_equals`: only `aLen` bytes of the first name are compared. -/
def nameEquals (a : List UInt8) (aLen : Nat) (b : List UInt8) : Bool :=
  b.length == aLen && a.take aLen == b

namespace Volume

/-- No volume has empty blocks. -/
theorem blockSize_pos (vol : Volume) : 0 < vol.blockSize := by
  rcases vol.sizes with size | size | size <;> omega

section

variable (vol : Volume) (ext2plus : Bool) (dir : Directory)

/-- The records that the loop of `ext2_next_dirent` passes from an offset on, each with the
offset after it. -/
def records (off : Nat) : List (Record × Nat) :=
  if off + 8 ≤ dir.size then
    if vol.blockSize < off % vol.blockSize + 8 then
      records (off + (vol.blockSize - off % vol.blockSize))
    else if dir.readable (off / vol.blockSize) = false then []
    else if (dir.record vol.blockSize off).recLen < 8 ∨
        vol.blockSize < off % vol.blockSize + (dir.record vol.blockSize off).recLen ∨
        dir.size < off + (dir.record vol.blockSize off).recLen then []
    else (dir.record vol.blockSize off, off + (dir.record vol.blockSize off).recLen) ::
      records (off + (dir.record vol.blockSize off).recLen)
  else []
  termination_by dir.size - off
  decreasing_by
  · have := Nat.mod_lt off vol.blockSize_pos
    omega
  · omega

/-- The live entries other than the two dots. -/
def entries (off : Nat) : List (Record × Nat) := (vol.records dir off).filter (·.1.Entry)

/-- The records that `ext2_next_dirent` stops at. -/
def wanted (found : Record × Nat) : Bool := found.1.Entry && !hiddenName ext2plus dir found.1

/-- The record at the offset, and the next offset. -/
def ext2NextDirent (off : Nat) : Option (Record × Nat) :=
  (vol.records dir off).find? (wanted ext2plus dir)

/-- `ext2_dirent` from a cursor on. -/
def ext2Dirent : Nat → Nat → Option Record
  | 0, cursor => (vol.ext2NextDirent ext2plus dir cursor).map Prod.fst
  | index + 1, cursor => (vol.ext2NextDirent ext2plus dir cursor).bind fun found =>
    ext2Dirent index found.2

/-- The loop of `ext2_unlink` from an index on; `fuel` bounds the rounds. -/
def onlyDots : Nat → Nat → Bool
  | 0, _ => true
  | fuel + 1, index =>
    match vol.ext2Dirent ext2plus dir index 0 with
    | none => true
    | some r => (nameEquals r.name 1 [dot] || nameEquals r.name 2 [dot, dot]) &&
      onlyDots fuel (index + 1)

end

end Volume

/-- What a path names. -/
inductive Node where
  | file (ino links : Nat)
  | dir (contents : Directory)

/-- What `ext2_unlink` does to the volume. -/
inductive Effect where
  | removeDirent
  | writeInode (ino : Nat)
  | truncate (ino : Nat)
  | freeInode (ino : Nat)
  deriving DecidableEq

/-- `ext2_unlink` of what the path names in the directory with inode `parent`. The loop makes
fewer rounds than the directory has bytes. -/
def Volume.ext2Unlink (vol : Volume) (ext2plus : Bool) (parent : Nat) (removed written : Bool) :
    Option Node → Bool × List Effect
  | none => (false, [])
  | some (.file ino links) =>
    if removed = false then (false, [.removeDirent])
    else if 1 < links then (written, [.removeDirent, .writeInode ino])
    else (true, [.removeDirent, .truncate ino, .freeInode ino])
  | some (.dir dir) =>
    if vol.onlyDots ext2plus dir dir.size 0 = false then (false, [])
    else if removed = false then (false, [.removeDirent])
    else (true, [.removeDirent, .truncate dir.ino, .writeInode parent, .freeInode dir.ino])

/-! ## What the loop sees -/

section

variable {vol : Volume} {ext2plus : Bool} {dir : Directory}

namespace Volume

/-- After the first record that is wanted come the others. -/
theorem records_after {wanted : Record × Nat → Bool} {off : Nat} {found : Record × Nat}
    (first : (vol.records dir off).find? wanted = some found) :
    (vol.records dir off).filter wanted = found :: (vol.records dir found.2).filter wanted := by
  fun_induction records vol dir off with
  | case1 _ _ _ ih => exact ih first
  | case4 _ _ _ _ _ ih =>
    rw [find?_cons] at first
    rw [filter_cons]
    split at first
    · rename_i yes
      cases first
      rw [if_pos yes]
    · rename_i no
      rw [if_neg (by simp [no])]
      exact ih first
  | _ => cases first

/-- There are no more records than bytes. -/
theorem length_records (off : Nat) : (vol.records dir off).length ≤ dir.size - off := by
  fun_induction records vol dir off with
  | case1 _ _ _ ih => omega
  | case4 _ _ _ _ _ ih =>
    rw [length_cons]
    omega
  | _ => exact Nat.zero_le _

/-- A directory read by index is the list of its wanted records. -/
theorem ext2Dirent_eq (index off : Nat) :
    vol.ext2Dirent ext2plus dir index off =
      (((vol.records dir off).filter (wanted ext2plus dir))[index]?).map Prod.fst := by
  induction index generalizing off with
  | zero =>
    rw [ext2Dirent, ext2NextDirent, ← head?_eq_getElem?, head?_filter]
  | succ index ih =>
    rw [ext2Dirent, ext2NextDirent]
    cases first : (vol.records dir off).find? (wanted ext2plus dir) with
    | none =>
      have none : (vol.records dir off).filter (wanted ext2plus dir) = [] := by
        rw [← head?_eq_none_iff, head?_filter, first]
      rw [none]
      rfl
    | some found =>
      rw [records_after first, getElem?_cons_succ]
      exact ih found.2

/-- Both comparisons together say that the name begins with a dot. -/
theorem dots_iff (name : List UInt8) :
    (nameEquals name 1 [dot] || nameEquals name 2 [dot, dot]) ↔ name.head? = some dot := by
  rcases name with _ | ⟨a, _ | ⟨b, rest⟩⟩ <;> simp [nameEquals]
  rintro rfl rfl
  rfl

/-- The test goes through all records. -/
theorem onlyDots_iff {seen : List Record} (fuel index : Nat)
    (is : ∀ i, vol.ext2Dirent ext2plus dir (index + i) 0 = seen[i]?) (enough : seen.length ≤ fuel) :
    vol.onlyDots ext2plus dir fuel index ↔ ∀ r ∈ seen, r.name.head? = some dot := by
  induction fuel generalizing index seen with
  | zero => simp_all [onlyDots]
  | succ fuel ih =>
    have first := is 0
    rw [Nat.add_zero] at first
    rw [onlyDots, first]
    cases seen with
    | nil => simp
    | cons r rest =>
      have later : ∀ i, vol.ext2Dirent ext2plus dir (index + 1 + i) 0 = rest[i]? := by
        intro i
        rw [Nat.add_assoc, Nat.add_comm 1 i, is (i + 1), getElem?_cons_succ]
      rw [forall_mem_cons, ← ih (index + 1) later (by simpa using enough), ← dots_iff]
      simp

end Volume

/-- A directory is given up when every entry that is read begins with a dot. -/
theorem onlyDots_entries :
    vol.onlyDots ext2plus dir dir.size 0 ↔
      ∀ found ∈ vol.entries dir 0, found.1.name.head? = some dot := by
  have short : (((vol.records dir 0).filter (wanted ext2plus dir)).map Prod.fst).length ≤
      dir.size := by
    rw [length_map]
    exact Nat.le_trans (length_filter_le _ _) (length_records 0)
  have is : ∀ i, vol.ext2Dirent ext2plus dir (0 + i) 0 =
      (((vol.records dir 0).filter (wanted ext2plus dir)).map Prod.fst)[i]? := by
    intro i
    rw [Nat.zero_add, ext2Dirent_eq, getElem?_map]
  rw [onlyDots_iff _ 0 is short, forall_mem_map]
  simp only [mem_filter, entries, wanted, Bool.and_eq_true, decide_eq_true_eq]
  constructor
  · rintro seen found ⟨read, entry⟩
    by_cases hidden : hiddenName ext2plus dir found.1
    · simp only [hiddenName, Bool.and_eq_true, beq_iff_eq] at hidden
      rw [hidden.2]
      rfl
    · exact seen found ⟨read, entry, by simpa using hidden⟩
  · exact fun all found seen => all found ⟨seen.1, seen.2.1⟩

/-- `ext2_unlink` removes no directory that holds an entry exactly when the directory holds
none, or one whose name does not begin with a dot is read before the first block that is not. -/
theorem unlink_only_empty_iff (vol : Volume) (ext2plus : Bool) (parent : Nat) (dir : Directory) :
    (∀ removed written,
      (vol.ext2Unlink ext2plus parent removed written (some (.dir dir))).1 = true →
        vol.entries dir.whole 0 = []) ↔
    vol.entries dir.whole 0 = [] ∨ ∃ found ∈ vol.entries dir 0, found.1.name.head? ≠ some dot := by
  constructor
  · intro sound
    by_contra neither
    push Not at neither
    refine neither.1 (sound true true ?_)
    rw [ext2Unlink, onlyDots_entries.mpr neither.2]
    rfl
  · rintro (empty | ⟨found, read, other⟩) removed written accepted
    · exact empty
    rw [ext2Unlink] at accepted
    split at accepted
    · cases accepted
    · rename_i passed
      have all := onlyDots_entries.mp (by simpa using passed)
      exact absurd (all found read) other

/-- Inode 12, a directory below the root, with a file `.a` that has inode 13. -/
def dotFiles : Directory where
  ino := 12
  size := 1024
  byte _ i := [12, 0, 0, 0, 12, 0, 1, 2, 46, 0, 0, 0, 2, 0, 0, 0, 12, 0, 2, 2, 46, 46, 0, 0,
    13, 0, 0, 0, 232, 3, 2, 1, 46, 97].getD i 0
  readable _ := true

/-- The directory is removed, and the file in it stays allocated. -/
theorem unlink_loses_dot_file :
    smallVolume.ext2Unlink false 2 true true (some (.dir dotFiles)) =
      (true, [.removeDirent, .truncate 12, .writeInode 2, .freeInode 12]) ∧
    ∃ found ∈ smallVolume.entries dotFiles.whole 0, found.1.ino = 13 := by
  have last : smallVolume.records dotFiles 1024 = [] := by
    rw [records]
    rfl
  have third : smallVolume.records dotFiles 24 = [(⟨13, 1000, 1, [dot, 97]⟩, 1024)] := by
    rw [records, ← last]
    rfl
  have second : smallVolume.records dotFiles 12 =
      (⟨2, 12, 2, [dot, dot]⟩, 24) :: smallVolume.records dotFiles 24 := by
    rw [records]
    rfl
  have first : smallVolume.records dotFiles 0 =
      (⟨12, 12, 2, [dot]⟩, 12) :: smallVolume.records dotFiles 12 := by
    rw [records]
    rfl
  have held : smallVolume.entries dotFiles 0 = [(⟨13, 1000, 1, [dot, 97]⟩, 1024)] := by
    rw [entries, first, second, third]
    decide
  refine ⟨?_, _, held ▸ mem_singleton_self _, rfl⟩
  rw [ext2Unlink, onlyDots_entries.mpr (by simp [held])]
  rfl

end

end Spore.Ext2
