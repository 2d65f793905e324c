import Spore.Ramfs.Pages
import Spore.Ramfs.TreeInvariant

/-!
# The contents of files as byte arrays

`FileBytes` is what a file is for: a size and a byte at each position, zero beyond the size.
Every call of the memory file system has its effect on the arrays of the files, which are
named by inode number, and `Holds` says that the tables show those arrays.
-/

namespace Spore.Ramfs

open Function Spore.Lib List Option

variable {size x fuel : Nat}

/-- The contents of a file. -/
structure FileBytes where
  /-- The number of bytes. -/
  size : Nat
  /-- The bytes, zero beyond. -/
  byte : Nat → UInt8

namespace FileBytes

/-- A new file. -/
def empty : FileBytes := ⟨0, fun _ => 0⟩

/-- Bytes stored at a position; the file ends no earlier than they do. -/
def write (file : FileBytes) (off : Nat) (src : List UInt8) : FileBytes :=
  ⟨max file.size (off + src.length),
    fun k => if off ≤ k ∧ k < off + src.length then src.getD (k - off) 0 else file.byte k⟩

/-- A new size: what lies beyond is gone. -/
def truncate (file : FileBytes) (size : Nat) : FileBytes :=
  ⟨size, fun k => if k < size then file.byte k else 0⟩

/-- The bytes of a range, up to the end of the file. -/
def read (file : FileBytes) (off len : Nat) : List UInt8 :=
  (List.range (min (file.size - off) len)).map fun k => file.byte (off + k)

/-- Nothing is stored beyond the size. -/
def Trim (file : FileBytes) : Prop := ∀ k, file.size ≤ k → file.byte k = 0

/-- The empty array. -/
theorem trim_empty : empty.Trim := fun _ _ => rfl

/-- A write stores nothing beyond the new size. -/
theorem Trim.write {file : FileBytes} (trim : file.Trim) (off : Nat) (src : List UInt8) :
    (file.write off src).Trim := by
  intro k beyond
  have outside : ¬ (off ≤ k ∧ k < off + src.length) := by
    simp only [FileBytes.write] at beyond
    omega
  simp only [FileBytes.write, if_neg outside] at beyond ⊢
  exact trim k (by omega)

/-- A truncation clears what is beyond the size. -/
theorem trim_truncate (file : FileBytes) : (file.truncate size).Trim := by
  intro k beyond
  have outside : ¬ k < size := by
    simp only [truncate] at beyond
    omega
  simp only [truncate, if_neg outside]

end FileBytes

/-- The fields of a node that its contents depend on. -/
def MemNode.info (node : MemNode) : Nat × Nat × Bool × List UInt8 :=
  (node.ino, node.size, node.writable, node.roData)

/-- The fields one by one. -/
theorem MemNode.info_eq {a b : MemNode} (same : a.info = b.info) :
    a.ino = b.ino ∧ a.size = b.size ∧ a.writable = b.writable ∧ a.roData = b.roData := by
  simpa only [info, Prod.mk.injEq] using same

namespace Fs

variable {fs after sized : Fs} {i src dst off : Nat} {file : FileBytes} {told : Prop}
  {files : Nat → FileBytes} {gap : Option Nat} {change : MemNode → MemNode}

/-! ## Tables that show the contents -/

/-- The node shows the contents: through its pages, or through the text it points at. -/
structure Shows (fs : Fs) (i : Nat) (file : FileBytes) : Prop where
  /-- The size is that of the node. -/
  size : file.size = (fs.node i).size
  /-- A writable file has its pages. -/
  bytes : (fs.node i).writable = true → (fs.node i).size ≤ maxFileSize ∧
    ∀ {x}, x < reach → fs.byteAt i x = file.byte x
  /-- Any other file has its text. -/
  text : (fs.node i).writable = false → (fs.node i).roData.length = (fs.node i).size ∧
    ∀ x, (fs.node i).roData.getD x 0 = file.byte x

/-- The tables are in order and, where `told`, they show the contents of every file but one:
`files` gives the array of each inode number. A torn write ends the showing but not the order. -/
structure HoldsBut (fs : Fs) (told : Prop) (files : Nat → FileBytes) (gap : Option Nat) :
    Prop where
  /-- The slots are on the chains of the files and on the free chain. -/
  stored : fs.Stored
  /-- Every inode number in use was given out. -/
  known : ∀ {i}, (fs.node i).used = true → (fs.node i).ino < fs.nextIno
  /-- No two nodes have one inode number. -/
  one : ∀ {i j}, (fs.node i).used = true → (fs.node j).used = true →
    (fs.node i).ino = (fs.node j).ino → i = j
  /-- A number that was not given out has no contents. -/
  unborn : ∀ {ino}, fs.nextIno ≤ ino → files ino = .empty
  /-- Every array is zero beyond its size. -/
  trim : ∀ ino, (files ino).Trim
  /-- A node in use shows the array of its number. -/
  shows : told → ∀ {i}, gap ≠ some i → (fs.node i).used = true →
    fs.Shows i (files (fs.node i).ino)

/-- The tables are in order and, where `told`, show the contents of every file. -/
def Holds (fs : Fs) (told : Prop) (files : Nat → FileBytes) : Prop := fs.HoldsBut told files none

/-- A plain file is in use. -/
theorem used_of_plainFile (plain : fs.plainFile i) : (fs.node i).used := by
  simp only [plainFile, Bool.and_eq_true] at plain
  exact plain.1.1

/-- `ramfs_read` returns the bytes of the array. -/
theorem Shows.read (shows : fs.Shows i file) (plain : fs.plainFile i) (off len : Nat) :
    fs.ramfsRead i off len = file.read off len := by
  unfold ramfsRead FileBytes.read
  rw [shows.size]
  by_cases beyond : (fs.node i).size ≤ off
  · have none_left : (fs.node i).size - off = 0 := by omega
    simp [plain, beyond, none_left]
  simp only [plain, beyond, Bool.not_true, decide_false, Bool.or_false, Bool.false_eq_true,
    if_false]
  cases writable : (fs.node i).writable with
  | true =>
    obtain ⟨small, bytes⟩ := shows.bytes writable
    refine map_congr_left fun k inside => ?_
    have low := mem_range.mp inside
    apply bytes
    unfold maxFileSize at small
    unfold reach
    omega
  | false =>
    obtain ⟨length, text⟩ := shows.text writable
    simp only [Bool.not_false, if_true]
    apply ext_getElem?
    intro k
    rw [getElem?_take, getElem?_drop, getElem?_map]
    by_cases low : k < min ((fs.node i).size - off) len
    · have inside : off + k < (fs.node i).roData.length := by omega
      have byte := text (off + k)
      rw [getD_eq_getElem?_getD, getElem?_eq_getElem inside] at byte
      rw [if_pos low, getElem?_range low, getElem?_eq_getElem inside]
      exact congrArg some byte
    · rw [if_neg low, getElem?_eq_none (by rw [length_range]; omega)]
      rfl

/-- The node shows the same with the same fields and bytes. -/
theorem Shows.congr (shows : fs.Shows i file) (info : (after.node i).info = (fs.node i).info)
    (bytes : ∀ x, x < reach → after.byteAt i x = fs.byteAt i x) : after.Shows i file := by
  replace info := MemNode.info_eq info
  refine ⟨by rw [info.2.1]; exact shows.size, fun writable => ?_, fun writable => ?_⟩
  · rw [info.2.2.1] at writable
    rw [info.2.1]
    refine ⟨(shows.bytes writable).1, fun {x} near => ?_⟩
    rw [bytes x near]
    exact (shows.bytes writable).2 near
  · rw [info.2.2.1] at writable
    rw [info.2.1, info.2.2.2]
    exact shows.text writable

/-- The nodes that are left show what they showed. -/
theorem HoldsBut.same (holds : fs.HoldsBut told files gap) (stored : after.Stored)
    (nextIno : after.nextIno = fs.nextIno)
    (nodes : ∀ i, (after.node i).used →
      (fs.node i).used ∧ (after.node i).ino = (fs.node i).ino)
    (contents : told → ∀ i, gap ≠ some i → (after.node i).used →
      (after.node i).info = (fs.node i).info ∧
        ∀ x, x < reach → after.byteAt i x = fs.byteAt i x) : after.HoldsBut told files gap := by
  refine ⟨stored, fun {i} used => ?_, fun {i j} usedI usedJ same => ?_, fun {ino} beyond => ?_,
    holds.trim, fun tells {i} apart used => ?_⟩
  · rw [(nodes i used).2, nextIno]
    exact holds.known (nodes i used).1
  · rw [(nodes i usedI).2, (nodes j usedJ).2] at same
    exact holds.one (nodes i usedI).1 (nodes j usedJ).1 same
  · exact holds.unborn (nextIno ▸ beyond)
  · rw [(nodes i used).2]
    exact (holds.shows tells apart (nodes i used).1).congr (contents tells i apart used).1
      (contents tells i apart used).2

/-- The fields that contents depend on are among those that stay. -/
theorem SameNodes.info (same : fs.SameNodes after) (j : Nat) :
    (after.node j).info = (fs.node j).info := by
  have fields := congrArg MemNode.info (same.nodes j)
  exact fields

/-- The nodes are the same and so are the bytes of every file but one. -/
theorem HoldsBut.sameNodes (holds : fs.HoldsBut told files gap) (stored : after.Stored)
    (same : fs.SameNodes after)
    (bytes : told → ∀ i, gap ≠ some i → (fs.node i).used → ∀ x, x < reach →
      after.byteAt i x = fs.byteAt i x) : after.HoldsBut told files gap := by
  refine holds.same stored same.nextIno (fun j used => ?_)
    fun tells j apart used => ⟨same.info j, ?_⟩
  · rw [same.used] at used
    exact ⟨used, congrArg Prod.fst (same.info j)⟩
  · rw [same.used] at used
    exact bytes tells j apart used

/-- One file is taken out of the account. -/
theorem Holds.but (holds : fs.Holds told files) (i : Nat) : fs.HoldsBut told files (some i) :=
  ⟨holds.stored, holds.known, holds.one, holds.unborn, holds.trim,
    fun tells {j} _ used => holds.shows tells (some_ne_none j).symm used⟩

section

variable (holds : fs.HoldsBut told files (some i))

include holds

/-- The missing file shows new contents. -/
theorem HoldsBut.complete (used : (fs.node i).used) (trim : file.Trim)
    (shows : told → fs.Shows i file) : fs.Holds told (update files (fs.node i).ino file) := by
  refine ⟨holds.stored, holds.known, holds.one, fun {ino} beyond => ?_, fun ino => ?_,
    fun tells {j} _ usedJ => ?_⟩
  · have apart : ino ≠ (fs.node i).ino := by
      have known := holds.known used
      omega
    rw [update_of_ne apart]
    exact holds.unborn beyond
  · by_cases here : ino = (fs.node i).ino
    · rw [here, update_self]
      exact trim
    · rw [update_of_ne here]
      exact holds.trim ino
  · by_cases here : j = i
    · rw [here, update_self]
      exact shows tells
    · have apart : (fs.node j).ino ≠ (fs.node i).ino := fun same => here (holds.one usedJ used same)
      rw [update_of_ne apart]
      exact holds.shows tells (fun same => here (some.inj same).symm) usedJ

/-- The missing file shows what it should. -/
theorem HoldsBut.restore (used : (fs.node i).used)
    (shows : told → fs.Shows i (files (fs.node i).ino)) : fs.Holds told files := by
  have whole := holds.complete used (holds.trim _) shows
  rwa [update_eq_self] at whole

/-- The missing file is gone. -/
theorem HoldsBut.gone (unused : (fs.node i).used = false) : fs.Holds told files := by
  refine ⟨holds.stored, holds.known, holds.one, holds.unborn, holds.trim,
    fun tells {j} _ used => ?_⟩
  refine holds.shows tells (fun same => ?_) used
  rw [← some.inj same, unused] at used
  cases used

end

/-! ## Changes of nodes -/

/-- The walk reads the slots only. -/
theorem findPageFrom_congr (same : after.backing = fs.backing) (filePage fuel : Nat) :
    ∀ start, after.findPageFrom filePage fuel start = fs.findPageFrom filePage fuel start := by
  have slots : ∀ s, after.slot s = fs.slot s := fun s => by rw [slot, slot, same]
  induction fuel with
  | zero => exact fun _ => rfl
  | succ fuel ih =>
    intro start
    cases start with
    | none => rfl
    | some s => rw [findPageFrom, findPageFrom, slots, ih]

/-- A byte depends on the slots and on the head of the chain. -/
theorem byteAt_congr (same : after.backing = fs.backing)
    (head : (after.node i).firstPage = (fs.node i).firstPage) :
    after.byteAt i x = fs.byteAt i x := by
  have found : after.findBackingPage i (pageNumber x) = fs.findBackingPage i (pageNumber x) := by
    unfold findBackingPage
    rw [head, same]
    exact findPageFrom_congr same ..
  unfold byteAt
  rw [found]
  cases fs.findBackingPage i (pageNumber x) with
  | none => rfl
  | some s =>
    show (after.slot s).data _ = (fs.slot s).data _
    rw [slot, slot, same]

/-- A change of one node that leaves its use, its number and its chain alone. -/
theorem HoldsBut.setNode (holds : fs.HoldsBut told files gap) (i : Nat)
    (used : (change (fs.node i)).used = (fs.node i).used)
    (head : (change (fs.node i)).firstPage = (fs.node i).firstPage)
    (ino : (change (fs.node i)).ino = (fs.node i).ino)
    (info : told → gap ≠ some i → (change (fs.node i)).info = (fs.node i).info) :
    (fs.setNode i change).HoldsBut told files gap := by
  have same : ∀ j, ((fs.setNode i change).node j).used = (fs.node j).used ∧
      ((fs.setNode i change).node j).firstPage = (fs.node j).firstPage ∧
      ((fs.setNode i change).node j).ino = (fs.node j).ino ∧
      (told → gap ≠ some j → ((fs.setNode i change).node j).info = (fs.node j).info) := by
    intro j
    rw [node_setNode]
    split
    · rename_i here
      rw [here.1]
      exact ⟨used, head, ino, info⟩
    · exact ⟨rfl, rfl, rfl, fun _ _ => rfl⟩
  obtain ⟨chains, free, filed, listed⟩ := holds.stored
  have filed' : (fs.setNode i change).Filed chains := by
    refine filed.congr (fun j usedJ => ?_) fun _ _ _ _ => rfl
    rw [(same j).1] at usedJ
    exact ⟨usedJ, (same j).2.1⟩
  refine holds.same ⟨chains, free, filed', listed.setNode i _⟩ rfl (fun j usedJ => ?_)
    fun tells j apart usedJ => ⟨(same j).2.2.2 tells apart, fun x _ => ?_⟩
  · rw [(same j).1] at usedJ
    exact ⟨usedJ, (same j).2.2.1⟩
  · have unmoved : (fs.setNode i change).backing = fs.backing := rfl
    exact byteAt_congr unmoved (same j).2.1

/-- A change of one node that leaves its contents alone as well. -/
theorem Holds.setNode (holds : fs.Holds told files) (i : Nat)
    (used : (change (fs.node i)).used = (fs.node i).used)
    (head : (change (fs.node i)).firstPage = (fs.node i).firstPage)
    (info : (change (fs.node i)).info = (fs.node i).info) :
    (fs.setNode i change).Holds told files :=
  HoldsBut.setNode holds i used head (congrArg Prod.fst info) fun _ _ => info

/-- A node that is released. -/
theorem HoldsBut.freeNode (holds : fs.HoldsBut told files (some i)) (used : (fs.node i).used) :
    (fs.freeNode i).Holds told files := by
  have releases := holds.stored.freeNode used
  have left : ∀ j, ((fs.freeNode i).node j).used → j ≠ i := by
    rintro j usedJ rfl
    rw [releases.gone] at usedJ
    cases usedJ
  have unused : ((fs.freeNode i).node i).used = false := by
    rw [releases.gone]
    rfl
  refine .gone (holds.same releases.stored releases.nextIno (fun j usedJ => ?_)
    fun _ j _ usedJ => ?_) unused
  · have same := releases.others j (left j usedJ)
    rw [same] at usedJ ⊢
    exact ⟨usedJ, rfl⟩
  · have apart := left j usedJ
    rw [releases.others j apart] at usedJ ⊢
    refine ⟨rfl, fun x _ => ?_⟩
    rw [byteAt_eq, byteAt_eq, releases.data apart usedJ]

/-- A name is dropped: the file stays, or goes with its node. -/
theorem Holds.dropName (holds : fs.Holds told files) (used : (fs.node i).used) :
    (fs.dropName i).Holds told files := by
  unfold Fs.dropName
  split
  · exact holds.setNode i rfl rfl rfl
  · exact (holds.but i).freeNode used

/-! ## New nodes -/

/-- A file without pages is zero. -/
theorem byteAt_of_headless (head : (fs.node i).firstPage = none) : fs.byteAt i x = 0 := by
  have missing : fs.findBackingPage i (pageNumber x) = none := by
    unfold findBackingPage
    rw [head]
    rfl
  unfold byteAt
  rw [missing]

/-- A node without pages and bytes, as `add_node` leaves it. -/
structure Blank (fs : Fs) (i : Nat) : Prop where
  /-- The node is used. -/
  used : (fs.node i).used = true
  /-- It is empty. -/
  size : (fs.node i).size = 0
  /-- It has no page. -/
  head : (fs.node i).firstPage = none
  /-- It has no text. -/
  roData : (fs.node i).roData = []

/-- An empty node shows the empty array. -/
theorem Blank.shows (blank : fs.Blank i) : fs.Shows i .empty := by
  refine ⟨blank.size.symm, fun _ => ⟨?_, fun _ => byteAt_of_headless blank.head⟩, fun _ => ?_⟩
  · rw [blank.size]
    exact Nat.zero_le _
  · rw [blank.roData, blank.size]
    exact ⟨rfl, fun _ => rfl⟩

/-- A node that is taken starts with an empty chain. -/
theorem Stored.takeNode (stored : fs.Stored) (inside : i < fs.nodes.length) :
    (fs.takeNode i).Stored := by
  obtain ⟨chains, free, filed, listed⟩ := stored
  have nodes := node_takeNode inside
  refine ⟨update chains i [], free, ⟨fun {j} used => ?_, fun {j} used {s} member => ?_,
    fun {j} used => ?_⟩, listed.congr rfl rfl rfl (fun _ _ => rfl) fun _ => rfl⟩
  all_goals
    rw [nodes] at used
    by_cases here : j = i
  · subst here
    rw [update_self, nodes, if_pos rfl]
    rfl
  · rw [if_neg here] at used
    rw [update_of_ne here, nodes, if_neg here]
    exact filed.chain used
  · subst here
    rw [update_self] at member
    cases member
  · rw [if_neg here] at used
    rw [update_of_ne here] at member
    exact filed.owned used member
  · subst here
    rw [update_self]
    exact nodup_nil
  · rw [if_neg here] at used
    rw [update_of_ne here]
    exact filed.distinct used

/-- The node `alloc_node` hands out is an empty file with a new number. -/
theorem Holds.takeNode (holds : fs.Holds told files) (inside : i < fs.nodes.length) :
    (fs.takeNode i).Holds told files ∧ (fs.takeNode i).Blank i ∧
      ((fs.takeNode i).node i).ino = fs.nextIno := by
  have nodes := node_takeNode inside
  have self : (fs.takeNode i).node i = .fresh fs.nextIno := by rw [nodes, if_pos rfl]
  have others : ∀ {j}, j ≠ i → (fs.takeNode i).node j = fs.node j :=
    fun apart => by rw [nodes, if_neg apart]
  have blank : (fs.takeNode i).Blank i := by
    constructor <;> rw [self] <;> rfl
  have known : ∀ {j}, j ≠ i → ((fs.takeNode i).node j).used →
      ((fs.takeNode i).node j).ino < fs.nextIno := by
    intro j apart used
    rw [others apart] at used ⊢
    exact holds.known used
  have number : ((fs.takeNode i).node i).ino = fs.nextIno := by rw [self]; rfl
  refine ⟨⟨holds.stored.takeNode inside, fun {j} used => ?_, fun {j k} usedJ usedK same => ?_,
    fun {ino} beyond => holds.unborn (Nat.le_of_succ_le beyond), holds.trim,
    fun tells {j} _ used => ?_⟩, blank, number⟩
  · show _ < fs.nextIno + 1
    by_cases here : j = i
    · rw [here, number]
      exact Nat.lt_succ_self _
    · exact Nat.lt_succ_of_lt (known here used)
  · by_cases hereJ : j = i <;> by_cases hereK : k = i
    · rw [hereJ, hereK]
    · have below := known hereK usedK
      rw [hereJ, number] at same
      omega
    · have below := known hereJ usedJ
      rw [hereK, number] at same
      omega
    · rw [others hereJ] at usedJ same
      rw [others hereK] at usedK same
      exact holds.one usedJ usedK same
  · by_cases here : j = i
    · rw [here, number, holds.unborn (Nat.le_refl _)]
      exact blank.shows
    have unmoved : (fs.takeNode i).backing = fs.backing := rfl
    have same := others here
    rw [same] at used ⊢
    exact (holds.shows tells (some_ne_none j).symm used).congr (by rw [same])
      fun x _ => byteAt_congr unmoved (by rw [same])

/-- What `add_node` makes: an empty file with a new number, the contents of the others as
before. -/
structure Adding (before after : Fs) (told : Prop) (files : Nat → FileBytes)
    (result : Option Nat) (writable : Bool) : Prop where
  /-- The contents stay. -/
  holds : after.Holds told files
  /-- The new node is blank. -/
  added : ∀ {i}, result = some i → after.Blank i ∧ (after.node i).ino = before.nextIno ∧
    (after.node i).writable = writable ∧ (before.node i).used = false
  /-- Old nodes stay. -/
  stays : ∀ {j}, (before.node j).used = true →
    (after.node j).used = true ∧ (after.node j).info = (before.node j).info
  /-- No other node is new. -/
  old : ∀ {j}, (after.node j).used = true → result = some j ∨ (before.node j).used = true

section

variable (holds : fs.Holds told files)

include holds

/-- `add_node`, with each of its failures. -/
theorem Holds.addNode (parent : Option Nat) (name : List Char) (isDir writable : Bool) :
    fs.Adding (fs.addNode parent name isDir writable).2 told files
      (fs.addNode parent name isDir writable).1 writable := by
  have nothing : fs.Adding fs told files none writable :=
    ⟨holds, (by simp), fun used => ⟨used, rfl⟩, .inr⟩
  unfold Fs.addNode
  cases parent with
  | none => exact nothing
  | some parent =>
    dsimp only
    split
    · exact nothing
    rcases allocNode_cases fs with full | ⟨index, inside, unused, taken⟩
    · rw [full]
      exact nothing
    rw [taken]
    dsimp only
    obtain ⟨holds', blank, number⟩ := holds.takeNode inside
    have apart : ∀ {j}, (fs.node j).used → j ≠ index := by
      rintro j used rfl
      rw [used] at unused
      cases unused
    have others : ∀ {j}, (fs.node j).used → (fs.takeNode index).node j = fs.node j := by
      intro j used
      rw [node_takeNode inside, if_neg (apart used)]
    split
    · have releases := holds'.stored.freeNode blank.used
      refine ⟨(holds'.but index).freeNode blank.used, (by simp),
        fun {j} used => ?_, fun {j} used => ?_⟩
      · rw [releases.others j (apart used), others used]
        exact ⟨used, rfl⟩
      by_cases here : j = index
      · rw [here, releases.gone] at used
        cases used
      · rw [releases.others j here, node_takeNode inside, if_neg here] at used
        exact .inr used
    have seen := node_setNode (fs.takeNode index) index fun node =>
      node.named parent name isDir writable ((fs.takeNode index).node parent).mount
    have but : ((fs.takeNode index).setNode index fun node =>
        node.named parent name isDir writable
          ((fs.takeNode index).node parent).mount).HoldsBut told files (some index) :=
      (holds'.but index).setNode index rfl rfl rfl fun _ same => absurd rfl same
    generalize ((fs.takeNode index).setNode index fun node => node.named parent name isDir writable
      ((fs.takeNode index).node parent).mount) = after at seen but ⊢
    have here := seen index
    rw [if_pos ⟨rfl, lt_of_used blank.used⟩] at here
    have named : after.Blank index := by
      constructor <;> rw [here]
      · exact blank.used
      · exact blank.size
      · exact blank.head
      · exact blank.roData
    have numbered : (after.node index).ino = fs.nextIno := by
      rw [here]
      exact number
    refine ⟨?_, fun made => ?_, fun {j} used => ?_, fun {j} used => ?_⟩
    · refine but.restore named.used fun _ => ?_
      rw [numbered, holds.unborn (Nat.le_refl _)]
      exact named.shows
    · cases made
      refine ⟨named, numbered, ?_, unused⟩
      rw [here]
      rfl
    · rw [seen, if_neg fun both => apart used both.1, others used]
      exact ⟨used, rfl⟩
    by_cases here : j = index
    · exact .inl (by rw [here])
    · rw [seen, if_neg fun both => here both.1, node_takeNode inside, if_neg here] at used
      exact .inr used

/-! ## Calls that make or move names -/

/-- A new directory is empty. -/
theorem Holds.ramfsMkdir (path : List Char) (mode : BitVec 16) :
    (fs.ramfsMkdir path mode).2.Holds told files := by
  unfold Fs.ramfsMkdir
  split
  · exact holds
  rename_i parent name _
  have added := (holds.addNode (some parent) name true true).holds
  split <;> rename_i answer <;> rw [answer] at added
  · exact added
  · exact added.setNode _ rfl rfl rfl

/-- A new file is empty, an existing one is left alone. -/
theorem Holds.ramfsCreate (path : List Char) : (fs.ramfsCreate path).2.Holds told files := by
  unfold Fs.ramfsCreate
  split
  · exact holds
  split
  · exact holds
  · rename_i parent name _
    exact (holds.addNode (some parent) name false true).holds

/-- A FIFO or a socket has no bytes. -/
theorem Holds.makeSpecial (kind : BitVec 16) (path : List Char)
    (mode : BitVec 16) : (fs.makeSpecial kind path mode).2.Holds told files := by
  unfold Fs.makeSpecial
  split
  · exact holds
  split
  · exact holds
  rename_i parent name _
  have added := (holds.addNode (some parent) name false true).holds
  split <;> rename_i answer <;> rw [answer] at added
  · exact added
  · exact added.setNode _ rfl rfl rfl

/-- An unlinked file keeps its contents while it is open. -/
theorem Holds.ramfsUnlink (path : List Char) : (fs.ramfsUnlink path).2.Holds told files := by
  unfold Fs.ramfsUnlink
  split
  · exact holds
  split
  · exact holds
  rename_i index _ present
  rw [not_or] at present
  split
  · exact holds
  · exact holds.dropName (by simpa using present.2)

/-- Its last release takes it away. -/
theorem Holds.ramfsReleaseNode (index : Nat) : (fs.ramfsReleaseNode index).Holds told files := by
  unfold Fs.ramfsReleaseNode
  split
  · exact holds
  rename_i present
  have used : (fs.node index).used := by
    simp only [Bool.or_eq_true, not_or, Bool.not_eq_true, Bool.not_eq_false'] at present
    exact present.1
  have fewer :
      (fs.setNode index fun node => { node with refs := node.refs - 1 }).Holds told files :=
    holds.setNode index rfl rfl rfl
  dsimp only
  split
  · refine (fewer.but index).freeNode ?_
    rw [node_setNode, if_pos ⟨rfl, lt_of_used used⟩]
    exact used
  · exact fewer

end

/-- A lookup ends at a node in use, or where it began. -/
theorem lookupFrom_used : ∀ {current index : Nat} {path : List Char},
    fs.lookupFrom fuel current path = some index →
      index = current ∨ (fs.node index).used := by
  induction fuel with
  | zero => exact fun found => .inl (some.inj found).symm
  | succ fuel ih =>
    intro current index path found
    rw [lookupFrom] at found
    dsimp only at found
    split at found
    · exact .inl (some.inj found).symm
    split at found
    · cases found
    split at found
    · cases found
    rename_i next here
    rcases ih found with rfl | used
    · exact .inr (findChild_some here).1
    · exact .inr used

/-- A lookup reads the nodes only. -/
theorem lookupFrom_congr (same : after.nodes = fs.nodes) (fuel : Nat) :
    ∀ (current : Nat) (path : List Char),
      after.lookupFrom fuel current path = fs.lookupFrom fuel current path := by
  induction fuel with
  | zero => exact fun _ _ => rfl
  | succ fuel ih =>
    intro current path
    have child : after.findChild (some current) (path.takeWhile (· ≠ '/')) =
        fs.findChild (some current) (path.takeWhile (· ≠ '/')) := by
      rw [findChild, findChild, same]
    rw [lookupFrom, lookupFrom]
    simp only [child, ih]

/-- A lookup does not depend on the allocator. -/
theorem lookupIndex_withAnswers (answers : List Bool) (path : List Char) :
    (fs.withAnswers answers).lookupIndex path = fs.lookupIndex path := by
  have same : (fs.withAnswers answers).nodes = fs.nodes := rfl
  unfold lookupIndex
  split
  · exact lookupFrom_congr same ..
  · rfl

/-- Any node but the root that a path leads to is used. -/
theorem lookupIndex_used {path : List Char} {index : Nat}
    (found : fs.lookupIndex path = some index) (notRoot : index ≠ 0) : (fs.node index).used := by
  unfold lookupIndex at found
  split at found
  · exact (lookupFrom_used found).resolve_left notRoot
  · cases found

/-- A rename moves a name, and drops the one that was there. -/
theorem Holds.ramfsRename (holds : fs.Holds told files) (oldPath newPath : List Char) :
    (fs.ramfsRename oldPath newPath).2.Holds told files := by
  have cleared : (fs.dropExisting newPath).Holds told files := by
    unfold Fs.dropExisting
    split
    · exact holds
    rename_i existing found
    split
    · exact holds
    · rename_i notRoot
      exact holds.dropName (lookupIndex_used found notRoot)
  unfold Fs.ramfsRename
  split
  · split
    · exact holds
    · exact cleared.setNode _ rfl rfl rfl
  · exact holds

/-! ## Links -/

/-- The new node with the size and the mode of the source. -/
def likeSource (fs : Fs) (src dst : Nat) : Fs :=
  fs.setNode dst fun node => { node with size := (fs.node src).size, mode := (fs.node src).mode }

/-- What is known while a link is being filled. -/
structure Filling (fs sized : Fs) (told : Prop) (files : Nat → FileBytes) (src dst : Nat) :
    Prop where
  /-- All but the copy holds. -/
  but : sized.HoldsBut told files (some dst)
  /-- The source is there. -/
  usedSrc : (sized.node src).used = true
  /-- The copy is there. -/
  usedDst : (sized.node dst).used = true
  /-- They are two. -/
  apart : src ≠ dst
  /-- The source shows its contents. -/
  source : told → sized.Shows src (files (fs.node src).ino)
  /-- The source is as before. -/
  same : sized.node src = fs.node src
  /-- The copy has its size. -/
  info : (sized.node dst).info = ((fs.node dst).ino, (fs.node src).size, (fs.node src).writable, [])
  /-- The copy has no page yet. -/
  head : (sized.node dst).firstPage = none

/-- The pages of the source are copied, or the node goes. -/
theorem Filling.copyPages (filling : fs.Filling sized told files src dst)
    (writable : (fs.node src).writable) {result : Bool × Fs}
    (ran : Fs.copyPages dst (sized.backing.length + 1) (sized.node src).firstPage sized = result) :
    (result.1 = false → (result.2.freeNode dst).Holds told files) ∧
      (result.1 →
        result.2.Holds told (update files (fs.node dst).ino (files (fs.node src).ino))) := by
  obtain ⟨chains, free, filed, listed⟩ := filling.but.stored
  have short := filed.length_le filling.usedSrc
  obtain ⟨copies, copied⟩ := copyPages_spec src dst (sized.backing.length + 1) filling.apart filed
    listed filling.usedSrc filling.usedDst (nil_append _).symm (filed.chain filling.usedSrc)
    (by omega)
  rw [ran] at copies copied
  -- before the loop the copy has no page, and the source none but those on its chain
  have start : ∀ q, sized.pageData dst q =
      if q ∈ (chains src).map (fun s => (sized.slot s).filePage) then (fun _ => 0)
      else sized.pageData src q := by
    intro q
    have bare : sized.findBackingPage dst q = none := by
      unfold findBackingPage
      rw [filling.head]
      rfl
    have zero : sized.pageData dst q = fun _ => 0 := by rw [pageData, bare]
    rw [zero]
    split
    · rfl
    rename_i absent
    rw [filed.pageData filling.usedSrc, dataIn]
    cases found : sized.slotIn (chains src) q with
    | none => rfl
    | some s =>
      obtain ⟨member, page⟩ := slotIn_some found
      exact absurd (List.mem_map.mpr ⟨s, member, page⟩) absent
  have kept : result.2.HoldsBut told files (some dst) := by
    refine filling.but.sameNodes copies.stored copies.sameNodes
      fun _ j apartJ usedJ x _ => ?_
    rw [byteAt_eq, byteAt_eq, copies.data (fun same => apartJ (by rw [same])) usedJ]
  have usedAfter := (copies.sameNodes.used dst).trans filling.usedDst
  refine ⟨fun _ => kept.freeNode usedAfter, fun done => ?_⟩
  have same := (copies.sameNodes.info dst).trans filling.info
  simp only [MemNode.info, Prod.mk.injEq] at same
  have shown : told → result.2.Shows dst (files (fs.node src).ino) := by
    intro tells
    have writableHere : (sized.node src).writable := by rw [filling.same]; exact writable
    have size := congrArg MemNode.size filling.same
    obtain ⟨small, bytes⟩ := (filling.source tells).bytes writableHere
    refine ⟨?_, fun _ => ⟨?_, fun {x} near => ?_⟩, fun readOnly => ?_⟩
    · rw [same.2.1, ← size]
      exact (filling.source tells).size
    · rw [same.2.1, ← size]
      exact small
    · rw [← bytes near, byteAt_eq, copied start done, ← byteAt_eq]
    · rw [same.2.2.1, writable] at readOnly
      cases readOnly
  have whole := kept.complete usedAfter (filling.but.trim (fs.node src).ino) shown
  rwa [same.1] at whole

/-- The text of the source is shared. -/
theorem Filling.shareText (filling : fs.Filling sized told files src dst)
    (readOnly : (fs.node src).writable = false) :
    (sized.setNode dst fun node => { node with roData := (sized.node src).roData }).Holds told
      (update files (fs.node dst).ino (files (fs.node src).ino)) := by
  set after := sized.setNode dst fun node => { node with roData := (sized.node src).roData }
    with after_eq
  have but : after.HoldsBut told files (some dst) :=
    filling.but.setNode dst rfl rfl rfl fun _ same => absurd rfl same
  have here : after.node dst = { sized.node dst with roData := (sized.node src).roData } := by
    rw [after_eq, node_setNode, if_pos ⟨rfl, lt_of_used filling.usedDst⟩]
  clear_value after
  have same := filling.info
  simp only [MemNode.info, Prod.mk.injEq] at same
  have size := congrArg MemNode.size filling.same
  have readOnlyHere : (sized.node src).writable = false := by rw [filling.same]; exact readOnly
  have usedAfter : (after.node dst).used := by
    rw [here]
    exact filling.usedDst
  have shown : told → after.Shows dst (files (fs.node src).ino) := by
    intro tells
    obtain ⟨length, text⟩ := (filling.source tells).text readOnlyHere
    constructor <;> rw [here]
    · exact (filling.source tells).size.trans (size.trans same.2.1.symm)
    · intro writable
      rw [show ({ sized.node dst with roData := (sized.node src).roData } : MemNode).writable =
        (sized.node dst).writable from rfl, same.2.2.1, readOnly] at writable
      cases writable
    · intro _
      exact ⟨length.trans (size.trans same.2.1.symm), text⟩
  have whole := but.complete usedAfter (filling.but.trim (fs.node src).ino) shown
  rwa [here, show ({ sized.node dst with roData := (sized.node src).roData } : MemNode).ino =
    (sized.node dst).ino from rfl, same.1] at whole

section

variable (holds : fs.Holds told files)

include holds

/-- The new node is as large as its source, and has no page yet. -/
theorem Holds.likeSource (blank : fs.Blank dst) (used : (fs.node src).used) (apart : src ≠ dst)
    (writable : (fs.node dst).writable = (fs.node src).writable) :
    fs.Filling (fs.likeSource src dst) told files src dst := by
  have here : (fs.likeSource src dst).node dst =
      { fs.node dst with size := (fs.node src).size, mode := (fs.node src).mode } := by
    rw [Fs.likeSource, node_setNode, if_pos ⟨rfl, lt_of_used blank.used⟩]
  have there : (fs.likeSource src dst).node src = fs.node src := by
    rw [Fs.likeSource, node_setNode_ne apart]
  have unmoved : (fs.likeSource src dst).backing = fs.backing := rfl
  refine ⟨(holds.but dst).setNode dst rfl rfl rfl fun _ same => absurd rfl same,
    by rw [there]; exact used, by rw [here]; exact blank.used, apart,
    fun tells => ?_, there, ?_, ?_⟩
  · exact (holds.shows tells (some_ne_none src).symm used).congr (by rw [there])
      fun x _ => byteAt_congr unmoved (by rw [there])
  · rw [here]
    simp only [MemNode.info, writable, blank.roData]
  · rw [here]
    exact blank.head

/-- The link has the contents of its source, or it is gone. -/
theorem Holds.fillLink (blank : fs.Blank dst) (used : (fs.node src).used) (apart : src ≠ dst)
    (writable : (fs.node dst).writable = (fs.node src).writable) :
    ((fs.fillLink src dst).1 = false → (fs.fillLink src dst).2.Holds told files) ∧
      ((fs.fillLink src dst).1 → (fs.fillLink src dst).2.Holds told
        (update files (fs.node dst).ino (files (fs.node src).ino))) := by
  have filling := holds.likeSource blank used apart writable
  unfold Fs.fillLink
  dsimp only
  have sized : (fs.setNode dst fun node =>
      { node with size := (fs.node src).size, mode := (fs.node src).mode }) =
      fs.likeSource src dst := rfl
  rw [sized, filling.same]
  cases kind : (fs.node src).writable with
  | true =>
    cases ran : Fs.copyPages dst ((fs.likeSource src dst).backing.length + 1)
        (fs.node src).firstPage (fs.likeSource src dst) with
    | mk done after =>
      rw [← filling.same] at ran
      have copied := filling.copyPages kind ran
      cases done with
      | true => exact ⟨by simp, copied.2⟩
      | false => exact ⟨copied.1, by simp⟩
  | false =>
    have shared := filling.shareText kind
    rw [filling.same] at shared
    exact ⟨by simp, fun _ => shared⟩

/-- `ramfs_link`: the new number has the contents of the old one when it succeeds. -/
theorem Holds.ramfsLink (oldPath newPath : List Char) :
    ((fs.ramfsLink oldPath newPath).1 = false → (fs.ramfsLink oldPath newPath).2.Holds told files) ∧
      ∀ src, fs.lookupIndex oldPath = some src → (fs.ramfsLink oldPath newPath).1 →
        (fs.ramfsLink oldPath newPath).2.Holds told
          (update files fs.nextIno (files (fs.node src).ino)) := by
  unfold Fs.ramfsLink
  cases found : fs.lookupIndex oldPath with
  | none => exact ⟨fun _ => holds, by simp⟩
  | some src =>
    dsimp only
    split
    · exact ⟨fun _ => holds, by simp⟩
    rename_i present
    rw [not_or] at present
    have used := lookupIndex_used found present.1
    split
    · exact ⟨fun _ => holds, by simp⟩
    rename_i parent name _
    split
    · exact ⟨fun _ => holds, by simp⟩
    have adding := holds.addNode (some parent) name false (fs.node src).writable
    split <;> rename_i answer <;> rw [answer] at adding
    · exact ⟨fun _ => adding.holds, fun _ _ good => by cases good⟩
    rename_i dst after
    obtain ⟨blank, number, writable, unused⟩ := adding.added rfl
    have apart : src ≠ dst := by
      rintro rfl
      rw [used] at unused
      cases unused
    have stays := adding.stays used
    have same := MemNode.info_eq stays.2
    have filled := adding.holds.fillLink blank stays.1 apart (by rw [writable, same.2.2.1])
    rw [number, same.1] at filled
    refine ⟨filled.1, fun index here => ?_⟩
    cases here
    exact filled.2

end

/-! ## Writing and truncating -/

/-- The condition on a write: only the first of its pages is missing, or the allocator grants
every request and the table has room for the missing pages. -/
def WriteFits (fs : Fs) (i off : Nat) (src : List UInt8) (answers : List Bool) : Prop :=
  (∀ q ∈ (pagesOf off src.length).tail, fs.hasPage i q = true) ∨
    (false ∉ answers ∧ fs.usedCount + fs.missing i (pagesOf off src.length) ≤ maxBackingPages)

/-- A byte of a file after its pages beyond the size were dropped and the last one cleared from
the size on. -/
theorem truncated_byte (data : Nat → UInt8) :
    (if x / pageBytes = size / pageBytes ∧ size % pageBytes ≠ 0 then
      clearFrom (if (size + pageBytes - 1) / pageBytes ≤ x / pageBytes then (fun _ => 0) else data)
        (size % pageBytes)
    else if (size + pageBytes - 1) / pageBytes ≤ x / pageBytes then (fun _ => 0) else data)
      (x % pageBytes) = if x < size then data (x % pageBytes) else 0 := by
  unfold pageBytes
  by_cases inside : x < size
  · have kept : ¬ (size + 4096 - 1) / 4096 ≤ x / 4096 := by omega
    split
    · have before : ¬ size % 4096 ≤ x % 4096 := by omega
      rw [clearFrom, if_neg before]
    · rfl
  · rw [if_neg inside]
    by_cases dropped : (size + 4096 - 1) / 4096 ≤ x / 4096
    · rw [if_pos dropped]
      split
      · simp [clearFrom]
      · rfl
    · have last : x / 4096 = size / 4096 ∧ size % 4096 ≠ 0 := by omega
      have behind : size % 4096 ≤ x % 4096 := by omega
      rw [if_pos last, clearFrom, if_pos behind]

section

variable (holds : fs.Holds told files)

include holds

/-- What the allocator will answer is not shown. -/
theorem Holds.withAnswers (answers : List Bool) : (fs.withAnswers answers).Holds told files := by
  obtain ⟨chains, free, filed, listed⟩ := holds.stored
  have unmoved : (fs.withAnswers answers).backing = fs.backing := rfl
  have filed' : (fs.withAnswers answers).Filed chains :=
    filed.congr (fun _ used => ⟨used, rfl⟩) fun _ _ _ _ => rfl
  have listed' : (fs.withAnswers answers).Listed free :=
    listed.congr rfl rfl rfl (fun _ _ => rfl) fun _ => rfl
  exact .same holds ⟨chains, free, filed', listed'⟩ rfl (fun _ used => ⟨used, rfl⟩)
    fun _ i _ _ => ⟨rfl, fun x _ => byteAt_congr unmoved rfl⟩

/-- New pages and a new size for one file, with which it shows new contents. -/
theorem Holds.resize {size : Nat} (used : (fs.node i).used)
    (writable : (fs.node i).writable) (stored : after.Stored) (same : fs.SameNodes after)
    (others : ∀ {j}, j ≠ i → (fs.node j).used → ∀ {x}, x < reach →
      after.byteAt j x = fs.byteAt j x)
    (changed : change (after.node i) = { after.node i with size := size }) (trim : file.Trim)
    (sized : told → file.size = size) (small : told → size ≤ maxFileSize)
    (bytes : told → ∀ {x}, x < reach → after.byteAt i x = file.byte x) :
    (after.setNode i change).Holds told (update files (fs.node i).ino file) := by
  have info := MemNode.info_eq (same.info i)
  have usedAfter := (same.used i).trans used
  have kept : after.HoldsBut told files (some i) :=
    (holds.but i).sameNodes stored same fun _ j apart usedJ x near =>
      others (fun here => apart (by rw [here])) usedJ near
  have but : (after.setNode i change).HoldsBut told files (some i) :=
    kept.setNode i (by rw [changed]) (by rw [changed]) (by rw [changed])
      fun _ same => absurd rfl same
  have here : (after.setNode i change).node i = { after.node i with size := size } := by
    rw [node_setNode, if_pos ⟨rfl, lt_of_used usedAfter⟩, changed]
  have unmoved : (after.setNode i change).backing = after.backing := rfl
  have shown : told → (after.setNode i change).Shows i file := by
    intro tells
    constructor <;> rw [here]
    · exact sized tells
    · refine fun _ => ⟨small tells, fun {x} near => ?_⟩
      rw [← bytes tells near]
      exact byteAt_congr unmoved (by rw [here])
    · intro readOnly
      cases (info.2.2.1.trans writable).symm.trans readOnly
  have whole := but.complete (by rw [here]; exact usedAfter) trim shown
  rw [here] at whole
  rwa [← info.1]

/-- A write stores its bytes, or it fails and the files are as before. -/
theorem Holds.ramfsWrite {src : List UInt8} (fits : told → fs.WriteFits i off src fs.answers) :
    ((fs.ramfsWrite i off src).1.isSome = false → (fs.ramfsWrite i off src).2.Holds told files) ∧
      ((fs.ramfsWrite i off src).1.isSome → (fs.ramfsWrite i off src).2.Holds told
        (update files (fs.node i).ino ((files (fs.node i).ino).write off src))) := by
  unfold Fs.ramfsWrite
  split
  · exact ⟨fun _ => holds, by simp⟩
  rename_i open_
  simp only [Bool.or_eq_true, Bool.not_eq_true, Bool.not_eq_false', decide_eq_true_eq,
    not_or] at open_
  obtain ⟨⟨⟨plain, writable⟩, start⟩, room⟩ := open_
  have used : (fs.node i).used := used_of_plainFile (by simpa using plain)
  have limit : maxFileSize ≤ reach := by decide
  have near : off + src.length ≤ reach := by omega
  split
  · exact ⟨fun _ => holds, by simp⟩
  cases ran : Fs.writePages i src.length off src fs with
  | mk done after =>
    cases done with
    | false =>
      have reached := holds.stored.writePages_reached i src.length used off src
      rw [ran] at reached
      refine ⟨fun _ => .sameNodes holds reached.1 reached.2 fun tells j _ usedJ x _ => ?_,
        by simp⟩
      have keeps := holds.stored.writePages_failed used near (fits tells)
        (congrArg Prod.fst ran)
      rw [ran] at keeps
      rw [byteAt_eq, byteAt_eq, keeps.data usedJ]
    | true =>
      have writes := Stored.writePages i src.length holds.stored used (Nat.le_refl _) near
        (congrArg Prod.fst ran)
      rw [ran] at writes
      refine ⟨by simp, fun _ => ?_⟩
      have source (tells : told) := holds.shows tells (some_ne_none i).symm used
      have size := (MemNode.info_eq (writes.sameNodes.info i)).2.1
      refine holds.resize used writable writes.stored writes.sameNodes
        (fun {j} other usedJ {x} nearX => ?_) rfl ((holds.trim _).write off src)
        (fun tells => ?_) (fun tells => ?_) fun tells {x} nearX => ?_
      · rw [writes.bytes usedJ nearX, if_neg fun both => other both.1]
      · rw [size]
        show max (files (fs.node i).ino).size (off + src.length) = _
        rw [(source tells).size]
        split <;> omega
      · have small := ((source tells).bytes writable).1
        rw [size]
        split <;> omega
      · rw [writes.bytes used nearX, ((source tells).bytes writable).2 nearX]
        simp only [true_and, FileBytes.write]

/-- `ramfs_truncate` succeeds with the array cut, or does nothing. -/
theorem Holds.ramfsTruncate (i size : Nat) :
    ((fs.ramfsTruncate i size).1 = false → (fs.ramfsTruncate i size).2.Holds told files) ∧
      ((fs.ramfsTruncate i size).1 → (fs.ramfsTruncate i size).2.Holds told
        (update files (fs.node i).ino ((files (fs.node i).ino).truncate size))) := by
  unfold Fs.ramfsTruncate
  split
  · exact ⟨fun _ => holds, by simp⟩
  rename_i open_
  simp only [Bool.or_eq_true, Bool.not_eq_true, Bool.not_eq_false', decide_eq_true_eq,
    not_or] at open_
  obtain ⟨⟨plain, writable⟩, room⟩ := open_
  have used : (fs.node i).used := used_of_plainFile (by simpa using plain)
  split
  · exact ⟨fun _ => holds, by simp⟩
  dsimp only
  refine ⟨by simp, fun _ => ?_⟩
  obtain ⟨stored, sameNodes, dropped⟩ := holds.stored.dropPages used
    ((size + pageBytes - 1) / pageBytes)
  generalize Fs.dropPages i ((size + pageBytes - 1) / pageBytes) (fs.backing.length + 1) .first
    fs = short at *
  have usedShort := (sameNodes.used i).trans used
  obtain ⟨stored', sameNodes', cleared⟩ := stored.clearTail usedShort size
  refine holds.resize used writable stored' (sameNodes.trans sameNodes')
    (fun {j} other usedJ {x} nearX => ?_) rfl (FileBytes.trim_truncate _) (fun _ => rfl)
    (fun _ => by omega) fun tells {x} nearX => ?_
  · rw [byteAt_eq, byteAt_eq, cleared ((sameNodes.used _).trans usedJ), dropped usedJ,
      if_neg fun both => other both.1, if_neg fun both => other both.1]
  have limit : maxFileSize < reach := by decide
  have byte := ((holds.shows tells (some_ne_none i).symm used).bytes writable).2 nearX
  rw [byteAt_eq, pageNumber_of_lt nearX] at byte
  simp only [FileBytes.truncate]
  rw [byteAt_eq, cleared usedShort, dropped used, pageNumber_of_lt nearX,
    pageNumber_of_lt (by omega : size < reach), ← byte]
  simp only [true_and]
  exact truncated_byte (fs.pageData i (x / pageBytes))

end

/-- The condition does not depend on what the allocator answers elsewhere. -/
theorem WriteFits.withAnswers {src : List UInt8} {answers : List Bool}
    (fits : fs.WriteFits i off src answers) (others : List Bool) :
    (fs.withAnswers others).WriteFits i off src answers := by
  have unmoved : (fs.withAnswers others).backing = fs.backing := rfl
  have same : ∀ q, (fs.withAnswers others).hasPage i q = fs.hasPage i q := by
    intro q
    have found : (fs.withAnswers others).findBackingPage i q = fs.findBackingPage i q :=
      findPageFrom_congr unmoved q _ _
    rw [hasPage, hasPage, found]
  unfold WriteFits missing at *
  simp only [same]
  exact fits

end Fs

end Spore.Ramfs
