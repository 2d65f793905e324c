import Spore.Ramfs.Machine
import Spore.Lib.Forest

/-!
# The tree of the memory file system

What `ramfs_create`, `ramfs_mkdir`, `ramfs_link`, `ramfs_rename`, `ramfs_unlink`,
`ramfs_retain_node` and `ramfs_release_node` keep of the tree that the parent indices form.
`ramfs_rename` does not look at what it replaces or where it moves a node, so it keeps the
tree only for the renames `RenameFits` describes.
-/

namespace Spore.Ramfs

open Spore.Lib MemNode List

variable {size first count fuel node keep filePage off : Nat}

/-! ## The fields the tree is made of -/

/-- The fields of a node that the tree and its references depend on. -/
def MemNode.core (node : MemNode) : Bool × Bool × Option Nat × List Char × Nat :=
  (node.used, node.isDir, node.parent, node.name, node.refs)

/-- What a node says about the tree. -/
def MemNode.seat (node : MemNode) : Option (Seat (List Char)) :=
  if node.used then some ⟨node.isDir, node.parent, node.name⟩ else none

/-- A used node has a seat in the tree. -/
theorem MemNode.seat_of_used {node : MemNode} (used : node.used) :
    node.seat = some ⟨node.isDir, node.parent, node.name⟩ := by
  simp [seat, used]

/-- A free node has none. -/
theorem MemNode.seat_of_free {node : MemNode} (free : node.used = false) : node.seat = none := by
  simp [seat, free]

/-- A seat is that of a used node. -/
theorem MemNode.seat_eq_some {node : MemNode} {seat : Seat (List Char)}
    (entry : node.seat = some seat) : node.used ∧ seat = ⟨node.isDir, node.parent, node.name⟩ := by
  unfold MemNode.seat at entry
  split at entry
  · rename_i used
    exact ⟨used, (Option.some.inj entry).symm⟩
  · cases entry

/-- The fields that the tree depends on, one by one. -/
theorem MemNode.core_eq {a b : MemNode} (same : a.core = b.core) : a.used = b.used ∧
    a.isDir = b.isDir ∧ a.parent = b.parent ∧ a.name = b.name ∧ a.refs = b.refs := by
  simpa only [core, Prod.mk.injEq] using same

/-- They determine the seat. -/
theorem MemNode.seat_congr {a b : MemNode} (same : a.core = b.core) : a.seat = b.seat := by
  simp only [seat, core_eq same]

namespace Fs

variable {fs a b c before after : Fs} {index parent i : Nat} {path newPath name : List Char}

/-- A node after a change of the table. -/
theorem node_setNode (fs : Fs) (index : Nat) (change : MemNode → MemNode) (i : Nat) :
    (fs.setNode index change).node i =
      if i = index ∧ index < fs.nodes.length then change (fs.node index) else fs.node i := by
  unfold node setNode
  by_cases same : index = i
  · subst same
    by_cases inside : index < fs.nodes.length
    · simp [inside]
    · simp [inside]
  · have apart : ¬ i = index := fun h => same h.symm
    simp [same, apart]

/-- Other nodes stay. -/
theorem node_setNode_ne (apart : i ≠ index) (change : MemNode → MemNode) :
    (fs.setNode index change).node i = fs.node i := by
  rw [node_setNode, if_neg fun both => apart both.1]

/-- A node inside the table, by its place. -/
theorem getElem_nodes (inside : index < fs.nodes.length) : fs.nodes[index] = fs.node index := by
  simp [node, getD_eq_getElem?_getD, inside]

/-- A used node is inside the table. -/
theorem lt_of_used (used : (fs.node index).used) : index < fs.nodes.length := by
  by_contra outside
  have missing : fs.nodes[index]? = none := getElem?_eq_none (by omega)
  simp [node, getD_eq_getElem?_getD, missing, clear] at used

/-- A used node is in the table. -/
theorem node_mem (used : (fs.node index).used) : fs.node index ∈ fs.nodes :=
  getElem_nodes (lt_of_used used) ▸ getElem_mem _

/-- What a change of a used node does to each node. -/
theorem node_setNode_used (used : (fs.node index).used) (change : MemNode → MemNode) (i : Nat) :
    (fs.setNode index change).node i = if i = index then change (fs.node index) else fs.node i := by
  simp [node_setNode, lt_of_used used]

/-- The entries of the table as a forest. -/
def forest (fs : Fs) : Forest (List Char) := fun index => (fs.node index).seat

/-- The tree relation in terms of the nodes. -/
theorem under_iff {child : Nat} :
    fs.forest.Under child parent ↔
      (fs.node child).used ∧ (fs.node child).parent = some parent := by
  constructor
  · rintro ⟨seat, entry, above⟩
    obtain ⟨used, rfl⟩ := seat_eq_some entry
    exact ⟨used, above⟩
  · rintro ⟨used, above⟩
    exact ⟨_, seat_of_used used, above⟩

/-- The tree is a tree, and free slots have no name and no reference. -/
structure Sound (fs : Fs) : Prop where
  /-- The nodes form a tree. -/
  shaped : fs.forest.Shaped
  /-- A free node is clear. -/
  free : ∀ {index}, (fs.node index).used = false →
    (fs.node index).name = [] ∧ (fs.node index).refs = 0

/-- A sound file system with the same references. -/
structure Tends (before after : Fs) : Prop where
  /-- The tree stays in order. -/
  sound : after.Sound
  /-- References stay. -/
  refs : ∀ index, (after.node index).refs = (before.node index).refs

/-- One step after another. -/
theorem Tends.trans (first : a.Tends b) (second : b.Tends c) : a.Tends c :=
  ⟨second.sound, fun index => (second.refs index).trans (first.refs index)⟩

/-- Nothing happens. -/
theorem Sound.stay (sound : fs.Sound) : fs.Tends fs := ⟨sound, fun _ => rfl⟩

/-! ## Changes that do not touch the tree -/

/-- The two tables agree on everything the tree is made of. -/
def Alike (before after : Fs) : Prop :=
  ∀ index, (after.node index).core = (before.node index).core

/-- A tree is alike itself. -/
theorem Alike.refl (fs : Fs) : fs.Alike fs := fun _ => rfl

/-- Trees alike in two steps. -/
theorem Alike.trans (first : a.Alike b) (second : b.Alike c) : a.Alike c :=
  fun index => (second index).trans (first index)

/-- The tree depends on the nodes. -/
theorem Alike.of_nodes (same : b.nodes = a.nodes) : a.Alike b := by
  intro index
  simp only [node, same]

/-- Trees that are alike are one forest. -/
theorem Alike.forest (alike : a.Alike b) : b.forest = a.forest := by
  funext index
  exact seat_congr (alike index)

/-- A step that leaves the tree alike keeps it sound. -/
theorem Alike.tends (alike : a.Alike b) (sound : a.Sound) : a.Tends b where
  sound :=
    { shaped := by
        rw [alike.forest]
        exact sound.shaped
      free := by
        intro index unused
        have same := core_eq (alike index)
        rw [same.1] at unused
        obtain ⟨name, refs⟩ := sound.free unused
        exact ⟨same.2.2.2.1.trans name, same.2.2.2.2.trans refs⟩ }
  refs := by
    intro index
    have same := core_eq (alike index)
    exact same.2.2.2.2

/-- A change of other fields of one node. -/
theorem alike_setNode (fs : Fs) {change : MemNode → MemNode}
    (kept : (change (fs.node index)).core = (fs.node index).core) :
    fs.Alike (fs.setNode index change) := by
  intro i
  rw [node_setNode]
  split
  · rename_i here
    rw [here.1]
    exact kept
  · rfl

/-- A request for pages leaves the nodes. -/
@[simp] theorem nodes_askPages (fs : Fs) : fs.askPages.2.nodes = fs.nodes := by
  unfold askPages
  split <;> rfl

/-- New slots are no nodes. -/
theorem nodes_initBackingRange : (fs.initBackingRange first count).nodes = fs.nodes := by
  unfold initBackingRange
  induction count with
  | zero => rfl
  | succ count ih =>
    rw [range_succ, foldl_append, foldl_cons, foldl_nil]
    exact ih

/-- Neither is a grown table. -/
theorem nodes_growBackingPages (fs : Fs) : fs.growBackingPages.2.nodes = fs.nodes := by
  have asked := fs.nodes_askPages
  unfold growBackingPages
  dsimp only
  split
  · rfl
  split <;> rename_i fs' answer <;> rw [answer] at asked
  · exact asked
  · rw [nodes_initBackingRange]
    exact asked

/-- Neither is a slot that is taken. -/
theorem nodes_takeFreeSlot (fs : Fs) : fs.takeFreeSlot.2.nodes = fs.nodes := by
  unfold takeFreeSlot
  split <;> rfl

/-- Neither is one that is taken after growth. -/
theorem nodes_allocBackingSlot (fs : Fs) : fs.allocBackingSlot.2.nodes = fs.nodes := by
  unfold allocBackingSlot
  have grown := fs.nodes_growBackingPages
  split
  · exact fs.nodes_takeFreeSlot
  split <;> rename_i fs' answer <;> rw [answer] at grown
  · exact grown
  · rw [nodes_takeFreeSlot]
    exact grown

/-- Neither is one that is returned. -/
theorem nodes_freeBackingSlot (fs : Fs) : (fs.freeBackingSlot index).nodes = fs.nodes := by
  unfold freeBackingSlot
  split <;> rfl

/-- Nor a whole chain. -/
theorem nodes_freeSlotsFrom (fuel : Nat) :
    ∀ (start : Option Nat) (fs : Fs), (freeSlotsFrom fuel start fs).nodes = fs.nodes := by
  induction fuel with
  | zero => exact fun _ _ => rfl
  | succ fuel ih =>
    intro start fs
    cases start with
    | none => rfl
    | some index =>
      rw [freeSlotsFrom, ih]
      exact fs.nodes_freeBackingSlot

/-- A page that is linked changes the head of a chain only. -/
theorem alike_attachPage (fs : Fs) : fs.Alike (fs.attachPage node filePage index).2 := by
  unfold attachPage
  simp only
  generalize linked : fs.setSlot index _ = fs'
  have same : fs'.nodes = fs.nodes := by rw [← linked]; rfl
  have asked := fs'.nodes_askPages
  split <;> rename_i fs'' answer <;> rw [answer] at asked
  · apply Alike.of_nodes
    rw [nodes_freeBackingSlot]
    exact asked.trans same
  · exact (Alike.of_nodes (asked.trans same)).trans (fs''.alike_setNode rfl)

/-- So does getting a page that may be there already. -/
theorem alike_getBackingPage (fs : Fs) (node filePage : Nat) :
    fs.Alike (fs.getBackingPage node filePage).2 := by
  unfold getBackingPage
  have taken := fs.nodes_allocBackingSlot
  split
  · exact .refl fs
  · split <;> rename_i fs' answer <;> rw [answer] at taken
    · exact .of_nodes taken
    · exact (Alike.of_nodes taken).trans fs'.alike_attachPage

/-- The chain of a node is freed. -/
theorem alike_freeNodePages (fs : Fs) (node : Nat) : fs.Alike (fs.freeNodePages node) := by
  have emptied : fs.Alike (fs.setNode node fun entry => { entry with firstPage := none }) :=
    fs.alike_setNode rfl
  unfold freeNodePages
  apply emptied.trans
  apply Alike.of_nodes
  rw [nodes_freeSlotsFrom]

/-- A link of a chain is redirected. -/
theorem alike_writeLink (fs : Fs) (node : Nat) (target : Option Nat) (link : PageLink) :
    fs.Alike (fs.writeLink node target link) := by
  cases link with
  | first => exact fs.alike_setNode rfl
  | after index => exact .of_nodes rfl

/-- Pages beyond a bound are dropped. -/
theorem alike_dropPages :
    ∀ (link : PageLink) (fs : Fs), fs.Alike (dropPages node keep fuel link fs) := by
  induction fuel with
  | zero => exact fun _ fs => .refl fs
  | succ fuel ih =>
    intro link fs
    unfold dropPages
    split
    · exact .refl fs
    split
    · rename_i index _ _
      have unlinked := fs.alike_writeLink node (fs.slot index).next link
      exact (unlinked.trans (.of_nodes (nodes_freeBackingSlot _))).trans (ih _ _)
    · exact ih _ fs

/-- Bytes are written page by page. -/
theorem alike_writePages (node fuel : Nat) :
    ∀ (pos : Nat) (src : List UInt8) (fs : Fs), fs.Alike (writePages node fuel pos src fs).2 := by
  induction fuel with
  | zero => exact fun _ _ fs => .refl fs
  | succ fuel ih =>
    intro pos src fs
    have got := fs.alike_getBackingPage node (pageNumber pos)
    unfold writePages
    split
    · exact .refl fs
    split <;> rename_i answer <;> rw [answer] at got
    · exact got
    · exact (got.trans (.of_nodes rfl)).trans (ih _ _ _)

/-- The end of the last page is cleared. -/
theorem alike_clearTail : fs.Alike (fs.clearTail index size) := by
  unfold clearTail
  split
  · exact .refl fs
  · split
    · exact .refl fs
    · exact .of_nodes rfl

/-- A write changes sizes and pages, not the tree. -/
theorem alike_ramfsWrite (src : List UInt8) : fs.Alike (fs.ramfsWrite index off src).2 := by
  have written := alike_writePages index src.length off src fs
  unfold ramfsWrite
  split
  · exact .refl fs
  split
  · exact .refl fs
  · split <;> rename_i answer <;> rw [answer] at written
    · exact written
    · exact written.trans (alike_setNode _ rfl)

/-- A truncation does not either. -/
theorem alike_ramfsTruncate (fs : Fs) : fs.Alike (fs.ramfsTruncate index size).2 := by
  unfold ramfsTruncate
  split
  · exact .refl fs
  split
  · exact .refl fs
  · exact ((alike_dropPages .first fs).trans alike_clearTail).trans (alike_setNode _ rfl)

/-- Pages are copied into a new link. -/
theorem alike_copyPages (dst fuel : Nat) :
    ∀ (start : Option Nat) (fs : Fs), fs.Alike (copyPages dst fuel start fs).2 := by
  induction fuel with
  | zero => exact fun _ fs => .refl fs
  | succ fuel ih =>
    intro start fs
    cases start with
    | none => exact .refl fs
    | some slot =>
      have got := fs.alike_getBackingPage dst (fs.slot slot).filePage
      unfold copyPages
      split <;> rename_i answer <;> rw [answer] at got
      · exact got
      · exact (got.trans (.of_nodes rfl)).trans (ih _ _)

/-! ## Changes of one place of the tree -/

/-- Rewriting one node so that it fits keeps the file system sound. -/
theorem Sound.rewrite (sound : before.Sound)
    (others : ∀ i, i ≠ index → (after.node i).core = (before.node i).core)
    (fits : before.forest.Fits index (after.node index).seat)
    (refs : (after.node index).refs = (before.node index).refs)
    (free : (after.node index).used = false → (after.node index).name = [] ∧
      (after.node index).refs = 0) : before.Tends after where
  sound :=
    { shaped := by
        have same : after.forest = Function.update before.forest index (after.node index).seat := by
          funext i
          by_cases here : i = index
          · rw [here, Function.update_self]
            rfl
          · rw [Function.update_of_ne here]
            exact seat_congr (others i here)
        rw [same]
        exact fits.shaped sound.shaped
      free := by
        intro i unused
        by_cases here : i = index
        · rw [here] at unused ⊢
          exact free unused
        have same := core_eq (others i here)
        rw [same.1] at unused
        rw [same.2.2.2.1, same.2.2.2.2]
        exact sound.free unused }
  refs := by
    intro i
    by_cases here : i = index
    · rw [here]
      exact refs
    · have same := core_eq (others i here)
      exact same.2.2.2.2

section

variable (sound : fs.Sound)

include sound

/-- The root is a used directory. -/
theorem Sound.root : (fs.node 0).used ∧ (fs.node 0).isDir := by
  obtain ⟨seat, entry, isDir, -⟩ := sound.shaped.root
  obtain ⟨used, rfl⟩ := seat_eq_some entry
  exact ⟨used, isDir⟩

/-- A place of the tree is used. -/
theorem Sound.used_of_reaches (reaches : fs.forest.ReachesRoot index) : (fs.node index).used := by
  obtain ⟨parent, under⟩ := sound.shaped.under_of_reaches reaches
  exact (under_iff.mp under).1

/-- The root is never free. -/
theorem Sound.ne_zero_of_free (free : (fs.node index).used = false) : index ≠ 0 := by
  intro same
  rw [same, sound.root.1] at free
  cases free

/-- Only directories have entries below them. -/
theorem Sound.childless_file (file : (fs.node index).isDir = false)
    (child : Nat) : ¬ fs.forest.Under child index := by
  intro under
  obtain ⟨seat, entry, isDir⟩ := sound.shaped.parents under
  obtain ⟨-, rfl⟩ := seat_eq_some entry
  rw [file] at isDir
  cases isDir

/-- Nothing is below a node without a parent. -/
theorem Sound.childless_loose (loose : (fs.node index).parent = none)
    (child : Nat) : ¬ fs.forest.Under child index := by
  intro under
  obtain ⟨grand, above⟩ := sound.shaped.parent_under under
  have parent := (under_iff.mp above).2
  rw [loose] at parent
  cases parent

end

/-- The test for children finds all of them. -/
theorem childless_of_hasChild (none_below : fs.hasChild index = false) (child : Nat) :
    ¬ fs.forest.Under child index := by
  intro under
  obtain ⟨used, parent⟩ := under_iff.mp under
  rw [hasChild, any_eq_false] at none_below
  exact none_below _ (node_mem used) (by simp [used, parent])

/-- Nothing is below a file or an empty directory. -/
theorem Sound.childless (sound : fs.Sound)
    (leaf : (fs.node index).isDir → fs.hasChild index = false) (child : Nat) :
    ¬ fs.forest.Under child index := by
  by_cases dir : (fs.node index).isDir
  · exact childless_of_hasChild (leaf dir) child
  · exact sound.childless_file (by simpa using dir) child

/-- `free_node` on a node of the tree that nothing is below and nobody holds. -/
theorem Sound.freeNode (sound : fs.Sound) (notRoot : index ≠ 0)
    (childless : ∀ child, ¬ fs.forest.Under child index) (unheld : (fs.node index).refs = 0) :
    fs.Tends (fs.freeNode index) := by
  have emptied := fs.alike_freeNodePages index
  have others : ∀ i, i ≠ index → ((fs.freeNode index).node i).core = (fs.node i).core := by
    intro i apart
    rw [Fs.freeNode, node_setNode_ne apart]
    exact emptied i
  have cleared : ((fs.freeNode index).node index).used = false ∧
      ((fs.freeNode index).node index).name = [] ∧
      ((fs.freeNode index).node index).refs = 0 := by
    rw [Fs.freeNode, node_setNode]
    split
    · exact ⟨rfl, rfl, rfl⟩
    rename_i outside
    have beyond : ¬ index < (fs.freeNodePages index).nodes.length := fun h => outside ⟨rfl, h⟩
    have missing : (fs.freeNodePages index).node index = .clear := by
      simp [node, getD_eq_getElem?_getD, beyond]
    rw [missing]
    exact ⟨rfl, rfl, rfl⟩
  apply sound.rewrite others
  · rw [seat_of_free cleared.1]
    exact .leave notRoot childless fun seat none_new => by cases none_new
  · rw [cleared.2.2, unheld]
  · exact fun _ => cleared.2

/-- A node that nothing is below loses its name. -/
theorem Sound.dropName (sound : fs.Sound) (notRoot : index ≠ 0)
    (used : (fs.node index).used) (childless : ∀ child, ¬ fs.forest.Under child index) :
    fs.Tends (fs.dropName index) := by
  unfold Fs.dropName
  split
  · have inside := lt_of_used used
    have here : (fs.setNode index fun node => { node with parent := none, name := [] }).node index =
        { fs.node index with parent := none, name := [] } := by
      rw [node_setNode, if_pos ⟨rfl, inside⟩]
    have others : ∀ i, i ≠ index →
        ((fs.setNode index fun node => { node with parent := none, name := [] }).node i).core =
          (fs.node i).core := by
      intro i apart
      rw [node_setNode_ne apart]
    apply sound.rewrite others
    · rw [here]
      apply Forest.Fits.leave notRoot childless
      intro seat entry
      obtain ⟨-, rfl⟩ := seat_eq_some entry
      rfl
    · rw [here]
    rw [here]
    intro unused
    rw [used] at unused
    cases unused
  · rename_i unheld
    exact sound.freeNode notRoot childless (by simpa using unheld)

/-! ## Lookups -/

/-- A child that is found has the name and the parent. -/
theorem findChild_some {parent : Option Nat} (found : fs.findChild parent name = some index) :
    (fs.node index).used ∧ (fs.node index).parent = parent ∧
      (fs.node index).name = name := by
  obtain ⟨inside, here, -⟩ := findIdx?_eq_some_iff_getElem.mp found
  rw [getElem_nodes inside] at here
  simpa [and_assoc] using here

/-- No child is missed. -/
theorem findChild_none {parent : Option Nat}
    (missing : fs.findChild parent name = none) (used : (fs.node index).used)
    (below : (fs.node index).parent = parent) : (fs.node index).name ≠ name := by
  intro same
  have refuted := findIdx?_eq_none_iff.mp missing _ (node_mem used)
  simp [used, below, same] at refuted

/-- A lookup that starts in the tree stays in it. -/
theorem lookupFrom_reaches : ∀ {current index : Nat} {path : List Char},
    fs.forest.ReachesRoot current → fs.lookupFrom fuel current path = some index →
      fs.forest.ReachesRoot index := by
  induction fuel with
  | zero =>
    intro current index path reaches found
    rw [← Option.some.inj found]
    exact reaches
  | succ fuel ih =>
    intro current index path reaches found
    rw [lookupFrom] at found
    split at found
    · rw [← Option.some.inj found]
      exact reaches
    dsimp only at found
    split at found
    · cases found
    split at found
    · cases found
    · rename_i next child
      obtain ⟨used, parent, -⟩ := findChild_some child
      exact ih (.step (under_iff.mpr ⟨used, parent⟩) reaches) found

/-- A path leads to a node from which the root is reached. -/
theorem lookupIndex_reaches (found : fs.lookupIndex path = some index) :
    fs.forest.ReachesRoot index := by
  unfold lookupIndex at found
  split at found
  · exact lookupFrom_reaches .root found
  · cases found

/-- The parent in a path is a directory in the tree. -/
theorem splitParent_some (split_ok : fs.splitParent path = some (parent, name)) :
    fs.forest.ReachesRoot parent ∧ (fs.node parent).isDir := by
  unfold splitParent at split_ok
  dsimp only at split_ok
  split at split_ok
  · cases split_ok
  split at split_ok
  · cases split_ok
  rename_i found
  split at split_ok
  · rename_i isDir
    cases split_ok
    exact ⟨lookupIndex_reaches found, isDir⟩
  · cases split_ok

/-! ## New nodes -/

/-- A free node is taken, or there is none. -/
theorem allocNode_cases (fs : Fs) :
    fs.allocNode = (none, fs) ∨ ∃ index, index < fs.nodes.length ∧
      (fs.node index).used = false ∧ fs.allocNode = (some index, fs.takeNode index) := by
  unfold allocNode
  split
  · exact .inl rfl
  rename_i index found
  obtain ⟨inside, here, -⟩ := findIdx?_eq_some_iff_getElem.mp found
  rw [getElem_nodes inside] at here
  exact .inr ⟨index, inside, by simpa using here, rfl⟩

/-- The node that is taken is fresh, the others stay. -/
theorem node_takeNode (inside : index < fs.nodes.length) (i : Nat) :
    (fs.takeNode index).node i = if i = index then .fresh fs.nextIno else fs.node i := by
  have seen := node_setNode fs index (fun _ => .fresh fs.nextIno) i
  simp only [inside, and_true] at seen
  exact seen

/-- The table keeps its length. -/
theorem length_takeNode : (fs.takeNode index).nodes.length = fs.nodes.length := by
  simp [takeNode, setNode]

/-- What `add_node` did: nothing to the tree, or one new entry below the parent. -/
structure Adds (before after : Fs) (result : Option Nat) : Prop where
  /-- The tree stays in order. -/
  tends : before.Tends after
  /-- The new node was free, is used, and nothing is below it. -/
  added : ∀ index, result = some index → (before.node index).used = false ∧
    (after.node index).used = true ∧ ∀ child, ¬ after.forest.Under child index
  /-- The nodes there were are there. -/
  stays : ∀ index, (before.node index).used = true → (after.node index).used = true
  /-- No node lost its parent. -/
  loose : ∀ index, (after.node index).used = true → (after.node index).parent = none →
    (before.node index).used = true ∧ (before.node index).parent = none

/-- Only the new node has changed. -/
theorem Adds.of_others {result : Option Nat} (tends : before.Tends after)
    (others : ∀ i, i ≠ index → (after.node i).core = (before.node i).core)
    (kept : (before.node index).used → (after.node index).used)
    (held : (after.node index).used → (after.node index).parent ≠ none)
    (added : ∀ i, result = some i → (before.node i).used = false ∧
      (after.node i).used = true ∧ ∀ child, ¬ after.forest.Under child i) :
    before.Adds after result := by
  refine ⟨tends, added, fun i used => ?_, fun i used loose => ?_⟩
  · by_cases here : i = index
    · exact here ▸ kept (here ▸ used)
    · exact (core_eq (others i here)).1.trans used
  · by_cases here : i = index
    · exact (held (here ▸ used) (here ▸ loose)).elim
    · have same := core_eq (others i here)
      exact ⟨same.1.symm.trans used, same.2.2.1.symm.trans loose⟩

/-- Putting an entry into a free place. -/
theorem Sound.place (sound : before.Sound) (free : (before.node index).used = false)
    (others : ∀ i, i ≠ index → (after.node i).core = (before.node i).core)
    (used : (after.node index).used) (below : (after.node index).parent = some parent)
    (refs : (after.node index).refs = 0) (reaches : before.forest.ReachesRoot parent)
    (isDir : (before.node parent).isDir)
    (fresh : before.findChild (some parent) (after.node index).name = none) :
    before.Adds after (some index) := by
  have vacant : before.forest index = none := seat_of_free free
  have avoids := sound.shaped.avoids_free vacant reaches
  have fits : before.forest.Fits index (after.node index).seat :=
    { notRoot := sound.ne_zero_of_free free
      below := fun child _ under => (sound.shaped.childless_free vacant child under).elim
      above := by
        intro seat up entry above
        obtain ⟨-, rfl⟩ := seat_eq_some entry
        obtain rfl : parent = up := Option.some.inj (below.symm.trans above)
        exact ⟨avoids, _, seat_of_used (sound.used_of_reaches reaches), isDir⟩
      fresh := by
        intro seat up entry above other found _ there under
        obtain ⟨-, rfl⟩ := seat_eq_some entry
        obtain rfl : parent = up := Option.some.inj (below.symm.trans above)
        obtain ⟨usedOther, rfl⟩ := seat_eq_some there
        exact findChild_none fresh usedOther under }
  have tends : before.Tends after := by
    apply sound.rewrite others fits
    · rw [refs, (sound.free free).2]
    · intro unused
      rw [used] at unused
      cases unused
  refine .of_others tends others (fun _ => used) (fun _ => by simp [below]) fun i same => ?_
  cases same
  refine ⟨free, used, fun child under => ?_⟩
  obtain ⟨usedChild, above⟩ := under_iff.mp under
  by_cases here : child = index
  · rw [here, below] at above
    exact avoids.ne (Option.some.inj above)
  have same := core_eq (others child here)
  rw [same.1] at usedChild
  rw [same.2.2.1] at above
  exact sound.shaped.childless_free vacant child (under_iff.mpr ⟨usedChild, above⟩)

/-- No node is added. -/
theorem Sound.addNone (sound : fs.Sound) : fs.Adds fs none :=
  ⟨sound.stay, (by simp), fun _ used => used,
    fun _ used loose => ⟨used, loose⟩⟩

/-- Freeing pages keeps the length of the table. -/
theorem length_freeNodePages : (fs.freeNodePages index).nodes.length = fs.nodes.length := by
  rw [freeNodePages, nodes_freeSlotsFrom]
  simp [setNode]

section

variable (sound : fs.Sound)

include sound

/-- Giving back a node that was just taken. -/
theorem Sound.giveBack (inside : index < fs.nodes.length)
    (free : (fs.node index).used = false) : fs.Adds ((fs.takeNode index).freeNode index) none := by
  have emptied := (fs.takeNode index).alike_freeNodePages index
  have others : ∀ i, i ≠ index →
      (((fs.takeNode index).freeNode index).node i).core = (fs.node i).core := by
    intro i away
    rw [Fs.freeNode, node_setNode_ne away, emptied i, node_takeNode inside, if_neg away]
  have cleared : ((fs.takeNode index).freeNode index).node index = .clear := by
    have room : index < ((fs.takeNode index).freeNodePages index).nodes.length := by
      rw [length_freeNodePages, length_takeNode]
      exact inside
    rw [Fs.freeNode, node_setNode, if_pos ⟨rfl, room⟩]
  have vacant : fs.forest index = none := seat_of_free free
  have tends : fs.Tends ((fs.takeNode index).freeNode index) := by
    apply sound.rewrite others
    · rw [cleared]
      exact .leave (sound.ne_zero_of_free free)
        (sound.shaped.childless_free vacant) fun seat none_new => by cases none_new
    · rw [cleared, (sound.free free).2]
      rfl
    · rw [cleared]
      exact fun _ => ⟨rfl, rfl⟩
  refine .of_others tends others (fun used => ?_) (fun used => ?_) fun _ found => by cases found
  · rw [free] at used
    cases used
  · rw [cleared] at used
    cases used

/-- `add_node` in a directory of the tree. -/
theorem Sound.addNode (reaches : fs.forest.ReachesRoot parent)
    (name : List Char) (isDir writable : Bool) :
    fs.Adds (fs.addNode (some parent) name isDir writable).2
      (fs.addNode (some parent) name isDir writable).1 := by
  unfold Fs.addNode
  dsimp only
  split
  · exact sound.addNone
  rename_i refused
  obtain ⟨dir, fresh⟩ : (fs.node parent).isDir ∧
      fs.findChild (some parent) name = none := by simpa using refused
  rcases fs.allocNode_cases with full | ⟨index, inside, free, taken⟩
  · rw [full]
    exact sound.addNone
  rw [taken]
  dsimp only
  split
  · exact sound.giveBack inside free
  generalize mounted : ((fs.takeNode index).node parent).mount = mount
  have here := node_setNode (fs.takeNode index) index
    (fun node => node.named parent name isDir writable mount)
  have self := here index
  have room : index < (fs.takeNode index).nodes.length := by
    rw [length_takeNode]
    exact inside
  rw [if_pos ⟨rfl, room⟩, node_takeNode inside, if_pos rfl] at self
  refine sound.place free ?_ ?_ ?_ ?_ reaches dir ?_
  · intro i away
    rw [here i, if_neg fun both => away both.1, node_takeNode inside, if_neg away]
  · rw [self]
    rfl
  · rw [self]
    rfl
  · rw [self]
    rfl
  · rw [self]
    exact fresh

/-! ## Calls -/

/-- `ramfs_mkdir` adds a directory below a directory. -/
theorem Sound.ramfsMkdir (path : List Char) (mode : BitVec 16) :
    fs.Tends (fs.ramfsMkdir path mode).2 := by
  unfold Fs.ramfsMkdir
  split
  · exact sound.stay
  rename_i parent name located
  have adds := sound.addNode (splitParent_some located).1 name true true
  split <;> rename_i answer <;> rw [answer] at adds
  · exact adds.tends
  · exact adds.tends.trans ((alike_setNode _ rfl).tends adds.tends.sound)

/-- `ramfs_create` adds a file, or finds one. -/
theorem Sound.ramfsCreate (path : List Char) : fs.Tends (fs.ramfsCreate path).2 := by
  unfold Fs.ramfsCreate
  split
  · exact sound.stay
  split
  · exact sound.stay
  · rename_i parent name located
    exact (sound.addNode (splitParent_some located).1 name false true).tends

/-- A FIFO or a socket is added. -/
theorem Sound.makeSpecial (kind : BitVec 16) (path : List Char)
    (mode : BitVec 16) : fs.Tends (fs.makeSpecial kind path mode).2 := by
  unfold Fs.makeSpecial
  split
  · exact sound.stay
  split
  · exact sound.stay
  rename_i parent name located
  have adds := sound.addNode (splitParent_some located).1 name false true
  split <;> rename_i answer <;> rw [answer] at adds
  · exact adds.tends
  · exact adds.tends.trans ((alike_setNode _ rfl).tends adds.tends.sound)

/-- `ramfs_unlink` takes a name away; a node without references goes. -/
theorem Sound.ramfsUnlink (path : List Char) : fs.Tends (fs.ramfsUnlink path).2 := by
  unfold Fs.ramfsUnlink
  split
  · exact sound.stay
  rename_i index found
  split
  · exact sound.stay
  rename_i present
  rw [not_or] at present
  split
  · exact sound.stay
  rename_i leaf
  have used := sound.used_of_reaches (lookupIndex_reaches found)
  apply sound.dropName present.1 used
  exact sound.childless (by simpa using leaf)

/-- The number of references of an entry in use is not part of the tree. -/
theorem Sound.setRefs (used : (fs.node index).used) (count : Nat → Nat) :
    (fs.setNode index fun node => { node with refs := count node.refs }).Sound := by
  have nodes := node_setNode_used used fun node => { node with refs := count node.refs }
  have forest : (fs.setNode index fun node => { node with refs := count node.refs }).forest =
      fs.forest := by
    funext i
    show seat _ = (fs.node i).seat
    rw [nodes i]
    split
    · rename_i here
      rw [here]
      rfl
    · rfl
  refine ⟨by rw [forest]; exact sound.shaped, fun {i} unused => ?_⟩
  rw [nodes i] at unused ⊢
  split at unused
  · rw [used] at unused
    cases unused
  · rename_i away
    rw [if_neg away]
    exact sound.free unused

/-- A release gives one reference up, and an unlinked node with its last one. -/
theorem Sound.ramfsReleaseNode (index : Nat) :
    (fs.ramfsReleaseNode index).Sound ∧ ∀ i, ((fs.ramfsReleaseNode index).node i).refs =
      if i = index then (fs.node i).refs - 1 else (fs.node i).refs := by
  unfold Fs.ramfsReleaseNode
  split
  · rename_i idle
    have unheld : (fs.node index).refs = 0 := by
      rcases Bool.or_eq_true _ _ |>.mp idle with free | zero
      · exact (sound.free (by simpa using free)).2
      · exact of_decide_eq_true zero
    refine ⟨sound, fun i => ?_⟩
    split
    · rename_i here
      rw [here, unheld]
    · rfl
  · rename_i busy
    obtain ⟨used, -⟩ : (fs.node index).used ∧ ¬ (fs.node index).refs = 0 := by
      simpa using busy
    have sound' := sound.setRefs used (· - 1)
    have refs : ∀ i,
        ((fs.setNode index fun node => { node with refs := node.refs - 1 }).node i).refs =
        if i = index then (fs.node i).refs - 1 else (fs.node i).refs := by
      intro i
      rw [node_setNode_used used]
      split
      · rename_i here
        rw [here]
      · rfl
    dsimp only
    split
    · rename_i last
      have tends := sound'.freeNode last.2.2 (sound'.childless_loose last.2.1) last.1
      exact ⟨tends.sound, fun i => (tends.refs i).trans (refs i)⟩
    · exact ⟨sound', refs⟩

/-- A node gets one reference more, unless it is full or free. -/
theorem Sound.ramfsRetainNode (room : (fs.node index).refs + 1 < 2 ^ 32) :
    (fs.ramfsRetainNode index).2.Sound ∧ ∀ i, ((fs.ramfsRetainNode index).2.node i).refs =
      if i = index ∧ (fs.ramfsRetainNode index).1 = true then (fs.node i).refs + 1
      else (fs.node i).refs := by
  unfold Fs.ramfsRetainNode
  split
  · rename_i used
    refine ⟨sound.setRefs used fun refs => (refs + 1) % 2 ^ 32, fun i => ?_⟩
    rw [node_setNode_used used, Nat.mod_eq_of_lt room]
    by_cases here : i = index
    · simp [here]
    · simp [here]
  · exact ⟨sound, fun i => by simp⟩

/-- The new link is filled with the pages of the source, or freed. -/
theorem Sound.fillLink {src dst : Nat} (notRoot : dst ≠ 0)
    (unheld : (fs.node dst).refs = 0) (childless : ∀ child, ¬ fs.forest.Under child dst) :
    fs.Tends (fs.fillLink src dst).2 := by
  unfold Fs.fillLink
  dsimp only
  generalize filled : (fs.setNode dst fun node =>
    { node with size := (fs.node src).size, mode := (fs.node src).mode }) = fs'
  have alike : fs.Alike fs' := by
    rw [← filled]
    exact fs.alike_setNode rfl
  split
  · have copied := alike_copyPages dst (fs'.backing.length + 1) (fs'.node src).firstPage fs'
    split <;> rename_i answer <;> rw [answer] at copied <;> have both := alike.trans copied
    · have tends := both.tends sound
      apply tends.trans
      apply tends.sound.freeNode notRoot
      · rw [both.forest]
        exact childless
      · rw [tends.refs, unheld]
    · exact both.tends sound
  · exact (alike.trans (alike_setNode _ rfl)).tends sound

/-- `ramfs_link` makes a copy under a new name. -/
theorem Sound.ramfsLink (oldPath newPath : List Char) :
    fs.Tends (fs.ramfsLink oldPath newPath).2 := by
  unfold Fs.ramfsLink
  split
  · exact sound.stay
  split
  · exact sound.stay
  split
  · exact sound.stay
  rename_i src _ _ _ parent name located
  split
  · exact sound.stay
  have adds := sound.addNode (splitParent_some located).1 name false (fs.node src).writable
  split <;> rename_i answer <;> rw [answer] at adds
  · exact adds.tends
  rename_i dst fs'
  obtain ⟨free, -, childless⟩ := adds.added dst rfl
  have unheld : (fs'.node dst).refs = 0 := by
    rw [adds.tends.refs]
    exact (sound.free free).2
  exact adds.tends.trans (adds.tends.sound.fillLink (sound.ne_zero_of_free free) unheld childless)

end

/-! ## Renaming -/

/-- Climbing from a place arrives at the root without meeting the other place. -/
def climbs (fs : Fs) (met : Nat) : Nat → Nat → Bool
  | 0, _ => false
  | fuel + 1, place =>
    decide (place ≠ met) && (decide (place = 0) ||
      match (fs.node place).parent with
      | none => false
      | some up => (fs.node place).used && fs.climbs met fuel up)

/-- The node found at the new path may go: it is neither the renamed node nor the directory
that node moves to, and no directory with entries. -/
def replaceable (fs : Fs) (index parent : Nat) : Option Nat → Bool
  | none => true
  | some existing =>
    decide (existing = 0) || (decide (existing ≠ index) && decide (existing ≠ parent) &&
      !((fs.node existing).isDir && fs.hasChild existing))

/-- No entry of the directory has the name, apart from the renamed node and the one that
goes. -/
def nameFree (fs : Fs) (index parent : Nat) (name : List Char) (existing : Option Nat) : Bool :=
  match fs.findChild (some parent) name with
  | none => true
  | some other => decide (other = index) || (decide (existing = some other) && decide (other ≠ 0))

/-- The checks `ramfs_rename` leaves out. -/
def RenameFits (fs : Fs) (oldPath newPath : List Char) : Prop :=
  match fs.lookupIndex oldPath, fs.splitParent newPath with
  | some index, some (parent, name) => index ≠ 0 →
    fs.replaceable index parent (fs.lookupIndex newPath) = true ∧
    fs.climbs index fs.nodes.length parent = true ∧
    fs.nameFree index parent name (fs.lookupIndex newPath) = true
  | _, _ => True

instance (fs : Fs) (oldPath newPath : List Char) : Decidable (fs.RenameFits oldPath newPath) := by
  unfold RenameFits
  split <;> infer_instance

/-- The test of `ramfs_rename` for moves below itself sees every ancestor. -/
theorem avoids_of_climbs {met : Nat} : ∀ {place : Nat},
    fs.climbs met fuel place → fs.forest.Avoids met place := by
  induction fuel with
  | zero => intro place climbs; cases climbs
  | succ fuel ih =>
    intro place climbed
    rw [climbs] at climbed
    obtain ⟨apart, way⟩ : place ≠ met ∧ _ := by simpa using climbed
    rcases way with root | higher
    · rw [root] at apart ⊢
      exact .root apart.symm
    split at higher
    · cases higher
    · rename_i up above
      obtain ⟨used, rest⟩ : (fs.node place).used ∧ _ := by simpa using higher
      exact .step apart (under_iff.mpr ⟨used, above⟩) (ih rest)

/-- What is left when the node at the new path has gone. -/
structure Cleared (before after : Fs) (existing : Option Nat) : Prop where
  /-- The tree stays in order. -/
  tends : before.Tends after
  /-- The node that goes leaves the tree; the others stay as they were. -/
  gone : ∀ e, existing = some e → e ≠ 0 → ∀ up, ¬ after.forest.Under e up
  /-- The other nodes stay. -/
  others : ∀ i, existing ≠ some i ∨ i = 0 → (after.node i).core = (before.node i).core

/-- A name that is dropped is that of one node. -/
theorem core_dropName_ne (fs : Fs) (apart : i ≠ index) :
    ((fs.dropName index).node i).core = (fs.node i).core := by
  unfold dropName
  split
  · rw [node_setNode_ne apart]
  · rw [freeNode, node_setNode_ne apart]
    exact fs.alike_freeNodePages index i

/-- The node that lost its name is no child. -/
theorem dropName_loose (fs : Fs) {up : Nat} (used : (fs.node index).used) :
    ¬ (fs.dropName index).forest.Under index up := by
  have inside := lt_of_used used
  intro under
  obtain ⟨_, above⟩ := under_iff.mp under
  unfold dropName at above
  split at above
  · rw [node_setNode, if_pos ⟨rfl, inside⟩] at above
    cases above
  have room : index < (fs.freeNodePages index).nodes.length := by
    rw [length_freeNodePages]
    exact inside
  rw [freeNode, node_setNode, if_pos ⟨rfl, room⟩] at above
  cases above

/-- The node at the new path gives way, if it may. -/
theorem Sound.dropExisting (sound : fs.Sound)
    (goes : fs.replaceable index parent (fs.lookupIndex newPath)) :
    fs.Cleared (fs.dropExisting newPath) (fs.lookupIndex newPath) := by
  unfold Fs.dropExisting
  split
  · rename_i missing
    rw [missing]
    exact ⟨sound.stay, (by simp), fun _ _ => rfl⟩
  rename_i existing found
  rw [found] at goes ⊢
  split
  · rename_i isRoot
    refine ⟨sound.stay, fun e same notRoot => ?_, fun _ _ => rfl⟩
    cases same
    exact (notRoot isRoot).elim
  rename_i notRoot
  have used := sound.used_of_reaches (lookupIndex_reaches found)
  have leaf : (fs.node existing).isDir → fs.hasChild existing = false := by
    intro dir
    have checks := goes
    simp only [replaceable, notRoot, dir, decide_false, Bool.false_or, Bool.true_and,
      Bool.and_eq_true, Bool.not_eq_true'] at checks
    exact checks.2
  refine ⟨sound.dropName notRoot used (sound.childless leaf), fun e same _ up => ?_,
    fun i away => ?_⟩
  · cases same
    exact fs.dropName_loose used
  apply fs.core_dropName_ne
  rintro rfl
  rcases away with other | isRoot
  · exact other rfl
  · exact notRoot isRoot

/-- The way of the new directory to the root is not changed by the node that goes. -/
theorem Cleared.avoids {existing : Option Nat} (cleared : before.Cleared after existing)
    (childless : ∀ e, existing = some e → e ≠ 0 → ∀ child, ¬ before.forest.Under child e)
    (avoids : before.forest.Avoids index parent) :
    (existing ≠ some parent ∨ parent = 0) → after.forest.Avoids index parent := by
  induction avoids with
  | root apart => exact fun _ => .root apart
  | @step place up apart under _ ih =>
    intro stays
    have same := core_eq (cleared.others place stays)
    obtain ⟨used, above⟩ := under_iff.mp under
    have under' : after.forest.Under place up :=
      under_iff.mpr ⟨by rw [same.1]; exact used, by rw [same.2.2.1]; exact above⟩
    refine .step apart under' (ih ?_)
    by_cases isRoot : up = 0
    · exact .inr isRoot
    · exact .inl fun gone => childless up gone isRoot place under

/-- `ramfs_rename` keeps the tree sound when it does not make a loop or lose children. -/
theorem Sound.ramfsRename (sound : fs.Sound) {oldPath : List Char}
    (fits : fs.RenameFits oldPath newPath) : fs.Tends (fs.ramfsRename oldPath newPath).2 := by
  unfold Fs.ramfsRename
  unfold RenameFits at fits
  split
  · rename_i index parent name found located
    rw [found, located] at fits
    split
    · exact sound.stay
    rename_i notRoot
    obtain ⟨goes, climbed, fresh⟩ := fits notRoot
    obtain ⟨reaches, isDir⟩ := splitParent_some located
    have cleared := sound.dropExisting goes
    generalize madeRoom : fs.dropExisting newPath = fs' at cleared ⊢
    have used := sound.used_of_reaches (lookupIndex_reaches found)
    -- the node that goes is neither the renamed one nor its new directory
    have apart : ∀ e, fs.lookupIndex newPath = some e → e ≠ 0 → e ≠ index ∧ e ≠ parent ∧
        ∀ child, ¬ fs.forest.Under child e := by
      intro e there away
      have checks := goes
      simp only [there, replaceable, away, decide_false, Bool.false_or, Bool.and_eq_true,
        decide_eq_true_eq, Bool.not_eq_true'] at checks
      exact ⟨checks.1.1, checks.1.2, sound.childless (by simpa using checks.2)⟩
    have staysOf : ∀ i, (∀ e, fs.lookupIndex newPath = some e → e ≠ 0 → e ≠ i) →
        fs.lookupIndex newPath ≠ some i ∨ i = 0 := by
      intro i away
      by_cases isRoot : i = 0
      · exact .inr isRoot
      · exact .inl fun there => away i there isRoot rfl
    have sameIndex := core_eq
      (cleared.others index (staysOf index fun e there n => (apart e there n).1))
    have staysParent := staysOf parent fun e there n => (apart e there n).2.1
    have sameParent := core_eq (cleared.others parent staysParent)
    have usedIndex : (fs'.node index).used := by rw [sameIndex.1]; exact used
    have usedParent : (fs'.node parent).used := by
      rw [sameParent.1]
      exact sound.used_of_reaches reaches
    have avoids := cleared.avoids (fun e there n => (apart e there n).2.2)
      (avoids_of_climbs climbed) staysParent
    have nodes := node_setNode fs' index (fun node =>
      { node with name := name, parent := some parent })
    have self := nodes index
    rw [if_pos ⟨rfl, lt_of_used usedIndex⟩] at self
    have others : ∀ i, i ≠ index → ((fs'.setNode index fun node =>
        { node with name := name, parent := some parent }).node i).core = (fs'.node i).core := by
      intro i away
      rw [nodes i, if_neg fun both => away both.1]
    apply cleared.tends.trans
    apply cleared.tends.sound.rewrite others
    · rw [self]
      refine ⟨notRoot, fun child away under => ?_, fun seat up entry above => ?_,
        fun seat up entry above other found' away there below => ?_⟩
      · obtain ⟨seat, entry, dir⟩ := cleared.tends.sound.shaped.parents under
        obtain ⟨-, rfl⟩ := seat_eq_some entry
        exact ⟨_, parent, seat_of_used usedIndex, dir, rfl⟩
      · obtain ⟨-, rfl⟩ := seat_eq_some entry
        obtain rfl : parent = up := Option.some.inj above
        exact ⟨avoids, _, seat_of_used usedParent, by rw [sameParent.2.1]; exact isDir⟩
      obtain ⟨-, rfl⟩ := seat_eq_some entry
      obtain rfl : parent = up := Option.some.inj above
      obtain ⟨usedOther, rfl⟩ := seat_eq_some there
      intro sameName
      -- the other entry is still one of the old directory, so the check saw it
      have stays := staysOf other fun e there isRoot gone =>
        cleared.gone e there isRoot parent (under_iff.mpr (gone ▸ ⟨usedOther, below⟩))
      have same := core_eq (cleared.others other stays)
      rw [same.1] at usedOther
      have nameOther : (fs.node other).name = name := same.2.2.2.1.symm.trans sameName
      have belowOther : (fs.node other).parent = some parent := same.2.2.1.symm.trans below
      unfold nameFree at fresh
      split at fresh
      · rename_i missing
        exact findChild_none missing usedOther belowOther nameOther
      rename_i seen caught
      obtain ⟨usedSeen, belowSeen, nameSeen⟩ := findChild_some caught
      have twin : seen = other := sound.shaped.siblings
        (seat_of_used usedSeen) (seat_of_used usedOther) belowSeen
        belowOther (nameSeen.trans nameOther.symm)
      rcases Bool.or_eq_true _ _ |>.mp fresh with isIndex | gone
      · exact away (twin.symm.trans (of_decide_eq_true isIndex))
      obtain ⟨there', notRoot'⟩ := Bool.and_eq_true _ _ |>.mp gone
      rw [twin] at there' notRoot'
      rcases stays with other' | isRoot
      · exact other' (of_decide_eq_true there')
      · exact of_decide_eq_true notRoot' isRoot
    · rw [self]
    rw [self]
    intro unused
    rw [usedIndex] at unused
    cases unused
  · exact sound.stay

end Fs

end Spore.Ramfs
