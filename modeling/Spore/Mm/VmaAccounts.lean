import Spore.Mm.Pmm
import Spore.Mm.VmaMap

/-!
# Area lists on physical memory

The list functions run on the page allocator and the node counters of the file systems. The
chunks of a list are in the hand of whoever has the list; every list function trades them
with the allocator and keeps the accounts of all other owners.
-/

namespace Spore.Mm

open Spore.Lib

variable {F : Type} {pa start stop fileStart fileOffset fileSize : Nat}

/-- What the list functions call, on physical memory. -/
def physVmaHost (host : FileHost F) : VmaHost (Phys F) where
  chunkAlloc := Phys.allocZeroPage
  chunkFree pa phys := if pa = 0 then phys else phys.freePage pa
  retainNode node phys := phys.kernelPages (host.retainNode node phys.files)
  releaseNode node phys := phys.kernelPages (host.releaseNode node phys.files)
  noteSharedWritableMapping node add phys :=
    { phys with files := host.noteSharedWritableMapping node add phys.files }

/-- The pages of a list. -/
def VmaList.pages (list : VmaList) : Multiset Nat := (list.chunkPa.map (· / pageSize) : List Nat)

/-- An empty list has no pages. -/
@[simp] theorem VmaList.pages_init : VmaList.init.pages = 0 := rfl

/-- A chunk adds its page. -/
theorem pages_append (chunks : List Nat) :
    (((chunks ++ [pa]).map (· / pageSize) : List Nat) : Multiset Nat) =
      pa / pageSize ::ₘ (chunks.map (· / pageSize) : List Nat) := by
  rw [List.map_append, Multiset.cons_coe, Multiset.coe_eq_coe]
  exact List.perm_append_singleton _ _

section

variable {Owner : Type} {refs : Owner → Nat → Prop} {hand : Multiset Nat} {phys : Phys F}
  {list : VmaList} (host : FileHost F)

/-- A list function trades the pages of one list for those of another. -/
abbrev ListTrades (refs : Owner → Nat → Prop) (hand : Multiset Nat) (list : VmaList)
    (phys : Phys F) (list' : VmaList) (phys' : Phys F) : Prop :=
  Phys.Trades refs (list.pages + hand) phys (list'.pages + hand) phys'

/-- File references trade no page of ours. -/
theorem trades_nodes (hand₁ : Multiset Nat) (phys₁ : Phys F) :
    NodeKeeps (physVmaHost host) (Phys.Trades refs hand₁ phys₁ hand) where
  retain traded := traded.trans (Phys.trades_kernelPages traded.accounts _)
  release traded := traded.trans (Phys.trades_kernelPages traded.accounts _)
  note traded := traded.trans (Phys.trades_files traded.accounts _)

/-- Every list that comes from another by list functions has been traded for it. -/
theorem trades_rule (hand₁ : Multiset Nat) (phys₁ : Phys F) :
    ListRule (physVmaHost host) (fun _ => True) fun list phys =>
      Phys.Trades refs hand₁ phys₁ (list.pages + hand) phys := by
  apply ListRule.of_chunks fun chunks phys =>
    Phys.Trades refs hand₁ phys₁ ((chunks.map (· / pageSize) : List Nat) + hand) phys
  · exact fun _ => trades_nodes host hand₁ phys₁
  · intro chunks phys phys' pa traded taken
    rw [pages_append, Multiset.cons_add]
    exact traded.trans (Phys.trades_allocZeroPage traded.accounts taken).1

/-- A chunk is freed. -/
theorem chunkFree_trades (pa : Nat) (accounts : phys.Accounts refs (pa / pageSize ::ₘ hand)) :
    Phys.Trades refs (pa / pageSize ::ₘ hand) phys hand ((physVmaHost host).chunkFree pa phys) := by
  dsimp only [physVmaHost]
  split
  · have dropped : phys.Accounts refs hand := by
      rw [Phys.Accounts, Multiset.cons_add] at accounts
      exact accounts.drop
    exact ⟨dropped, fun _ _ _ single => single, rfl, fun _ _ _ => rfl⟩
  · exact Phys.trades_free accounts

/-- The chunks of a list are freed. -/
theorem vmaListDestroy_trades (list : VmaList) (accounts : phys.Accounts refs (list.pages + hand)) :
    Phys.Trades refs (list.pages + hand) phys hand
      (vmaListDestroy (physVmaHost host) list phys) := by
  have loop : ∀ (chunks : List Nat) {phys : Phys F},
      phys.Accounts refs ((chunks.map (· / pageSize) : List Nat) + hand) →
      Phys.Trades refs ((chunks.map (· / pageSize) : List Nat) + hand) phys hand
        (chunks.foldl (fun world pa => (physVmaHost host).chunkFree pa world) phys) := by
    intro chunks
    induction chunks with
    | nil =>
      intro phys accounts
      simpa using Phys.Trades.refl accounts
    | cons pa rest ih =>
      intro phys accounts
      simp only [List.map_cons, ← Multiset.cons_coe, Multiset.cons_add] at accounts ⊢
      have freed := chunkFree_trades host pa accounts
      exact freed.trans (ih freed.accounts)
  have released := (trades_nodes host _ _).releaseSlots list.slots (.refl accounts)
  exact released.trans (loop list.chunkPa released.accounts)

/-- A rebuilt list trades its chunks for new ones. -/
theorem rebuild_trades (parts : Vma → List Vma)
    (accounts : phys.Accounts refs (list.pages + hand)) :
    ListTrades refs hand list phys (rebuild (physVmaHost host) parts list phys).2.1
      (rebuild (physVmaHost host) parts list phys).2.2 := by
  -- Both lists are in hand until one of them is destroyed.
  have rule : ListRule (physVmaHost host) (fun _ => True) fun next between =>
      Phys.Trades refs (list.pages + hand) phys (next.pages + (list.pages + hand)) between :=
    trades_rule host _ _
  have start : Phys.Trades refs (list.pages + hand) phys (VmaList.init.pages + (list.pages + hand))
      phys := by
    simpa using Phys.Trades.refl accounts
  obtain ⟨next, between, traded, done | failed⟩ :=
    rule.rebuild parts list phys (fun _ _ _ _ _ => trivial) start
  · rw [add_left_comm] at traded
    rw [done]
    exact traded.trans (vmaListDestroy_trades host list traded.accounts)
  · rw [failed]
    exact traded.trans (vmaListDestroy_trades host next traded.accounts)

/-- An insertion trades at most a new chunk. -/
theorem vmaInsert_trades (start stop : Nat) (prot flags : UInt32) (type : VmaType)
    (accounts : phys.Accounts refs (list.pages + hand)) :
    ListTrades refs hand list phys
      (vmaInsert (physVmaHost host) list start stop prot flags type phys).2.1
      (vmaInsert (physVmaHost host) list start stop prot flags type phys).2.2 :=
  (vmaInsert_cases _ list start stop prot flags type phys).keeps (trades_rule host _ _)
    (.refl accounts) fun _ traded => traded

/-- So does one of a file. -/
theorem vmaInsertFile_trades (prot flags : UInt32) (node : Option VfsNode)
    (accounts : phys.Accounts refs (list.pages + hand)) :
    ListTrades refs hand list phys
      (vmaInsertFile (physVmaHost host) list start stop prot flags node fileStart fileOffset
        fileSize phys).2.1
      (vmaInsertFile (physVmaHost host) list start stop prot flags node fileStart fileOffset
        fileSize phys).2.2 := by
  cases node with
  | none => exact .refl accounts
  | some node =>
    exact (vmaInsertFile_cases _ list start stop prot flags node fileStart fileOffset fileSize
      phys).keeps (trades_rule host _ _) (.refl accounts) fun _ traded =>
        (trades_nodes host _ _).retainFile _ traded

/-- A removal is a rebuilding. -/
theorem vmaRemove_trades (start stop : Nat) (accounts : phys.Accounts refs (list.pages + hand)) :
    ListTrades refs hand list phys (vmaRemove (physVmaHost host) list start stop phys).2.1
      (vmaRemove (physVmaHost host) list start stop phys).2.2 := by
  unfold vmaRemove
  split
  · exact .refl accounts
  · exact rebuild_trades host _ accounts

/-- So is a change of rights. -/
theorem vmaProtect_trades (start stop : Nat) (prot : UInt32)
    (accounts : phys.Accounts refs (list.pages + hand)) :
    ListTrades refs hand list phys (vmaProtect (physVmaHost host) list start stop prot phys).2.1
      (vmaProtect (physVmaHost host) list start stop prot phys).2.2 := by
  unfold vmaProtect
  split
  · exact .refl accounts
  · exact rebuild_trades host _ accounts

/-- A clone has its own chunks. -/
theorem vmaClone_trades (list : VmaList) (accounts : phys.Accounts refs hand) :
    match vmaClone (physVmaHost host) list phys with
    | .ok (next, phys') => Phys.Trades refs hand phys (next.pages + hand) phys'
    | .error phys' => Phys.Trades refs hand phys hand phys' := by
  have start : Phys.Trades refs hand phys (VmaList.init.pages + hand) phys := by
    simpa using Phys.Trades.refl accounts
  have built := (trades_rule host hand phys).addParts (list.slots.filter (·.used))
    (fun _ _ => trivial) start
  unfold vmaClone
  split <;> rename_i outcome <;> rw [outcome] at built
  · exact built
  · obtain ⟨next, between, traded, rfl⟩ := built
    exact traded.trans (vmaListDestroy_trades host next traded.accounts)

end

end Spore.Mm
