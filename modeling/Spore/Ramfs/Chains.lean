import Spore.Ramfs.Shape
import Spore.Lib.Chain
import Spore.Lib.Loop
import Mathlib.Data.List.Nodup

/-!
# The page chains of the memory file system

Every file's pages form a chain of slots that belong to it and carry distinct page numbers,
and the free slots form a chain of their own. `Backed` states this with the chains as
witnesses; each primitive of the backing table is given by what it does to them.
-/

namespace Spore.Ramfs

open Function Spore.Lib BackingPage List

variable {filePage first count index i fuel : Nat}

/-- A node without the head of its chain. -/
def MemNode.headless (node : MemNode) : MemNode := { node with firstPage := none }

/-- The fields of a slot that say where it belongs. -/
def BackingPage.place (page : BackingPage) : Bool × Option Nat × Option Nat × Nat :=
  (page.used, page.next, page.owner, page.filePage)

namespace Fs

variable {fs after a b c : Fs} {chains : Nat → List Nat} {free slots : List Nat} {i s : Nat}

/-! ## Reading slots -/

/-- What a change of one slot does to each. -/
theorem slot_setSlot (fs : Fs) (change : BackingPage → BackingPage) :
    (fs.setSlot index change).slot i =
      if i = index ∧ index < fs.backing.length then change (fs.slot index) else fs.slot i := by
  unfold slot setSlot
  by_cases same : index = i
  · subst same
    by_cases inside : index < fs.backing.length
    · simp [inside]
    · simp [inside]
  · have apart : ¬ i = index := fun h => same h.symm
    simp [same, apart]

/-- What a change of a slot does not touch stays. -/
theorem view_setSlot {View : Type} (view : BackingPage → View) {fs : Fs}
    {change : BackingPage → BackingPage} (t : Nat)
    (same : ∀ page, view (change page) = view page := by intro page; rfl) :
    view ((fs.setSlot index change).slot t) = view (fs.slot t) := by
  rw [slot_setSlot]
  split
  · rename_i here
    rw [same, here.1]
  · rfl

/-- A used slot lies in the table. -/
theorem slot_lt_of_used {fs : Fs} {index : Nat} (used : (fs.slot index).used) :
    index < fs.backing.length := by
  by_contra outside
  have missing : fs.backing[index]? = none := getElem?_eq_none (by omega)
  simp [slot, getD_eq_getElem?_getD, missing, clear] at used

/-- Outside the table slots read as clear. -/
theorem slot_of_length_le {fs : Fs} {index : Nat} (outside : fs.backing.length ≤ index) :
    fs.slot index = .clear := by
  have missing : fs.backing[index]? = none := getElem?_eq_none outside
  simp [slot, getD_eq_getElem?_getD, missing]

/-- The link of a slot to the next page of its file. -/
def nextOf (fs : Fs) (index : Nat) : Option Nat := (fs.slot index).next

/-- The link of a free slot to the next one. -/
def freeNextOf (fs : Fs) (index : Nat) : Option Nat := (fs.slot index).freeNext

/-! ## The two kinds of chain -/

/-- The pages of each used node form a chain of its own slots, one for each page number. -/
structure Filed (fs : Fs) (chains : Nat → List Nat) : Prop where
  /-- The list is the chain. -/
  chain : ∀ {i}, (fs.node i).used = true → Chain fs.nextOf (fs.node i).firstPage (chains i)
  /-- Its slots are used and owned. -/
  owned : ∀ {i}, (fs.node i).used = true → ∀ {s}, s ∈ chains i →
    (fs.slot s).used = true ∧ (fs.slot s).owner = some i
  /-- Page numbers differ. -/
  distinct : ∀ {i}, (fs.node i).used = true → ((chains i).map fun s => (fs.slot s).filePage).Nodup

/-- The unused slots form a chain, and the count of the others is right. -/
structure Listed (fs : Fs) (free : List Nat) : Prop where
  /-- The list is the chain that starts at the head of the free list. -/
  chain : Chain fs.freeNextOf fs.freeHead free
  /-- Its slots are slots of the table and not in use. -/
  vacant : ∀ {s}, s ∈ free → s < fs.backing.length ∧ (fs.slot s).used = false
  /-- Every slot of the table off the chain is in use. -/
  busy : ∀ {s}, s < fs.backing.length → s ∉ free → (fs.slot s).used = true
  /-- No slot is on the chain twice. -/
  nodup : free.Nodup
  /-- The count of used slots is that of the slots off the chain. -/
  counted : fs.usedCount + free.length = fs.backing.length
  /-- The table does not outgrow its limit. -/
  bounded : fs.backing.length ≤ maxBackingPages

section

variable (filed : fs.Filed chains)

include filed

/-- A slot belongs to one file. -/
theorem Filed.apart {j : Nat} (usedI : (fs.node i).used)
    (usedJ : (fs.node j).used) (inI : s ∈ chains i) (inJ : s ∈ chains j) : i = j := by
  have first := (filed.owned usedI inI).2
  have second := (filed.owned usedJ inJ).2
  exact Option.some.inj (first.symm.trans second)

/-- The chain of a file has no slot twice. -/
theorem Filed.nodup (used : (fs.node i).used) :
    (chains i).Nodup := List.Nodup.of_map _ (filed.distinct used)

/-- No chain is longer than the table. -/
theorem Filed.length_le (used : (fs.node i).used) : (chains i).length ≤ fs.backing.length :=
  length_le_of_nodup (filed.nodup used) fun _ listed => slot_lt_of_used (filed.owned used listed).1

/-- The chains of the files depend on the nodes and on the places of their slots. -/
theorem Filed.congr
    (nodes : ∀ i, (after.node i).used →
      (fs.node i).used ∧ (after.node i).firstPage = (fs.node i).firstPage)
    (slots : ∀ i, (after.node i).used → ∀ s ∈ chains i,
      (after.slot s).place = (fs.slot s).place) : after.Filed chains := by
  simp only [place, Prod.mk.injEq] at slots
  constructor
  · intro i used
    rw [(nodes i used).2]
    refine .congr ?_ (filed.chain (nodes i used).1)
    exact fun s listed => (slots i used s listed).2.1
  · intro i used s listed
    rw [(slots i used s listed).1, (slots i used s listed).2.2.1]
    exact filed.owned (nodes i used).1 listed
  intro i used
  have same := map_congr_left fun s listed => (slots i used s listed).2.2.2
  rw [same]
  exact filed.distinct (nodes i used).1

end

/-- A slot in use is not free. -/
theorem Listed.not_mem (listed : fs.Listed free) (used : (fs.slot s).used) : s ∉ free := by
  intro here
  rw [(listed.vacant here).2] at used
  cases used

/-- The free chain depends on its own slots and on the counters. -/
theorem Listed.congr (listed : fs.Listed free) (head : after.freeHead = fs.freeHead)
    (count : after.usedCount = fs.usedCount) (length : after.backing.length = fs.backing.length)
    (links : ∀ s ∈ free, (after.slot s).freeNext = (fs.slot s).freeNext)
    (uses : ∀ s, (after.slot s).used = (fs.slot s).used) : after.Listed free where
  chain := by
    rw [head]
    exact .congr links listed.chain
  vacant := by
    intro s here
    rw [length, uses]
    exact listed.vacant here
  busy := by
    intro s inside
    rw [uses]
    exact listed.busy (length ▸ inside)
  nodup := listed.nodup
  counted := by rw [count, length, listed.counted]
  bounded := by rw [length]; exact listed.bounded

/-! ## Looking up a page -/

/-- The slot of a list that holds the page. -/
def slotIn (fs : Fs) (slots : List Nat) (filePage : Nat) : Option Nat :=
  slots.find? fun s => decide ((fs.slot s).filePage = filePage)

/-- The walk along a chain finds the slot that the list has. -/
theorem findPageFrom_eq : ∀ {start : Option Nat} {slots : List Nat},
    Chain fs.nextOf start slots → slots.length < fuel →
      fs.findPageFrom filePage fuel start = fs.slotIn slots filePage := by
  induction fuel with
  | zero => exact fun _ short => absurd short (Nat.not_lt_zero _)
  | succ fuel ih =>
    intro start slots chain short
    cases slots with
    | nil =>
      rw [show start = none from chain]
      rfl
    | cons s rest =>
      rw [chain.1, findPageFrom, slotIn, find?_cons]
      by_cases here : (fs.slot s).filePage = filePage
      · simp [here]
      · simp only [here, if_false, decide_false]
        exact ih chain.2 (by simpa using short)

/-- `find_backing_page` finds the slot of the page. -/
theorem Filed.findBackingPage (filed : fs.Filed chains) (used : (fs.node i).used)
    (filePage : Nat) : fs.findBackingPage i filePage = fs.slotIn (chains i) filePage := by
  have short := filed.length_le used
  exact findPageFrom_eq (filed.chain used) (by omega)

/-- What is found is on the list and has the number. -/
theorem slotIn_some {filePage : Nat} (found : fs.slotIn slots filePage = some s) :
    s ∈ slots ∧ (fs.slot s).filePage = filePage :=
  ⟨mem_of_find?_eq_some found, by simpa using find?_some found⟩

/-- What is not found is not there. -/
theorem slotIn_none {filePage : Nat} (missing : fs.slotIn slots filePage = none)
    (listed : s ∈ slots) : (fs.slot s).filePage ≠ filePage := by
  simpa using find?_eq_none.mp missing s listed

/-- With distinct page numbers the slot of a page is the only one. -/
theorem slotIn_of_mem (distinct : (slots.map fun s => (fs.slot s).filePage).Nodup)
    (listed : s ∈ slots) : fs.slotIn slots (fs.slot s).filePage = some s := by
  cases found : fs.slotIn slots (fs.slot s).filePage with
  | none => exact (slotIn_none found listed rfl).elim
  | some t =>
    obtain ⟨listed', same⟩ := slotIn_some found
    rw [inj_on_of_nodup_map distinct listed' listed same]

/-- The search reads page numbers only. -/
theorem slotIn_congr (filePage : Nat)
    (same : ∀ s ∈ slots, (b.slot s).filePage = (a.slot s).filePage) :
    b.slotIn slots filePage = a.slotIn slots filePage := by
  induction slots with
  | nil => rfl
  | cons s rest ih =>
    have here := same s (mem_cons_self ..)
    have later := ih fun t listed => same t (mem_cons_of_mem s listed)
    unfold slotIn at later ⊢
    rw [find?_cons, find?_cons, here, later]

/-- The bytes of a page of a file: those of its slot, or zeros. -/
def dataIn (fs : Fs) (slots : List Nat) (filePage : Nat) : Nat → UInt8 :=
  match fs.slotIn slots filePage with
  | some s => (fs.slot s).data
  | none => fun _ => 0

/-- Slots that agree on number and data give the same bytes. -/
theorem dataIn_congr (filePage : Nat)
    (same : ∀ s ∈ slots, (b.slot s).filePage = (a.slot s).filePage ∧
      (b.slot s).data = (a.slot s).data) : b.dataIn slots filePage = a.dataIn slots filePage := by
  have found := slotIn_congr filePage fun s listed => (same s listed).1
  unfold dataIn
  rw [found]
  cases here : a.slotIn slots filePage with
  | none => rfl
  | some s => exact (same s (slotIn_some here).1).2

/-! ## Taking and returning slots -/

/-- The slot is in no file's chain. -/
def Loose (fs : Fs) (chains : Nat → List Nat) (s : Nat) : Prop :=
  ∀ i, (fs.node i).used = true → s ∉ chains i

/-- A change of a slot that is in no file's chain. -/
theorem Filed.setLoose (filed : fs.Filed chains) (loose : fs.Loose chains s)
    (nodes : after.nodes = fs.nodes) (slots : ∀ t, t ≠ s → after.slot t = fs.slot t) :
    after.Filed chains := by
  have sameNode : ∀ i, after.node i = fs.node i := fun i => by rw [node, node, nodes]
  apply filed.congr
  · intro i used
    rw [sameNode] at used ⊢
    exact ⟨used, rfl⟩
  · intro i used t listed
    rw [sameNode] at used
    rw [slots t fun same => loose i used (same ▸ listed)]

/-- What taking slots leaves alone: the nodes and every slot in use. Answers are only used
up. -/
structure Calm (before after : Fs) : Prop where
  /-- Nodes stay. -/
  nodes : after.nodes = before.nodes
  /-- The next number stays. -/
  nextIno : after.nextIno = before.nextIno
  /-- Used slots stay. -/
  slots : ∀ {t}, (before.slot t).used = true → after.slot t = before.slot t
  /-- Answers are used up. -/
  answers : ∀ {answer}, answer ∈ after.answers → answer ∈ before.answers

/-- Nothing is taken. -/
theorem Calm.refl (fs : Fs) : fs.Calm fs := ⟨rfl, rfl, fun _ => rfl, id⟩

/-- Slots are taken in two steps. -/
theorem Calm.trans (first : a.Calm b) (second : b.Calm c) : a.Calm c where
  nodes := second.nodes.trans first.nodes
  nextIno := second.nextIno.trans first.nextIno
  slots := by
    intro t used
    have same := first.slots used
    rw [← same] at used
    exact (second.slots used).trans same
  answers := fun here => first.answers (second.answers here)

/-- Nodes are as before. -/
theorem Calm.node {before : Fs} (calm : before.Calm after) (i : Nat) :
    after.node i = before.node i := by
  rw [Fs.node, Fs.node, calm.nodes]

/-- The chains of the files stay. -/
theorem Calm.filed (calm : fs.Calm after) (filed : fs.Filed chains) : after.Filed chains := by
  apply filed.congr
  · intro i used
    rw [calm.node] at used ⊢
    exact ⟨used, rfl⟩
  · intro i used s listed
    rw [calm.node] at used
    rw [calm.slots (filed.owned used listed).1]

/-- A slot handed out: fresh and in no chain. -/
structure Hands (fs after : Fs) (chains : Nat → List Nat) (s : Nat) : Prop where
  /-- Nothing else changes. -/
  calm : fs.Calm after
  /-- The free chain is in order. -/
  listed : ∃ free, after.Listed free
  /-- The slot is clear. -/
  fresh : after.slot s = { BackingPage.clear with used := true }
  /-- It is on no chain. -/
  loose : after.Loose chains s
  /-- It is counted. -/
  count : after.usedCount = fs.usedCount + 1

/-- The slot that is changed. -/
theorem slot_setSlot_self {index : Nat} (inside : index < fs.backing.length)
    (change : BackingPage → BackingPage) :
    (fs.setSlot index change).slot index = change (fs.slot index) := by
  rw [slot_setSlot, if_pos ⟨rfl, inside⟩]

/-- The others. -/
theorem slot_setSlot_ne {index : Nat} (apart : i ≠ index) (change : BackingPage → BackingPage) :
    (fs.setSlot index change).slot i = fs.slot i := by
  rw [slot_setSlot, if_neg fun both => apart both.1]

/-- The table keeps its length. -/
theorem length_setSlot (fs : Fs) (index : Nat) (change : BackingPage → BackingPage) :
    (fs.setSlot index change).backing.length = fs.backing.length := length_modify ..

/-- The free list gives its first slot. -/
theorem takeFreeSlot_hands (filed : fs.Filed chains) {rest : List Nat}
    (listed : fs.Listed (s :: rest)) :
    fs.takeFreeSlot.1 = some s ∧ fs.Hands fs.takeFreeSlot.2 chains s := by
  obtain ⟨inside, unused⟩ := listed.vacant (mem_cons_self ..)
  have head : fs.freeHead = some s := listed.chain.1
  have nodup := nodup_cons.mp listed.nodup
  rw [takeFreeSlot, head]
  set after : Fs := { fs.setSlot s (fun _ => { clear with used := true }) with
    freeHead := (fs.slot s).freeNext, usedCount := fs.usedCount + 1 }
  have others : ∀ t, t ≠ s → after.slot t = fs.slot t := fun t apart => slot_setSlot_ne apart _
  have apart : ∀ t ∈ rest, t ≠ s := fun t here same => nodup.1 (same ▸ here)
  have sameLength : after.backing.length = fs.backing.length := length_setSlot ..
  have calm : fs.Calm after := by
    refine ⟨rfl, rfl, fun {t} used => others t ?_, id⟩
    rintro rfl
    rw [used] at unused
    cases unused
  refine ⟨rfl, calm, ⟨rest, ?_⟩, slot_setSlot_self inside _, ?_, rfl⟩
  · constructor
    · refine .congr (fun t here => ?_) listed.chain.2
      rw [freeNextOf, freeNextOf, others t (apart t here)]
    · intro t here
      rw [sameLength, others t (apart t here)]
      exact listed.vacant (mem_cons_of_mem s here)
    · intro t below away
      by_cases same : t = s
      · rw [same]
        exact congrArg BackingPage.used (slot_setSlot_self inside _)
      · rw [others t same]
        refine listed.busy (sameLength ▸ below) fun member => ?_
        exact (mem_cons.mp member).elim same away
    · exact nodup.2
    · have counted := listed.counted
      rw [length_cons] at counted
      rw [sameLength]
      show fs.usedCount + 1 + _ = _
      omega
    · rw [sameLength]
      exact listed.bounded
  · intro i used listed
    rw [(filed.owned used listed).1] at unused
    cases unused

/-- The slots `initBackingRange` strings together, the last one first. -/
def newSlots (first count : Nat) : List Nat := ((List.range count).map (first + ·)).reverse

/-- The next slot goes to the front. -/
theorem newSlots_succ : newSlots first (count + 1) = (first + count) :: newSlots first count := by
  simp [newSlots, range_succ]

/-- The new slots are those of the range. -/
theorem mem_newSlots {first count : Nat} :
    s ∈ newSlots first count ↔ first ≤ s ∧ s < first + count := by
  simp only [newSlots, mem_reverse, mem_map, mem_range]
  constructor
  · rintro ⟨k, below, rfl⟩
    omega
  · intro bounds
    exact ⟨s - first, by omega, by omega⟩

/-- There are as many as were added. -/
theorem length_newSlots : (newSlots first count).length = count := by
  simp [newSlots]

/-- None is there twice. -/
theorem nodup_newSlots (first count : Nat) : (newSlots first count).Nodup := by
  refine nodup_reverse.mpr (List.Nodup.map ?_ nodup_range)
  intro a b same
  exact Nat.add_left_cancel same

/-- `init_backing_range` after some rounds: the slots so far are strung together and no other
slot has changed. -/
structure Strung (fs after : Fs) (first count : Nat) : Prop where
  /-- The new slots form the free chain. -/
  chain : Chain after.freeNextOf after.freeHead (newSlots first count)
  /-- Other slots stay. -/
  slots : ∀ {t}, t ∉ newSlots first count → after.slot t = fs.slot t
  /-- No slot is taken. -/
  used : ∀ t, (after.slot t).used = (fs.slot t).used
  /-- The table is as large. -/
  length : after.backing.length = fs.backing.length
  /-- No slot is counted. -/
  count : after.usedCount = fs.usedCount
  /-- Nodes stay. -/
  nodes : after.nodes = fs.nodes
  /-- The next number stays. -/
  nextIno : after.nextIno = fs.nextIno
  /-- Answers stay. -/
  answers : after.answers = fs.answers

/-- `init_backing_range` strings the range together, by induction over its rounds. -/
theorem strung_initBackingRange (empty : fs.freeHead = none) {first count : Nat}
    (inside : first + count ≤ fs.backing.length) :
    fs.Strung (fs.initBackingRange first count) first count := by
  apply foldl_range_moves (fun k after => fs.Strung after first k)
  · exact ⟨empty, fun _ => rfl, fun _ => rfl, rfl, rfl, rfl, rfl, rfl⟩
  intro k state below strung
  have here : first + k < state.backing.length := by
    rw [strung.length]
    omega
  have beyond : first + k ∉ newSlots first k := by
    rw [mem_newSlots]
    omega
  have unchanged : ∀ t, t ≠ first + k → ∀ change,
      (state.setSlot (first + k) change).slot t = state.slot t :=
    fun t apart change => slot_setSlot_ne apart change
  constructor
  · rw [newSlots_succ]
    refine ⟨rfl, ?_⟩
    have link := congrArg freeNext (slot_setSlot_self here
      fun page => { page with next := none, freeNext := state.freeHead, owner := none })
    refine Eq.subst (motive := fun head => Lib.Chain _ head _) link.symm ?_
    refine .congr (fun t listed => ?_) strung.chain
    have apart : t ≠ first + k := fun same => beyond (same ▸ listed)
    exact congrArg freeNext (unchanged t apart _)
  · intro t outside
    rw [newSlots_succ, mem_cons, not_or] at outside
    exact (unchanged t outside.1 _).trans (strung.slots outside.2)
  · exact fun t => (view_setSlot used t).trans (strung.used t)
  · exact (length_setSlot ..).trans strung.length
  · exact strung.count
  · exact strung.nodes
  · exact strung.nextIno
  · exact strung.answers

/-- The table can grow while it is below its limit. -/
theorem grownCapacity_bounds (old : Nat) (small : old ≤ maxBackingPages) :
    grownCapacity old ≤ maxBackingPages ∧ (old < maxBackingPages → old < grownCapacity old) := by
  unfold grownCapacity initialBackingPages maxBackingPages pageBytes at *
  dsimp only
  split <;> split <;> omega

/-- A request uses up an answer. -/
theorem askPages_eq (fs : Fs) : ∃ answers, fs.askPages.2 = { fs with answers } ∧
    ∀ {answer}, answer ∈ answers → answer ∈ fs.answers := by
  unfold askPages
  split
  · exact ⟨fs.answers, rfl, id⟩
  · rename_i answer rest answers
    rw [answers]
    exact ⟨rest, rfl, mem_cons_of_mem answer⟩

/-- A request takes no slot. -/
theorem askPages_calm (fs : Fs) : fs.Calm fs.askPages.2 := by
  obtain ⟨answers, asked, fewer⟩ := askPages_eq fs
  rw [asked]
  exact ⟨rfl, rfl, fun _ => rfl, fewer⟩

/-- A request leaves the free chain. -/
theorem askPages_listed (listed : fs.Listed free) : fs.askPages.2.Listed free := by
  obtain ⟨answers, asked, _⟩ := askPages_eq fs
  rw [asked]
  exact listed.congr rfl rfl rfl (fun _ _ => rfl) fun _ => rfl

/-- Only an answer of the list refuses. -/
theorem askPages_granted (granting : false ∉ fs.answers) : fs.askPages.1 := by
  unfold askPages
  split
  · rfl
  · rename_i answer rest answers
    rw [answers, mem_cons, not_or] at granting
    simpa using granting.1

/-- The table with more slots at its end. -/
def extended (fs : Fs) (count : Nat) : Fs :=
  { fs with backing := fs.backing ++ List.replicate count BackingPage.clear }

/-- New slots read as clear, as they did before. -/
theorem slot_extended : (fs.extended count).slot i = fs.slot i := by
  unfold slot extended
  simp only [getD_eq_getElem?_getD]
  by_cases inside : i < fs.backing.length
  · rw [getElem?_append_left inside]
  have outside : fs.backing.length ≤ i := by omega
  rw [getElem?_append_right outside, getElem?_eq_none outside]
  cases found : (replicate count clear)[i - fs.backing.length]? with
  | none => rfl
  | some page =>
    rw [eq_of_mem_replicate (mem_of_getElem? found)]
    rfl

/-- The slots that are added are strung together. -/
theorem strung_extended (empty : fs.freeHead = none) (count : Nat) :
    (fs.extended count).Strung
      ((fs.extended count).initBackingRange fs.backing.length count) fs.backing.length count := by
  have length : (fs.extended count).backing.length = fs.backing.length + count := by
    simp [extended]
  apply strung_initBackingRange
  · exact empty
  · omega

section

variable (listed : fs.Listed [])

include listed

/-- The slots an exhausted table grows by are free. -/
theorem extended_listed {count : Nat} (room : fs.backing.length + count ≤ maxBackingPages) :
    ((fs.extended count).initBackingRange fs.backing.length count).Listed
      (newSlots fs.backing.length count) := by
  have length : (fs.extended count).backing.length = fs.backing.length + count := by
    simp [extended]
  have strung := strung_extended listed.chain count
  constructor
  · exact strung.chain
  · intro s here
    have bounds := mem_newSlots.mp here
    rw [strung.length, strung.used, slot_extended, slot_of_length_le bounds.1, length]
    exact ⟨bounds.2, rfl⟩
  · intro s inside away
    rw [strung.length, length] at inside
    rw [mem_newSlots] at away
    rw [strung.used, slot_extended]
    exact listed.busy (by omega) not_mem_nil
  · exact nodup_newSlots ..
  · have counted := listed.counted
    rw [length_nil] at counted
    rw [strung.count, strung.length, length, length_newSlots]
    show fs.usedCount + count = _
    omega
  · rw [strung.length, length]
    exact room

/-- Growth takes no slot. -/
theorem extended_calm : fs.Calm ((fs.extended count).initBackingRange fs.backing.length count) := by
  have strung := strung_extended listed.chain count
  refine ⟨strung.nodes, strung.nextIno, fun {t} used => ?_, fun here => ?_⟩
  · have inside := slot_lt_of_used used
    rw [strung.slots (by rw [mem_newSlots]; omega), slot_extended]
  · rw [strung.answers] at here
    exact here

/-- Growing an exhausted table: it stays as it is, or there are free slots. -/
theorem growBackingPages_spec :
    fs.Calm fs.growBackingPages.2 ∧ fs.growBackingPages.2.usedCount = fs.usedCount ∧
      ∃ free, fs.growBackingPages.2.Listed free ∧ (fs.growBackingPages.1 ↔ free ≠ []) := by
  have bounds := grownCapacity_bounds fs.backing.length listed.bounded
  unfold growBackingPages
  dsimp only
  split
  · exact ⟨.refl fs, rfl, [], listed, by simp⟩
  rename_i more
  have calm := askPages_calm fs
  have still := askPages_listed listed
  have count : fs.askPages.2.usedCount = fs.usedCount ∧
      fs.askPages.2.backing.length = fs.backing.length := by
    obtain ⟨answers, asked, _⟩ := askPages_eq fs
    rw [asked]
    exact ⟨rfl, rfl⟩
  obtain ⟨count, length⟩ := count
  split <;> rename_i asked answer <;> rw [answer] at calm still count length
  · exact ⟨calm, count, [], still, by simp⟩
  dsimp only at length
  rw [← length] at more bounds ⊢
  have room : asked.backing.length + (grownCapacity asked.backing.length -
      asked.backing.length) ≤ maxBackingPages := by omega
  have strung := strung_extended still.chain
    (grownCapacity asked.backing.length - asked.backing.length)
  refine ⟨calm.trans (extended_calm still), strung.count.trans count, _,
    extended_listed still room, fun _ empty => ?_, fun _ => rfl⟩
  have zero := congrArg List.length empty
  rw [length_newSlots, length_nil] at zero
  omega

/-- A table below its limit grows when the allocator does not refuse. -/
theorem growBackingPages_granted (room : fs.usedCount < maxBackingPages)
    (granting : false ∉ fs.answers) : fs.growBackingPages.1 := by
  have counted := listed.counted
  rw [length_nil] at counted
  have more := (grownCapacity_bounds fs.backing.length listed.bounded).2 (by omega)
  have granted := askPages_granted granting
  unfold growBackingPages
  rw [if_neg (by omega)]
  split <;> rename_i answer
  · rw [answer] at granted
    cases granted
  · rfl

end

/-- `alloc_backing_slot`: a slot of its own, or nothing has happened. -/
structure AllocSpec (fs : Fs) (chains : Nat → List Nat) (result : Option Nat × Fs) : Prop where
  /-- Nothing else changes. -/
  calm : fs.Calm result.2
  /-- A slot is handed out. -/
  hands : ∀ {s}, result.1 = some s → fs.Hands result.2 chains s
  /-- A failure takes none. -/
  refused : result.1 = none → result.2.usedCount = fs.usedCount ∧ ∃ free, result.2.Listed free
  /-- It succeeds while there is room. -/
  granted : fs.usedCount < maxBackingPages → false ∉ fs.answers → result.1 ≠ none

/-- A slot that was handed out, as an outcome of the allocation. -/
theorem Hands.spec {result : Option Nat × Fs} (given : result.1 = some s)
    (hands : fs.Hands result.2 chains s) : AllocSpec fs chains result := by
  refine ⟨hands.calm, fun answer => ?_, fun answer => ?_, fun _ _ answer => ?_⟩
  · exact Option.some.inj (given.symm.trans answer) ▸ hands
  · cases given.symm.trans answer
  · cases given.symm.trans answer

/-- The allocation takes a free slot, grows an exhausted table, or fails with nothing done. -/
theorem allocBackingSlot_spec (filed : fs.Filed chains) (listed : fs.Listed free) :
    AllocSpec fs chains fs.allocBackingSlot := by
  unfold allocBackingSlot
  cases free with
  | cons s rest =>
    have head : fs.freeHead = some s := listed.chain.1
    obtain ⟨given, hands⟩ := takeFreeSlot_hands filed listed
    rw [head]
    exact hands.spec given
  | nil =>
    have head : fs.freeHead = none := listed.chain
    obtain ⟨calm, count, free, grown, some_free⟩ := growBackingPages_spec listed
    have granted := growBackingPages_granted listed
    rw [head]
    simp only [Option.isSome_none, Bool.false_eq_true, if_false]
    split <;> rename_i after answer <;> rw [answer] at calm count grown some_free granted
    · refine ⟨calm, (by simp), fun _ => ⟨count, free, grown⟩, fun room granting _ => ?_⟩
      cases granted room granting
    cases free with
    | nil => exact absurd rfl (some_free.mp rfl)
    | cons s rest =>
      obtain ⟨given, hands⟩ := takeFreeSlot_hands (calm.filed filed) grown
      exact Hands.spec given ⟨calm.trans hands.calm, hands.listed, hands.fresh, hands.loose,
        by rw [hands.count, count]⟩

/-- Returning a slot that is in no chain. -/
theorem freeBackingSlot_spec (filed : fs.Filed chains) (listed : fs.Listed free)
    (used : (fs.slot s).used) (loose : fs.Loose chains s) :
    (fs.freeBackingSlot s).Filed chains ∧ (fs.freeBackingSlot s).Listed (s :: free) ∧
      ∀ t, t ≠ s → (fs.freeBackingSlot s).slot t = fs.slot t := by
  have inside := slot_lt_of_used used
  have outside := listed.not_mem used
  have others : ∀ t, t ≠ s → (fs.freeBackingSlot s).slot t = fs.slot t := by
    intro t apart
    simp only [freeBackingSlot, used, if_true]
    exact slot_setSlot_ne apart _
  have here : (fs.freeBackingSlot s).slot s = { clear with freeNext := fs.freeHead } := by
    simp only [freeBackingSlot, used, if_true]
    exact slot_setSlot_self inside _
  have length : (fs.freeBackingSlot s).backing.length = fs.backing.length := by
    simp only [freeBackingSlot, used, if_true]
    exact length_setSlot ..
  have head : (fs.freeBackingSlot s).freeHead = some s := by
    simp only [freeBackingSlot, used, if_true]
  have apart : ∀ t ∈ free, t ≠ s := fun t listed same => outside (same ▸ listed)
  have nodup : (s :: free).Nodup := nodup_cons.mpr ⟨outside, listed.nodup⟩
  refine ⟨filed.setLoose loose (nodes_freeBackingSlot fs) others, ?_, others⟩
  constructor
  · refine ⟨head, ?_⟩
    rw [freeNextOf, here]
    refine .congr (fun t listed => ?_) listed.chain
    rw [freeNextOf, freeNextOf, others t (apart t listed)]
  · intro t member
    rw [length]
    rcases mem_cons.mp member with rfl | member
    · exact ⟨inside, by rw [here]; rfl⟩
    · rw [others t (apart t member)]
      exact listed.vacant member
  · intro t below away
    rw [mem_cons, not_or] at away
    rw [others t away.1]
    exact listed.busy (length ▸ below) away.2
  · exact nodup
  · have counted := listed.counted
    have fits := length_le_of_nodup nodup fun t member => by
      rcases mem_cons.mp member with same | member
      · exact same ▸ inside
      · exact (listed.vacant member).1
    have less : (fs.freeBackingSlot s).usedCount = fs.usedCount - 1 := by
      simp only [freeBackingSlot, used, if_true]
    rw [length_cons] at fits ⊢
    omega
  · rw [length]
    exact listed.bounded

/-! ## One page of a file -/

/-- The nodes are the same but for the heads of their chains, and no number was given out. -/
structure SameNodes (before after : Fs) : Prop where
  /-- Nodes stay, chains apart. -/
  nodes : ∀ i, (after.node i).headless = (before.node i).headless
  /-- The next number stays. -/
  nextIno : after.nextIno = before.nextIno

/-- No node changes. -/
theorem SameNodes.refl (fs : Fs) : fs.SameNodes fs := ⟨fun _ => rfl, rfl⟩

/-- Nodes that stay the same in two steps. -/
theorem SameNodes.trans (first : a.SameNodes b) (second : b.SameNodes c) : a.SameNodes c :=
  ⟨fun i => (second.nodes i).trans (first.nodes i), second.nextIno.trans first.nextIno⟩

/-- The same nodes are used. -/
theorem SameNodes.used (same : a.SameNodes b) (i : Nat) : (b.node i).used = (a.node i).used := by
  have flags := congrArg MemNode.used (same.nodes i)
  exact flags

/-- What `get_backing_page` does to the chains. -/
structure GetSpec (fs : Fs) (chains : Nat → List Nat) (i filePage : Nat)
    (result : Option Nat × Fs) (after : Nat → List Nat) : Prop where
  /-- The chains are in order. -/
  filed : result.2.Filed after
  /-- So is the free chain. -/
  listed : ∃ free, result.2.Listed free
  /-- Nodes stay. -/
  sameNodes : fs.SameNodes result.2
  /-- Other chains stay. -/
  others : ∀ {j}, j ≠ i → after j = chains j
  /-- The slots of the files keep their number and data. -/
  slots : ∀ {j s}, (fs.node j).used = true → s ∈ chains j →
    (result.2.slot s).filePage = (fs.slot s).filePage ∧ (result.2.slot s).data = (fs.slot s).data
  /-- The page was there, or a zeroed slot was put in front, or the call failed. -/
  own : (∃ s, result.1 = some s ∧ fs.slotIn (chains i) filePage = some s ∧ after i = chains i ∧
      result.2.usedCount = fs.usedCount) ∨
    (∃ s, result.1 = some s ∧ fs.slotIn (chains i) filePage = none ∧ after i = s :: chains i ∧
      (result.2.slot s).filePage = filePage ∧ (result.2.slot s).data = (fun _ => 0) ∧
      result.2.usedCount = fs.usedCount + 1) ∨
    (result.1 = none ∧ fs.slotIn (chains i) filePage = none ∧ after i = chains i)
  /-- Answers are used up. -/
  answers : ∀ {answer}, answer ∈ result.2.answers → answer ∈ fs.answers

/-- The state of `attachPage` before it asks for the data page. -/
def linked (fs : Fs) (i filePage s : Nat) : Fs :=
  fs.setSlot s fun page =>
    { page with next := (fs.node i).firstPage, owner := some i, filePage := filePage }

/-- Linking a page, in terms of the state with the linked slot. -/
theorem attachPage_eq :
    fs.attachPage i filePage s =
      if (fs.linked i filePage s).askPages.1 then
        (some s, (fs.linked i filePage s).askPages.2.setNode i
          fun entry => { entry with firstPage := some s })
      else (none, (fs.linked i filePage s).askPages.2.freeBackingSlot s) := by
  unfold attachPage linked
  dsimp only
  split <;> rename_i answer <;> rw [answer] <;> rfl

/-- Nodes after the head of one chain was set. -/
theorem sameNodes_setHead (fs : Fs) (i : Nat) (head : Option Nat) :
    fs.SameNodes (fs.setNode i fun entry => { entry with firstPage := head }) := by
  refine ⟨fun j => ?_, rfl⟩
  rw [node_setNode]
  split
  · rename_i here
    rw [here.1]
    rfl
  · rfl

/-- The head of a chain is stored. -/
theorem node_setHead_self (used : (fs.node i).used) (head : Option Nat) :
    ((fs.setNode i fun entry => { entry with firstPage := head }).node i).firstPage = head := by
  rw [node_setNode, if_pos ⟨rfl, lt_of_used used⟩]

/-- A loose slot that points at the head of a chain becomes its head. -/
theorem Filed.push (filed : fs.Filed chains) (used : (fs.node i).used)
    (slotUsed : (fs.slot s).used) (owner : (fs.slot s).owner = some i)
    (next : (fs.slot s).next = (fs.node i).firstPage)
    (new : fs.slotIn (chains i) (fs.slot s).filePage = none) :
    (fs.setNode i fun entry => { entry with firstPage := some s }).Filed
      (update chains i (s :: chains i)) := by
  have same := sameNodes_setHead fs i (some s)
  constructor
  · intro j usedJ
    by_cases here : j = i
    · subst here
      rw [update_self, node_setHead_self used]
      refine ⟨rfl, ?_⟩
      show Chain fs.nextOf (fs.slot s).next (chains j)
      rw [next]
      exact filed.chain used
    · rw [update_of_ne here, node_setNode_ne here]
      rw [node_setNode_ne here] at usedJ
      exact filed.chain usedJ
  · intro j usedJ t listed
    show (fs.slot t).used = true ∧ (fs.slot t).owner = some j
    by_cases here : j = i
    · subst here
      rw [update_self] at listed
      rcases mem_cons.mp listed with rfl | listed
      · exact ⟨slotUsed, owner⟩
      · exact filed.owned used listed
    · rw [update_of_ne here] at listed
      rw [same.used] at usedJ
      exact filed.owned usedJ listed
  · intro j usedJ
    show ((update chains i (s :: chains i) j).map fun t => (fs.slot t).filePage).Nodup
    rw [same.used] at usedJ
    by_cases here : j = i
    · subst here
      rw [update_self, map_cons, nodup_cons]
      refine ⟨fun repeated => ?_, filed.distinct used⟩
      obtain ⟨t, listed, equal⟩ := mem_map.mp repeated
      exact slotIn_none new listed equal
    · rw [update_of_ne here]
      exact filed.distinct usedJ

/-- Nodes are no part of the free chain. -/
theorem Listed.setNode (listed : fs.Listed free) (i : Nat) (change : MemNode → MemNode) :
    (fs.setNode i change).Listed free :=
  listed.congr rfl rfl rfl (fun _ _ => rfl) fun _ => rfl

section

variable (filed : fs.Filed chains)

include filed

/-- Linking the slot that was handed out. -/
theorem attachPage_spec {filePage : Nat}
    (used : (fs.node i).used) (new : fs.slotIn (chains i) filePage = none)
    (hands : fs.Hands after chains s) :
    ∃ chains', GetSpec fs chains i filePage (after.attachPage i filePage s) chains' := by
  obtain ⟨free, listed⟩ := hands.listed
  have filed' := hands.calm.filed filed
  have slotUsed : (after.slot s).used := by rw [hands.fresh]
  have inside := slot_lt_of_used slotUsed
  -- the linked slot, and the same state after the request for its data
  have here : (after.linked i filePage s).slot s =
      ⟨true, (after.node i).firstPage, none, some i, filePage, fun _ => 0⟩ := by
    rw [linked, slot_setSlot_self inside, hands.fresh]
    rfl
  have others : ∀ t, t ≠ s → (after.linked i filePage s).slot t = after.slot t :=
    fun t apart => slot_setSlot_ne apart _
  rw [attachPage_eq]
  set joined := after.linked i filePage s
  have linkedFiled : joined.Filed chains := filed'.setLoose hands.loose rfl others
  have outside := listed.not_mem slotUsed
  have linkedListed : joined.Listed free := by
    refine listed.congr rfl rfl (length_setSlot ..) (fun t member => ?_) (view_setSlot
      BackingPage.used)
    rw [others t fun same => outside (same ▸ member)]
  have calm := askPages_calm joined
  have asked : ∀ t, joined.askPages.2.slot t = joined.slot t := by
    obtain ⟨answers, same, _⟩ := askPages_eq joined
    rw [same]
    exact fun _ => rfl
  have count : joined.askPages.2.usedCount = fs.usedCount + 1 := by
    obtain ⟨answers, same, _⟩ := askPages_eq joined
    rw [← hands.count, same]
    rfl
  have askedNode : ∀ j, joined.askPages.2.node j = fs.node j :=
    fun j => (calm.node j).trans (hands.calm.node j)
  have kept : ∀ {j t}, (fs.node j).used → t ∈ chains j →
      t ≠ s ∧ joined.askPages.2.slot t = fs.slot t := by
    intro j t usedJ member
    have apart : t ≠ s := by
      rintro rfl
      exact hands.loose j (by rw [hands.calm.node]; exact usedJ) member
    rw [asked, others t apart]
    exact ⟨apart, hands.calm.slots (filed.owned usedJ member).1⟩
  have answers : ∀ {answer}, answer ∈ joined.askPages.2.answers →
      answer ∈ fs.answers := fun member => hands.calm.answers (calm.answers member)
  have sameNodes : fs.SameNodes joined.askPages.2 :=
    ⟨fun j => by rw [askedNode], calm.nextIno.trans hands.calm.nextIno⟩
  have usedAsked : (joined.askPages.2.node i).used := by
    rw [askedNode]
    exact used
  split
  · refine ⟨update chains i (s :: chains i), ?_⟩
    have newAsked : joined.askPages.2.slotIn (chains i) filePage = none := by
      rw [← new]
      exact slotIn_congr filePage fun t member => by rw [(kept used member).2]
    refine ⟨?_, ⟨free, (askPages_listed linkedListed).setNode _ _⟩,
      sameNodes.trans (sameNodes_setHead ..), fun apart => update_of_ne apart .., ?_, ?_,
      answers⟩
    · apply Filed.push (calm.filed linkedFiled) usedAsked
      · rw [asked, here]
      · rw [asked, here]
      · rw [asked, here, askedNode, hands.calm.node]
      · rw [asked, here]
        exact newAsked
    · intro j t usedJ member
      show (joined.askPages.2.slot t).filePage = _ ∧ _
      have same := (kept usedJ member).2
      exact ⟨congrArg BackingPage.filePage same, congrArg BackingPage.data same⟩
    · refine .inr (.inl ⟨s, rfl, new, update_self .., ?_, ?_, count⟩)
      · exact congrArg BackingPage.filePage ((asked s).trans here)
      · exact congrArg BackingPage.data ((asked s).trans here)
  · have looseAsked : joined.askPages.2.Loose chains s := by
      intro j usedJ
      rw [askedNode, ← hands.calm.node] at usedJ
      exact hands.loose j usedJ
    obtain ⟨freedFiled, freedListed, freedSlots⟩ := freeBackingSlot_spec (calm.filed linkedFiled)
      (askPages_listed linkedListed) (by rw [asked, here]) looseAsked
    have freedNode : ∀ j, (joined.askPages.2.freeBackingSlot s).node j =
        fs.node j := fun j => by rw [node, nodes_freeBackingSlot]; exact askedNode j
    refine ⟨chains, freedFiled, ⟨_, freedListed⟩, ⟨fun j => by rw [freedNode], ?_⟩, fun _ => rfl,
      ?_, .inr (.inr ⟨rfl, new, rfl⟩), ?_⟩
    · rw [← sameNodes.nextIno]
      unfold freeBackingSlot
      split <;> rfl
    · intro j t usedJ member
      obtain ⟨apart, same⟩ := kept usedJ member
      show ((joined.askPages.2.freeBackingSlot s).slot t).filePage = _ ∧ _
      rw [freedSlots t apart, same]
      exact ⟨rfl, rfl⟩
    · intro answer member
      apply answers
      unfold freeBackingSlot at member
      split at member <;> exact member

/-- `get_backing_page` on a file. -/
theorem getBackingPage_spec (listed : fs.Listed free) (used : (fs.node i).used) :
    ∃ chains', GetSpec fs chains i filePage (fs.getBackingPage i filePage) chains' := by
  have found := filed.findBackingPage used filePage
  unfold getBackingPage
  cases here : fs.slotIn (chains i) filePage with
  | some s =>
    rw [found, here]
    exact ⟨chains, filed, ⟨free, listed⟩, .refl fs, fun _ => rfl, fun _ _ => ⟨rfl, rfl⟩,
      .inl ⟨s, rfl, here, rfl, rfl⟩, id⟩
  | none =>
    rw [found, here]
    have alloc := allocBackingSlot_spec filed listed
    dsimp only
    split <;> rename_i answer <;> rw [answer] at alloc
    · obtain ⟨_, still⟩ := alloc.refused rfl
      refine ⟨chains, alloc.calm.filed filed, still,
        ⟨fun i => by rw [alloc.calm.node], alloc.calm.nextIno⟩, fun _ => rfl,
        fun usedJ member => ?_, .inr (.inr ⟨rfl, here, rfl⟩), alloc.calm.answers⟩
      have same := alloc.calm.slots (filed.owned usedJ member).1
      exact ⟨congrArg BackingPage.filePage same, congrArg BackingPage.data same⟩
    · exact attachPage_spec filed used here (alloc.hands rfl)

/-- With room in the table and no refusal there is a page. -/
theorem getBackingPage_granted (listed : fs.Listed free) (i : Nat)
    (filePage : Nat) (room : fs.usedCount < maxBackingPages) (granting : false ∉ fs.answers) :
    (fs.getBackingPage i filePage).1 ≠ none := by
  have alloc := allocBackingSlot_spec filed listed
  unfold getBackingPage
  split
  · exact Option.some_ne_none _
  split <;> rename_i answer <;> rw [answer] at alloc
  · exact absurd rfl (alloc.granted room granting)
  rename_i s after
  rw [attachPage_eq, if_pos]
  · exact Option.some_ne_none _
  · exact askPages_granted fun member => granting (alloc.calm.answers member)

/-- New data for a page of a file changes that page of that file. -/
theorem Filed.setData (used : (fs.node i).used)
    (member : s ∈ chains i) (change : (Nat → UInt8) → Nat → UInt8) :
    (fs.setSlot s fun page => { page with data := change page.data }).Filed chains ∧
      ∀ {j}, (fs.node j).used → ∀ q,
        (fs.setSlot s fun page => { page with data := change page.data }).dataIn (chains j) q =
          if j = i ∧ q = (fs.slot s).filePage then change (fs.dataIn (chains i) q)
          else fs.dataIn (chains j) q := by
  have inside := slot_lt_of_used (filed.owned used member).1
  have here := slot_setSlot_self inside fun page => { page with data := change page.data }
  set after := fs.setSlot s fun page => { page with data := change page.data }
  have others : ∀ t, t ≠ s → after.slot t = fs.slot t := fun t apart => slot_setSlot_ne apart _
  refine ⟨filed.congr (fun _ usedJ => ⟨usedJ, rfl⟩) fun _ _ t _ =>
    view_setSlot place t, ?_⟩
  intro j usedJ q
  unfold dataIn
  rw [slotIn_congr q fun t _ => view_setSlot filePage t]
  by_cases same : j = i ∧ q = (fs.slot s).filePage
  · rw [if_pos same]
    obtain ⟨rfl, rfl⟩ := same
    rw [slotIn_of_mem (filed.distinct used) member]
    exact congrArg data here
  rw [if_neg same]
  cases found : fs.slotIn (chains j) q with
  | none => rfl
  | some t =>
    obtain ⟨listed, page⟩ := slotIn_some found
    refine congrArg data (others t ?_)
    rintro rfl
    exact same ⟨filed.apart usedJ used listed member, page.symm⟩

end

/-- New data for a slot in use leaves the free list alone. -/
theorem Listed.setData (listed : fs.Listed free) (used : (fs.slot s).used)
    (change : (Nat → UInt8) → Nat → UInt8) :
    (fs.setSlot s fun page => { page with data := change page.data }).Listed free := by
  refine listed.congr rfl rfl (length_setSlot ..) (fun t member => ?_)
    (view_setSlot BackingPage.used)
  have apart : t ≠ s := fun same => listed.not_mem used (same ▸ member)
  rw [slot_setSlot_ne apart]

end Fs

end Spore.Ramfs
