import Spore.Ramfs.Chains

/-!
# Pages of files of the memory file system

`pageData` is what a page of a file holds, whichever slot it is in. Each call that touches
pages is described by what it does to them: putting one, dropping those from a number on,
releasing or copying all of them.
-/

namespace Spore.Ramfs

open Function Spore.Lib BackingPage List
variable {fuel keep q : Nat}

namespace Fs

variable {fs after a b : Fs} {chains : Nat → List Nat} {free rest front : List Nat}
  {i s filePage pos len page dst : Nat} {result : Option Nat × Fs} {link : PageLink}
  {src : List UInt8} {change : (Nat → UInt8) → Nat → UInt8}

/-! ## Pages without their chains -/

/-- The chains are in order. -/
def Stored (fs : Fs) : Prop := ∃ chains free, fs.Filed chains ∧ fs.Listed free

/-- The bytes of a page of a file. -/
def pageData (fs : Fs) (i filePage : Nat) : Nat → UInt8 :=
  match fs.findBackingPage i filePage with
  | some s => (fs.slot s).data
  | none => fun _ => 0

/-- The file has the page. -/
def hasPage (fs : Fs) (i filePage : Nat) : Bool := (fs.findBackingPage i filePage).isSome

/-- A byte is found in the page of its number. -/
theorem byteAt_eq : fs.byteAt i pos = fs.pageData i (pageNumber pos) (pos % pageBytes) := by
  unfold byteAt pageData
  cases fs.findBackingPage i (pageNumber pos) with
  | none => rfl
  | some s => rfl

/-- The bytes of a page, by the chain of the file. -/
theorem Filed.pageData (filed : fs.Filed chains) (used : (fs.node i).used) (filePage : Nat) :
    fs.pageData i filePage = fs.dataIn (chains i) filePage :=
  congrArg (fun found => match found with | some s => (fs.slot s).data | none => fun _ => 0)
    (filed.findBackingPage used filePage)

/-- A call that leaves every page of every file as it was. -/
structure Keeps (before after : Fs) : Prop where
  /-- Chains stay in order. -/
  stored : after.Stored
  /-- Nodes stay. -/
  sameNodes : before.SameNodes after
  /-- Pages keep their bytes. -/
  data : ∀ {j}, (before.node j).used = true → ∀ q, after.pageData j q = before.pageData j q

/-- A call that changes one page of one file, and adds it when it was missing. -/
structure Puts (before after : Fs) (i filePage : Nat) (change : (Nat → UInt8) → Nat → UInt8) :
    Prop where
  /-- Chains stay in order. -/
  stored : after.Stored
  /-- Nodes stay. -/
  sameNodes : before.SameNodes after
  /-- One page has new bytes. -/
  data : ∀ {j}, (before.node j).used = true → ∀ q, after.pageData j q =
    if j = i ∧ q = filePage then change (before.pageData i q) else before.pageData j q
  /-- It is there. -/
  present : ∀ q, after.hasPage i q = (before.hasPage i q || decide (q = filePage))
  /-- It takes a slot at most. -/
  count : after.usedCount = before.usedCount + if before.hasPage i filePage then 0 else 1
  /-- Answers are used up. -/
  answers : ∀ {answer}, answer ∈ after.answers → answer ∈ before.answers

/-- Getting a page changes no byte. -/
theorem GetSpec.keeps {after : Nat → List Nat} (filed : fs.Filed chains) (used : (fs.node i).used)
    (spec : GetSpec fs chains i filePage result after) : fs.Keeps result.2 := by
  obtain ⟨free, listed⟩ := spec.listed
  refine ⟨⟨after, free, spec.filed, listed⟩, spec.sameNodes, fun {j} usedJ q => ?_⟩
  rw [spec.filed.pageData ((spec.sameNodes.used j).trans usedJ), filed.pageData usedJ]
  have old : result.2.dataIn (chains j) q = fs.dataIn (chains j) q :=
    dataIn_congr q fun s member => spec.slots usedJ member
  by_cases here : j = i
  · subst here
    rcases spec.own with ⟨_, _, _, same, _⟩ | ⟨s, _, new, same, page, zero, _⟩ | ⟨_, _, same⟩
    · rw [same, old]
    · rw [same]
      by_cases asked : q = filePage
      · subst asked
        have missing : fs.dataIn (chains j) q = fun _ => 0 := by rw [dataIn, new]
        have first : result.2.slotIn (s :: chains j) q = some s := by simp [slotIn, page]
        rw [missing, dataIn, first]
        exact zero
      · rw [← old]
        have behind : result.2.slotIn (s :: chains j) q = result.2.slotIn (chains j) q := by
          have other : ¬ filePage = q := fun same => asked same.symm
          simp [slotIn, page, other]
        rw [dataIn, dataIn, behind]
    · rw [same, old]
  · rw [spec.others here, old]

section

variable {after : Nat → List Nat} (spec : GetSpec fs chains i filePage result after)
  (used : (fs.node i).used) (given : result.1 = some s)
include spec used given

/-- The slot `get_backing_page` returns holds the page. -/
theorem GetSpec.found :
    s ∈ after i ∧ (result.2.slot s).filePage = filePage ∧
      result.2.usedCount =
        fs.usedCount + if (fs.slotIn (chains i) filePage).isSome then 0 else 1 := by
  rcases spec.own with ⟨t, answer, found, same, count⟩ | ⟨t, answer, new, same, page, _, count⟩ |
    ⟨answer, _, _⟩
  · have listed := slotIn_some found
    obtain rfl : t = s := Option.some.inj (answer.symm.trans given)
    rw [same, (spec.slots used listed.1).1, found]
    exact ⟨listed.1, listed.2, count⟩
  · obtain rfl : t = s := Option.some.inj (answer.symm.trans given)
    rw [same, new]
    exact ⟨mem_cons_self .., page, count⟩
  · cases answer.symm.trans given

/-- The page is there afterwards, and no other is new. -/
theorem GetSpec.present (q : Nat) :
    (result.2.slotIn (after i) q).isSome =
      ((fs.slotIn (chains i) q).isSome || decide (q = filePage)) := by
  have old : result.2.slotIn (chains i) q = fs.slotIn (chains i) q :=
    slotIn_congr q fun s member => (spec.slots used member).1
  rcases spec.own with ⟨t, answer, found, same, _⟩ | ⟨t, answer, new, same, page, _, _⟩ |
    ⟨answer, _, _⟩
  · rw [same, old]
    by_cases asked : q = filePage
    · simp [asked, found]
    · simp [asked]
  · by_cases asked : q = filePage
    · simp [slotIn, same, page, asked]
    · have other : ¬ filePage = q := fun same => asked same.symm
      rw [← old, same]
      simp [slotIn, page, asked, other]
  · cases answer.symm.trans given

end

/-- `get_backing_page` that fails changes no file. -/
theorem Stored.getBackingPage (stored : fs.Stored) (used : (fs.node i).used)
    (filePage : Nat) : fs.Keeps (fs.getBackingPage i filePage).2 := by
  obtain ⟨chains, free, filed, listed⟩ := stored
  obtain ⟨after, spec⟩ := getBackingPage_spec filed listed used
  exact spec.keeps filed used

/-- A page that was found or added, with new data: the chains of the other files stay. -/
theorem Filed.putPage (filed : fs.Filed chains) (listed : fs.Listed free)
    (used : (fs.node i).used) (given : fs.getBackingPage i filePage = (some s, after))
    (change : (Nat → UInt8) → Nat → UInt8) :
    ∃ chains' free', (after.setSlot s fun page => { page with data := change page.data }).Filed
        chains' ∧
      (after.setSlot s fun page => { page with data := change page.data }).Listed free' ∧
      (∀ {j}, j ≠ i → chains' j = chains j) ∧
      fs.Puts (after.setSlot s fun page => { page with data := change page.data }) i filePage
        change := by
  obtain ⟨chains', spec⟩ := getBackingPage_spec filed listed used
  rw [given] at spec
  have keeps := spec.keeps filed used
  have found := spec.found used rfl
  have usedIn {j : Nat} (usedJ : (fs.node j).used) := (spec.sameNodes.used j).trans usedJ
  obtain ⟨free', listed'⟩ := spec.listed
  obtain ⟨filed', data⟩ := spec.filed.setData (usedIn used) found.1 change
  have listed'' := listed'.setData (spec.filed.owned (usedIn used) found.1).1 change
  refine ⟨chains', free', filed', listed'', spec.others, ⟨chains', free', filed', listed''⟩,
    spec.sameNodes.trans ⟨fun _ => rfl, rfl⟩, fun {j} usedJ q => ?_, fun q => ?_, ?_, spec.answers⟩
  · rw [filed'.pageData (usedIn usedJ), data (usedIn usedJ), found.2.1,
      ← spec.filed.pageData (usedIn used), ← spec.filed.pageData (usedIn usedJ),
      keeps.data used, keeps.data usedJ]
  · have present := spec.present used rfl q
    unfold hasPage
    rw [filed'.findBackingPage (usedIn used), filed.findBackingPage used, ← present]
    congr 1
    exact slotIn_congr q fun t _ => view_setSlot BackingPage.filePage t
  · unfold hasPage
    rw [filed.findBackingPage used]
    exact found.2.2

/-- A page is got and its bytes are changed. -/
theorem Stored.putPage (stored : fs.Stored) (used : (fs.node i).used)
    (given : fs.getBackingPage i filePage = (some s, after))
    (change : (Nat → UInt8) → Nat → UInt8) :
    fs.Puts (after.setSlot s fun page => { page with data := change page.data }) i filePage
      change := by
  obtain ⟨chains, free, filed, listed⟩ := stored
  obtain ⟨_, _, _, _, _, puts⟩ := filed.putPage listed used given change
  exact puts

/-- A page is to be had while the allocator grants it and the table has room. -/
theorem Stored.getBackingPage_granted (stored : fs.Stored) (i filePage : Nat)
    (granting : false ∉ fs.answers)
    (room : fs.usedCount + (if fs.hasPage i filePage then 0 else 1) ≤ maxBackingPages) :
    (fs.getBackingPage i filePage).1 ≠ none := by
  obtain ⟨chains, free, filed, listed⟩ := stored
  by_cases present : fs.hasPage i filePage
  · obtain ⟨s, found⟩ := Option.isSome_iff_exists.mp present
    unfold Fs.getBackingPage
    rw [found]
    exact Option.some_ne_none s
  · rw [if_neg present] at room
    exact Fs.getBackingPage_granted filed listed i filePage (by omega) granting

/-! ## Dropping pages -/

/-- The link behind the front part of a chain. -/
inductive Behind : PageLink → List Nat → Prop
  | first : Behind .first []
  | after (front : List Nat) (last : Nat) : Behind (.after last) (front ++ [last])

/-- Writing a link leaves of every slot all but its own link. -/
theorem slot_writeLink (fs : Fs) (i : Nat) (target : Option Nat) (link : PageLink) (t : Nat) :
    ((fs.writeLink i target link).slot t).used = (fs.slot t).used ∧
      ((fs.writeLink i target link).slot t).owner = (fs.slot t).owner ∧
      ((fs.writeLink i target link).slot t).filePage = (fs.slot t).filePage ∧
      ((fs.writeLink i target link).slot t).data = (fs.slot t).data ∧
      ((fs.writeLink i target link).slot t).freeNext = (fs.slot t).freeNext := by
  cases link with
  | first => exact ⟨rfl, rfl, rfl, rfl, rfl⟩
  | after last =>
    exact ⟨view_setSlot used t, view_setSlot owner t,
      view_setSlot filePage t, view_setSlot data t,
      view_setSlot freeNext t⟩

section

variable (filed : fs.Filed chains)

include filed

/-- From a link on, the chain is what the list has left. -/
theorem Filed.readLink (used : (fs.node i).used) (behind : Behind link front)
    (split : chains i = front ++ rest) : Chain fs.nextOf (fs.readLink i link) rest := by
  have chain := filed.chain used
  rw [split] at chain
  cases behind with
  | first => exact chain
  | after front last =>
    rw [append_assoc] at chain
    exact chain.behind

/-- The chain of one file gets shorter; every slot keeps its owner and number. -/
theorem Filed.shorten {shorter : List Nat}
    (part : shorter.Sublist (chains i)) (flags : ∀ j, (after.node j).used = (fs.node j).used)
    (places : ∀ t, (after.slot t).used = (fs.slot t).used ∧
      (after.slot t).owner = (fs.slot t).owner ∧ (after.slot t).filePage = (fs.slot t).filePage)
    (own : (fs.node i).used → Chain after.nextOf (after.node i).firstPage shorter)
    (others : ∀ j, j ≠ i → (fs.node j).used →
      Chain after.nextOf (after.node j).firstPage (chains j)) :
    after.Filed (update chains i shorter) := by
  have pages : ∀ slots : List Nat, (slots.map fun t => (after.slot t).filePage) =
      slots.map fun t => (fs.slot t).filePage :=
    fun slots => map_congr_left fun t _ => (places t).2.2
  have inside : ∀ {j t}, t ∈ update chains i shorter j → t ∈ chains j := by
    intro j t member
    by_cases here : j = i
    · subst here
      rw [update_self] at member
      exact part.subset member
    · rwa [update_of_ne here] at member
  constructor
  · intro j used
    rw [flags] at used
    by_cases here : j = i
    · subst here
      rw [update_self]
      exact own used
    · rw [update_of_ne here]
      exact others j here used
  · intro j used t member
    rw [flags] at used
    rw [(places t).1, (places t).2.1]
    exact filed.owned used (inside member)
  intro j used
  rw [flags] at used
  rw [pages]
  by_cases here : j = i
  · subst here
    rw [update_self]
    exact (part.map _).nodup (filed.distinct used)
  · rw [update_of_ne here]
    exact filed.distinct used

/-- A slot that leaves the chain of its file is in no chain. -/
theorem Filed.left {slots : List Nat} (used : (fs.node i).used)
    (member : s ∈ chains i) (outside : s ∉ slots) : fs.Loose (update chains i slots) s := by
  intro j usedJ inside
  by_cases own : j = i
  · subst own
    rw [update_self] at inside
    exact outside inside
  · rw [update_of_ne own] at inside
    exact own (filed.apart usedJ used inside member)

/-- Writing the link over a slot takes the slot out of the chain. -/
theorem Filed.writeLink (used : (fs.node i).used) (behind : Behind link front)
    (split : chains i = front ++ s :: rest) :
    (fs.writeLink i (fs.slot s).next link).Filed (update chains i (front ++ rest)) := by
  have chain := filed.chain used
  have nodup := filed.nodup used
  have part : (front ++ rest).Sublist (chains i) := by
    rw [split]
    exact List.Sublist.append_left (sublist_cons_self s rest) front
  have places := fun t => slot_writeLink fs i (fs.slot s).next link t
  rw [split] at chain nodup
  cases behind with
  | first =>
    apply filed.shorten part (sameNodes_setHead fs i _).used
    · exact fun t => ⟨(places t).1, (places t).2.1, (places t).2.2.1⟩
    · intro _
      have head := node_setHead_self used (fs.slot s).next
      exact Eq.subst (motive := fun start => Chain fs.nextOf start _) head.symm chain.2
    · intro j apart usedJ
      rw [node_setNode_ne apart]
      exact filed.chain usedJ
  | after front last =>
    have member : last ∈ chains i := by simp [split]
    have inside := slot_lt_of_used (filed.owned used member).1
    have here := slot_setSlot_self inside fun page => { page with next := (fs.slot s).next }
    have others : ∀ t, t ≠ last →
        (fs.writeLink i (fs.slot s).next (.after last)).slot t = fs.slot t :=
      fun t apart => slot_setSlot_ne apart _
    apply filed.shorten part
    · exact fun j => rfl
    · exact fun t => ⟨(places t).1, (places t).2.1, (places t).2.2.1⟩
    · intro _
      rw [append_assoc] at chain nodup ⊢
      have apart := nodup_append.mp nodup
      have tail := nodup_cons.mp apart.2.1
      refine .unlink chain (fun t listed => ?_) (fun t listed => ?_) ?_
      · have ne : t ≠ last := fun same => apart.2.2 t listed last (by simp) same
        exact congrArg next (others t ne)
      · have ne : t ≠ last := by
          rintro rfl
          exact tail.1 (mem_cons_of_mem s listed)
        exact congrArg next (others t ne)
      · have link := congrArg next here
        exact link
    · intro j ne usedJ
      refine .congr (fun t listed => ?_) (filed.chain usedJ)
      have apart : t ≠ last := by
        rintro rfl
        exact ne (filed.apart usedJ used listed member)
      exact congrArg next (others t apart)

end

/-- A link is no node's business, the head of a chain excepted. -/
theorem sameNodes_writeLink (fs : Fs) (i : Nat) (target : Option Nat) (link : PageLink) :
    fs.SameNodes (fs.writeLink i target link) := by
  cases link with
  | first => exact sameNodes_setHead fs i target
  | after last => exact ⟨fun _ => rfl, rfl⟩

/-- Links of files are not those of the free chain. -/
theorem Listed.writeLink (listed : fs.Listed free) (i : Nat) (target : Option Nat)
    (link : PageLink) : (fs.writeLink i target link).Listed free := by
  have length : (fs.writeLink i target link).backing.length = fs.backing.length := by
    cases link with
    | first => rfl
    | after last => exact length_setSlot ..
  refine listed.congr ?_ ?_ length (fun t _ => ?_) fun t => ?_
  · cases link <;> rfl
  · cases link <;> rfl
  · exact (slot_writeLink fs i target link t).2.2.2.2
  · exact (slot_writeLink fs i target link t).1

/-- A returned slot leaves the nodes. -/
theorem sameNodes_freeBackingSlot (s : Nat) : fs.SameNodes (fs.freeBackingSlot s) := by
  refine ⟨fun i => by rw [node, nodes_freeBackingSlot]; rfl, ?_⟩
  unfold freeBackingSlot
  split <;> rfl

/-- The pages of the file that have a number below the bound. -/
def below (fs : Fs) (keep : Nat) (slots : List Nat) : List Nat :=
  slots.filter fun s => decide ((fs.slot s).filePage < keep)

/-- What the dropping loop leaves: in the file the pages below the bound, the other files as
they were. -/
structure Drops (before after : Fs) (chains : Nat → List Nat) (i : Nat) (slots : List Nat) :
    Prop where
  /-- The other chains stay. -/
  filed : after.Filed (update chains i slots)
  /-- The free chain is in order. -/
  listed : ∃ free, after.Listed free
  /-- Nodes stay. -/
  sameNodes : before.SameNodes after
  /-- What is left is untouched. -/
  slots : ∀ {j t}, (before.node j).used = true → t ∈ update chains i slots j →
    (after.slot t).filePage = (before.slot t).filePage ∧ (after.slot t).data = (before.slot t).data

/-- The loop drops the pages from the bound on, by induction over what is left of the chain. -/
theorem dropPages_spec (i keep fuel : Nat) : ∀ {fs : Fs} {chains : Nat → List Nat}
    {free front rest : List Nat} {link : PageLink}, fs.Filed chains → fs.Listed free →
    (fs.node i).used → Behind link front → chains i = front ++ rest → rest.length < fuel →
    fs.Drops (dropPages i keep fuel link fs) chains i (front ++ fs.below keep rest) := by
  induction fuel with
  | zero => exact fun _ _ _ _ _ short => absurd short (Nat.not_lt_zero _)
  | succ fuel ih =>
    intro fs chains free front rest link filed listed used behind split short
    have walk := filed.readLink used behind split
    cases rest with
    | nil =>
      have ended : fs.readLink i link = none := walk
      rw [dropPages, ended]
      rw [append_nil] at split
      rw [below, filter_nil, append_nil, ← split]
      exact ⟨by rw [update_eq_self]; exact filed, ⟨free, listed⟩, .refl fs, fun _ _ => ⟨rfl, rfl⟩⟩
    | cons s rest =>
      have here : fs.readLink i link = some s := walk.1
      rw [dropPages, here]
      dsimp only
      have member : s ∈ chains i := by simp [split]
      by_cases high : keep ≤ (fs.slot s).filePage
      · rw [if_pos high]
        -- the slot leaves the chain and then goes to the free list
        have unlinked := filed.writeLink used behind split
        have nodup := filed.nodup used
        rw [split] at nodup
        have apart := nodup_append.mp nodup
        have tail := nodup_cons.mp apart.2.1
        have outside : s ∉ front ++ rest := by
          rw [mem_append, not_or]
          exact ⟨fun inFront => apart.2.2 s inFront s (by simp) rfl, tail.1⟩
        have places := slot_writeLink fs i (fs.slot s).next link
        have same := sameNodes_writeLink fs i (fs.slot s).next link
        have loose : (fs.writeLink i (fs.slot s).next link).Loose
            (update chains i (front ++ rest)) s :=
          fun j usedJ => filed.left used member outside j ((same.used j).symm.trans usedJ)
        obtain ⟨freed, freeList, kept⟩ := freeBackingSlot_spec unlinked (listed.writeLink _ _ _)
          (by rw [(places s).1]; exact (filed.owned used member).1) loose
        have sameNodes := same.trans (sameNodes_freeBackingSlot s)
        set after := (fs.writeLink i (fs.slot s).next link).freeBackingSlot s
        have slots : ∀ t, t ≠ s → (after.slot t).filePage = (fs.slot t).filePage ∧
            (after.slot t).data = (fs.slot t).data := by
          intro t ne
          rw [kept t ne]
          exact ⟨(places t).2.2.1, (places t).2.2.2.1⟩
        have drops := ih freed freeList ((sameNodes.used _).trans used) behind
          (update_self ..) (by simpa using short)
        have shrunk : after.below keep rest = fs.below keep (s :: rest) := by
          have goes : ¬ (fs.slot s).filePage < keep := by omega
          unfold below
          rw [filter_cons_of_neg (by simpa using goes)]
          refine filter_congr fun t inside => ?_
          rw [(slots t fun same => tail.1 (same ▸ inside)).1]
        have filed' := drops.filed
        have slots' := @drops.slots
        rw [shrunk, update_idem] at filed' slots'
        refine ⟨filed', drops.listed, sameNodes.trans drops.sameNodes, fun {j t} usedJ inside => ?_⟩
        have later := slots' ((sameNodes.used _).trans usedJ) inside
        have apart : t ≠ s := by
          rintro rfl
          refine filed.left used member (fun inside => outside ?_) j usedJ inside
          rw [← shrunk, mem_append] at inside
          exact mem_append.mpr (inside.imp_right mem_of_mem_filter)
        exact ⟨later.1.trans (slots t apart).1, later.2.trans (slots t apart).2⟩
      · rw [if_neg high]
        have stays : fs.below keep (s :: rest) = s :: fs.below keep rest := by
          have low : (fs.slot s).filePage < keep := by omega
          simp [below, low]
        rw [stays]
        have split' : chains i = (front ++ [s]) ++ rest := by simp [split]
        have drops := ih filed listed used (.after front s) split' (by simpa using short)
        simpa using drops

/-- A page is found among those below the bound if its number is. -/
theorem slotIn_below (slots : List Nat) :
    fs.slotIn (fs.below keep slots) q = if q < keep then fs.slotIn slots q else none := by
  unfold slotIn below
  rw [find?_filter]
  split
  · rename_i low
    congr 1
    funext s
    by_cases page : (fs.slot s).filePage = q
    · simp [page, low]
    · simp [page]
  · rename_i high
    rw [find?_eq_none]
    intro s _
    simp only [decide_eq_true_eq, not_and]
    omega

/-- What `ramfs_truncate` drops. -/
theorem Stored.dropPages (stored : fs.Stored) (used : (fs.node i).used) (keep : Nat) :
    (Fs.dropPages i keep (fs.backing.length + 1) .first fs).Stored ∧
      fs.SameNodes (Fs.dropPages i keep (fs.backing.length + 1) .first fs) ∧
      ∀ {j}, (fs.node j).used → ∀ q,
        (Fs.dropPages i keep (fs.backing.length + 1) .first fs).pageData j q =
          if j = i ∧ keep ≤ q then fun _ => 0 else fs.pageData j q := by
  obtain ⟨chains, free, filed, listed⟩ := stored
  have short := filed.length_le used
  have drops := dropPages_spec i keep (fs.backing.length + 1) filed listed used .first
    (nil_append _).symm (by omega)
  rw [nil_append] at drops
  obtain ⟨free', listed'⟩ := drops.listed
  refine ⟨⟨_, free', drops.filed, listed'⟩, drops.sameNodes, fun {j} usedJ q => ?_⟩
  rw [drops.filed.pageData ((drops.sameNodes.used j).trans usedJ), filed.pageData usedJ,
    dataIn_congr q fun t inside => drops.slots usedJ inside]
  by_cases own : j = i
  · subst own
    rw [update_self]
    unfold dataIn
    rw [slotIn_below]
    by_cases high : keep ≤ q
    · rw [if_neg (by omega), if_pos ⟨rfl, high⟩]
    · rw [if_pos (by omega), if_neg (by simp [high])]
  · rw [update_of_ne own, if_neg (by simp [own])]

/-- The rest of the last page is cleared. -/
theorem Stored.clearTail (stored : fs.Stored) (used : (fs.node i).used) (size : Nat) :
    (fs.clearTail i size).Stored ∧ fs.SameNodes (fs.clearTail i size) ∧
      ∀ {j}, (fs.node j).used → ∀ q, (fs.clearTail i size).pageData j q =
        if j = i ∧ q = pageNumber size ∧ size % pageBytes ≠ 0 then
          clearFrom (fs.pageData i q) (size % pageBytes)
        else fs.pageData j q := by
  obtain ⟨chains, free, filed, listed⟩ := stored
  unfold Fs.clearTail
  by_cases aligned : size % pageBytes = 0
  · rw [if_pos aligned]
    exact ⟨⟨chains, free, filed, listed⟩, .refl fs, fun _ q => by simp [aligned]⟩
  rw [if_neg aligned]
  cases found : fs.findBackingPage i (pageNumber size) with
  | none =>
    refine ⟨⟨chains, free, filed, listed⟩, .refl fs, fun {j} _ q => ?_⟩
    by_cases here : j = i ∧ q = pageNumber size ∧ size % pageBytes ≠ 0
    · rw [if_pos here]
      obtain ⟨rfl, rfl, -⟩ := here
      have zero : fs.pageData j (pageNumber size) = fun _ => 0 := by rw [Fs.pageData, found]
      rw [zero]
      funext k
      simp [clearFrom]
    · rw [if_neg here]
  | some s =>
    have here := filed.findBackingPage used (pageNumber size)
    rw [found] at here
    obtain ⟨member, page⟩ := slotIn_some here.symm
    obtain ⟨filed', data⟩ := filed.setData used member fun bytes =>
      clearFrom bytes (size % pageBytes)
    have listed' := listed.setData (filed.owned used member).1 fun bytes =>
      clearFrom bytes (size % pageBytes)
    refine ⟨⟨chains, free, filed', listed'⟩, ⟨fun _ => rfl, rfl⟩, fun {j} usedJ q => ?_⟩
    rw [filed'.pageData (i := j) usedJ, data usedJ, page, filed.pageData used, filed.pageData usedJ]
    simp [aligned]

/-! ## Releasing the pages of a node -/

/-- Slots in hand, strung together, go to the free list one by one. -/
theorem freeSlotsFrom_spec (fuel : Nat) : ∀ {fs : Fs} {free slots : List Nat} {start : Option Nat},
    fs.Filed chains → fs.Listed free → Chain fs.nextOf start slots → slots.Nodup →
    (∀ s ∈ slots, (fs.slot s).used ∧ fs.Loose chains s) → slots.length < fuel →
    (freeSlotsFrom fuel start fs).Filed chains ∧
      (∃ free, (freeSlotsFrom fuel start fs).Listed free) ∧
      ∀ t, t ∉ slots → (freeSlotsFrom fuel start fs).slot t = fs.slot t := by
  induction fuel with
  | zero => exact fun _ _ _ _ _ short => absurd short (Nat.not_lt_zero _)
  | succ fuel ih =>
    intro fs free slots start filed listed chain nodup hand short
    cases slots with
    | nil =>
      rw [show start = none from chain]
      exact ⟨filed, ⟨free, listed⟩, fun _ _ => rfl⟩
    | cons s rest =>
      obtain ⟨used, loose⟩ := hand s (mem_cons_self ..)
      obtain ⟨freed, freeList, kept⟩ := freeBackingSlot_spec filed listed used loose
      obtain ⟨fresh, nodup⟩ := nodup_cons.mp nodup
      have apart : ∀ t ∈ rest, t ≠ s := fun t inside same => fresh (same ▸ inside)
      rw [chain.1, freeSlotsFrom]
      have chain' : Chain (fs.freeBackingSlot s).nextOf (fs.slot s).next rest := by
        refine .congr (fun t inside => ?_) chain.2
        rw [nextOf, nextOf, kept t (apart t inside)]
      have hand' : ∀ t ∈ rest, ((fs.freeBackingSlot s).slot t).used ∧
          (fs.freeBackingSlot s).Loose chains t := by
        intro t inside
        obtain ⟨usedT, looseT⟩ := hand t (mem_cons_of_mem s inside)
        rw [kept t (apart t inside)]
        refine ⟨usedT, fun j usedJ => looseT j ?_⟩
        rwa [(sameNodes_freeBackingSlot s).used] at usedJ
      obtain ⟨done, list, rest_kept⟩ := ih freed freeList chain' nodup hand' (by simpa using short)
      refine ⟨done, list, fun t outside => ?_⟩
      rw [mem_cons, not_or] at outside
      rw [rest_kept t outside.2, kept t outside.1]

/-- A call that releases one node; the other files are as before. -/
structure Releases (before after : Fs) (i : Nat) : Prop where
  /-- Chains stay in order. -/
  stored : after.Stored
  /-- The node is free. -/
  gone : after.node i = .clear
  /-- The others stay. -/
  others : ∀ j, j ≠ i → after.node j = before.node j
  /-- Numbers are not used again. -/
  nextIno : after.nextIno = before.nextIno
  /-- Other files keep their bytes. -/
  data : ∀ {j}, j ≠ i → (before.node j).used = true → ∀ q, after.pageData j q = before.pageData j q

/-- The head of one chain is cut off. -/
theorem Filed.cutHead (filed : fs.Filed chains) (i : Nat) :
    (fs.setNode i fun entry => { entry with firstPage := none }).Filed
      (update chains i []) := by
  apply filed.shorten (nil_sublist _) (sameNodes_setHead fs i none).used
  · exact fun t => ⟨rfl, rfl, rfl⟩
  · exact fun used => node_setHead_self used none
  · intro j apart used
    rw [node_setNode_ne apart]
    exact filed.chain used

/-- Freeing a chain leaves the nodes. -/
theorem sameNodes_freeSlotsFrom (fuel : Nat) : ∀ (start : Option Nat) (fs : Fs),
    fs.SameNodes (freeSlotsFrom fuel start fs) := by
  induction fuel with
  | zero => exact fun _ fs => .refl fs
  | succ fuel ih =>
    intro start fs
    cases start with
    | none => exact .refl fs
    | some s => exact (sameNodes_freeBackingSlot s).trans (ih _ _)

/-- A freed node takes its pages along, and no others. -/
theorem Stored.freeNode (stored : fs.Stored) (used : (fs.node i).used) :
    fs.Releases (fs.freeNode i) i := by
  obtain ⟨chains, free, filed, listed⟩ := stored
  have cut := filed.cutHead i
  have usedCut := (sameNodes_setHead fs i none).used
  have hand : ∀ s ∈ chains i, (fs.slot s).used ∧
      (fs.setNode i fun entry => { entry with firstPage := none }).Loose
        (update chains i []) s :=
    fun s inside => ⟨(filed.owned used inside).1, fun j usedJ =>
      filed.left used inside not_mem_nil j ((usedCut j).symm.trans usedJ)⟩
  have short := filed.length_le used
  obtain ⟨freed, ⟨free', listed'⟩, kept⟩ := freeSlotsFrom_spec (fs.backing.length + 1) cut
    (listed.setNode i _) (filed.chain used) (filed.nodup used) hand (by omega)
  have sameNodes := sameNodes_freeSlotsFrom (fs.backing.length + 1) (fs.node i).firstPage
    (fs.setNode i fun entry => { entry with firstPage := none })
  have nodes : (fs.freeNodePages i).nodes =
      (fs.setNode i fun entry => { entry with firstPage := none }).nodes := nodes_freeSlotsFrom ..
  have inTable : i < (fs.freeNodePages i).nodes.length := by
    rw [nodes]
    simpa [setNode] using lt_of_used used
  have others : ∀ j, j ≠ i → (fs.freeNode i).node j = fs.node j := by
    intro j apart
    unfold Fs.freeNode
    rw [node_setNode_ne apart, node, nodes]
    exact node_setNode_ne apart _
  have gone : (fs.freeNode i).node i = .clear := by
    unfold Fs.freeNode
    rw [node_setNode, if_pos ⟨rfl, inTable⟩]
  have filed' : (fs.freeNode i).Filed (update chains i []) := by
    refine freed.congr (fun j usedJ => ?_) fun _ _ _ _ => rfl
    have apart : j ≠ i := by
      rintro rfl
      rw [gone] at usedJ
      cases usedJ
    have same : (fs.freeNodePages i).node j = fs.node j := by
      rw [node, nodes]
      exact node_setNode_ne apart _
    rw [others j apart] at usedJ ⊢
    exact ⟨by rw [← same] at usedJ; exact usedJ, (congrArg MemNode.firstPage same).symm⟩
  refine ⟨⟨_, free', filed', listed'.setNode i _⟩, gone, others,
    sameNodes.nextIno, fun {j} apart usedJ q => ?_⟩
  rw [filed'.pageData (by rw [others j apart]; exact usedJ), filed.pageData usedJ,
    update_of_ne apart]
  refine dataIn_congr q fun t inside => ?_
  have same : (fs.freeNode i).slot t = fs.slot t :=
    kept t fun both => apart (filed.apart usedJ used inside both)
  rw [same]
  exact ⟨rfl, rfl⟩

/-! ## Writing -/

/-- The positions that 32-bit page numbers tell apart. -/
def reach : Nat := 2 ^ 32 * pageBytes

/-- Below the limit a page number does not wrap around. -/
theorem pageNumber_of_lt (near : pos < reach) : pageNumber pos = pos / pageBytes :=
  Nat.mod_eq_of_lt (Nat.div_lt_of_lt_mul (by rwa [Nat.mul_comm]))

/-- The bytes of one chunk, put into their page. -/
theorem Puts.byteAt
    (puts : fs.Puts after i (pageNumber pos) fun data => copyInto data (pos % pageBytes) src)
    (used : (fs.node i).used) (fits : pos % pageBytes + src.length ≤ pageBytes)
    (near : pos < reach) {j x : Nat} (usedJ : (fs.node j).used) (nearX : x < reach) :
    after.byteAt j x =
      if j = i ∧ pos ≤ x ∧ x < pos + src.length then src.getD (x - pos) 0 else fs.byteAt j x := by
  rw [byteAt_eq, byteAt_eq, puts.data usedJ, pageNumber_of_lt near, pageNumber_of_lt nearX]
  have posSplit := Nat.div_add_mod pos pageBytes
  have xSplit := Nat.div_add_mod x pageBytes
  by_cases samePage : x / pageBytes = pos / pageBytes
  · by_cases own : j = i
    · subst own
      rw [if_pos ⟨rfl, samePage⟩, copyInto]
      rw [samePage] at xSplit
      by_cases inside : pos ≤ x ∧ x < pos + src.length
      · rw [if_pos (by omega), if_pos ⟨rfl, inside⟩]
        congr 1
        omega
      · rw [if_neg (by omega), if_neg (by simpa using inside)]
    · rw [if_neg (by simp [own]), if_neg (by simp [own])]
  · have outside : ¬ (pos ≤ x ∧ x < pos + src.length) := by
      rintro ⟨low, high⟩
      apply samePage
      have least := Nat.div_le_div_right (c := pageBytes) low
      have bound : x / pageBytes < pos / pageBytes + 1 := by
        apply Nat.div_lt_of_lt_mul
        rw [Nat.mul_add, Nat.mul_one]
        omega
      omega
    rw [if_neg (by simp [samePage]), if_neg (by simp [outside])]

/-- What a write leaves: the bytes at their place, every other byte as it was. -/
structure Writes (before after : Fs) (i pos : Nat) (src : List UInt8) : Prop where
  /-- Chains stay in order. -/
  stored : after.Stored
  /-- Nodes stay. -/
  sameNodes : before.SameNodes after
  /-- The range has the new bytes. -/
  bytes : ∀ {j}, (before.node j).used = true → ∀ {x}, x < reach → after.byteAt j x =
    if j = i ∧ pos ≤ x ∧ x < pos + src.length then src.getD (x - pos) 0 else before.byteAt j x

/-- No bytes are written. -/
theorem Writes.nothing (stored : fs.Stored) (i pos : Nat) : fs.Writes fs i pos [] := by
  refine ⟨stored, .refl fs, fun {j} _ {x} _ => ?_⟩
  have outside : ¬ (j = i ∧ pos ≤ x ∧ x < pos + ([] : List UInt8).length) := by
    rw [length_nil]
    omega
  rw [if_neg outside]

/-- A write in two chunks. -/
theorem Writes.chunks {mid : Fs} {chunk : Nat} (short : chunk ≤ src.length)
    (first : fs.Writes mid i pos (src.take chunk))
    (second : mid.Writes after i (pos + chunk) (src.drop chunk)) : fs.Writes after i pos src := by
  refine ⟨second.stored, first.sameNodes.trans second.sameNodes, fun {j} used {x} near => ?_⟩
  rw [second.bytes ((first.sameNodes.used _).trans used) near, first.bytes used near]
  have takeLength : (src.take chunk).length = chunk := by rw [length_take]; omega
  have dropLength : (src.drop chunk).length = src.length - chunk := length_drop ..
  rw [takeLength, dropLength]
  by_cases own : j = i
  · simp only [own, true_and]
    by_cases late : pos + chunk ≤ x ∧ x < pos + chunk + (src.length - chunk)
    · rw [if_pos late, if_pos (by omega), getD_eq_getElem?_getD, getElem?_drop,
        getD_eq_getElem?_getD]
      congr 2
      omega
    · rw [if_neg late]
      by_cases early : pos ≤ x ∧ x < pos + chunk
      · rw [if_pos early, if_pos (by omega), getD_eq_getElem?_getD,
          getElem?_take_of_lt (by omega), getD_eq_getElem?_getD]
      · rw [if_neg early, if_neg (by omega)]
  · simp only [own, false_and, if_false]

/-- The copying loop that ran to its end. -/
theorem Stored.writePages (i fuel : Nat) : ∀ {fs : Fs} {pos : Nat} {src : List UInt8},
    fs.Stored → (fs.node i).used → src.length ≤ fuel → pos + src.length ≤ reach →
    (Fs.writePages i fuel pos src fs).1 →
      fs.Writes (Fs.writePages i fuel pos src fs).2 i pos src := by
  induction fuel with
  | zero =>
    intro fs pos src stored used short near _
    obtain rfl : src = [] := eq_nil_of_length_eq_zero (by omega)
    exact .nothing stored i pos
  | succ fuel ih =>
    intro fs pos src stored used short near done
    rw [Fs.writePages] at done ⊢
    by_cases empty : src = []
    · subst empty
      exact .nothing stored i pos
    rw [if_neg empty] at done ⊢
    dsimp only at done ⊢
    have some_left : 0 < src.length := length_pos_of_ne_nil empty
    have low := Nat.mod_lt pos (show 0 < pageBytes by decide)
    split at done
    · cases done
    rename_i s after given
    generalize length : min (pageBytes - pos % pageBytes) src.length = chunk at *
    have bounds : chunk ≤ src.length ∧ 0 < chunk ∧ pos % pageBytes + chunk ≤ pageBytes := by
      omega
    have takeLength : (src.take chunk).length = chunk := by rw [length_take]; omega
    have puts := stored.putPage used given fun data =>
      copyInto data (pos % pageBytes) (src.take chunk)
    have first : fs.Writes _ i pos (src.take chunk) := ⟨puts.stored, puts.sameNodes,
      fun usedJ _ nearX => puts.byteAt used (by omega) (by omega) usedJ nearX⟩
    have second := ih puts.stored ((puts.sameNodes.used _).trans used)
      (by rw [length_drop]; omega) (by rw [length_drop]; omega) done
    exact first.chunks bounds.1 second

/-- A write that stops half way leaves the chains and the nodes in order too. -/
theorem Stored.writePages_reached (i fuel : Nat) : ∀ {fs : Fs}, fs.Stored → (fs.node i).used →
    ∀ (pos : Nat) (src : List UInt8), (Fs.writePages i fuel pos src fs).2.Stored ∧
      fs.SameNodes (Fs.writePages i fuel pos src fs).2 := by
  induction fuel with
  | zero => exact fun stored _ _ _ => ⟨stored, .refl _⟩
  | succ fuel ih =>
    intro fs stored used pos src
    rw [Fs.writePages]
    split
    · exact ⟨stored, .refl _⟩
    have keeps := stored.getBackingPage used (pageNumber pos)
    dsimp only
    split
    · rename_i after given
      rw [given] at keeps
      exact ⟨keeps.stored, keeps.sameNodes⟩
    rename_i s after given
    have puts := stored.putPage used given fun data => copyInto data (pos % pageBytes)
      (src.take (min (pageBytes - pos % pageBytes) src.length))
    have rest := ih puts.stored ((puts.sameNodes.used _).trans used)
    exact ⟨(rest _ _).1, puts.sameNodes.trans (rest _ _).2⟩

/-- The numbers of the pages a range of bytes lies in. -/
def pagesOf (pos len : Nat) : List Nat :=
  if len = 0 then []
  else List.range' (pos / pageBytes) ((pos + len - 1) / pageBytes - pos / pageBytes + 1)

/-- The first page of a range, and those of the rest behind it. -/
theorem pagesOf_cons (some_left : 0 < len) :
    pagesOf pos len = pos / pageBytes :: pagesOf (pos + min (pageBytes - pos % pageBytes) len)
      (len - min (pageBytes - pos % pageBytes) len) := by
  have posSplit := Nat.div_add_mod pos pageBytes
  have low := Nat.mod_lt pos (show 0 < pageBytes by decide)
  unfold pagesOf
  rw [if_neg (by omega), range'_succ]
  congr 1
  by_cases last : len ≤ pageBytes - pos % pageBytes
  · rw [if_pos (by omega)]
    have samePage : (pos + len - 1) / pageBytes = pos / pageBytes := by
      apply Nat.div_eq_of_lt_le
      · rw [Nat.mul_comm]
        omega
      · rw [Nat.add_mul, Nat.mul_comm]
        omega
    rw [samePage, Nat.sub_self]
    rfl
  · rw [if_neg (by omega), Nat.min_eq_left (by omega)]
    have next : (pos + (pageBytes - pos % pageBytes)) / pageBytes = pos / pageBytes + 1 := by
      apply Nat.div_eq_of_lt_le
      · rw [Nat.add_mul, Nat.mul_comm]
        omega
      · rw [Nat.add_mul, Nat.add_mul, Nat.mul_comm]
        omega
    have ends : pos + (pageBytes - pos % pageBytes) + (len - (pageBytes - pos % pageBytes)) - 1 =
        pos + len - 1 := by omega
    rw [ends, next]
    have beyond : pos / pageBytes + 1 ≤ (pos + len - 1) / pageBytes := by
      rw [← next]
      apply Nat.div_le_div_right
      omega
    congr 1
    omega

/-- The pages of the list that the file does not have. -/
def missing (fs : Fs) (i : Nat) (pages : List Nat) : Nat :=
  (pages.filter fun q => !fs.hasPage i q).length

/-- Nothing stands in the way of the pages: the file has them all, or the table has room for
those it does not have and no request will be refused. -/
def PagesReady (fs : Fs) (i : Nat) (pages : List Nat) : Prop :=
  (∀ q ∈ pages, fs.hasPage i q = true) ∨
    (false ∉ fs.answers ∧ fs.usedCount + fs.missing i pages ≤ maxBackingPages)

/-- The first page is to be had. -/
theorem PagesReady.head (ready : fs.PagesReady i (page :: rest)) (stored : fs.Stored) :
    (fs.getBackingPage i page).1 ≠ none := by
  rcases ready with present | ⟨granting, room⟩
  · obtain ⟨s, found⟩ := Option.isSome_iff_exists.mp (present page (mem_cons_self ..))
    unfold getBackingPage
    rw [found]
    exact Option.some_ne_none s
  · apply stored.getBackingPage_granted i page granting
    by_cases here : fs.hasPage i page
    · rw [if_pos here]
      omega
    · rw [if_neg here]
      simp only [missing, filter_cons, here, Bool.not_false, if_true, length_cons] at room
      omega

/-- The others stay to be had when it was. -/
theorem PagesReady.tail (ready : fs.PagesReady i (page :: rest)) (apart : page ∉ rest)
    (puts : fs.Puts after i page change) : after.PagesReady i rest := by
  have same : ∀ q ∈ rest, after.hasPage i q = fs.hasPage i q := by
    intro q inside
    have other : q ≠ page := fun same => apart (same ▸ inside)
    simp [puts.present, other]
  rcases ready with present | ⟨granting, room⟩
  · refine .inl fun q inside => ?_
    rw [same q inside]
    exact present q (mem_cons_of_mem page inside)
  refine .inr ⟨fun refused => granting (puts.answers refused), ?_⟩
  have left : after.missing i rest = fs.missing i rest := by
    unfold missing
    rw [filter_congr fun q inside => by rw [same q inside]]
  rw [puts.count, left]
  by_cases here : fs.hasPage i page
  · simp only [missing, filter_cons, here, Bool.not_true, Bool.false_eq_true, if_false] at room
    rw [if_pos here]
    exact room
  · simp only [missing, filter_cons, here, Bool.not_false, if_true, length_cons] at room
    rw [if_neg here]
    unfold missing
    omega

/-- A page before the range is not among its pages. -/
theorem not_mem_pagesOf (before : page < pos / pageBytes) : page ∉ pagesOf pos len := by
  unfold pagesOf
  split
  · exact not_mem_nil
  · intro inside
    have low := (mem_range'_1.mp inside).1
    omega

/-- The copying loop ends well when its pages are ready. -/
theorem writePages_ready : ∀ {fs : Fs} {pos : Nat} {src : List UInt8},
    fs.Stored → (fs.node i).used → pos + src.length ≤ reach →
    fs.PagesReady i (pagesOf pos src.length) → (Fs.writePages i fuel pos src fs).1 := by
  induction fuel with
  | zero => exact fun _ _ _ _ => rfl
  | succ fuel ih =>
    intro fs pos src stored used near ready
    rw [Fs.writePages]
    by_cases empty : src = []
    · rw [if_pos empty]
    rw [if_neg empty]
    have some_left : 0 < src.length := length_pos_of_ne_nil empty
    rw [pagesOf_cons some_left] at ready
    rw [pageNumber_of_lt (by omega)]
    split
    · rename_i after given
      exact absurd (congrArg Prod.fst given) (ready.head stored)
    rename_i s after given
    have puts := stored.putPage used given fun data => copyInto data (pos % pageBytes)
      (src.take (min (pageBytes - pos % pageBytes) src.length))
    have posSplit := Nat.div_add_mod pos pageBytes
    apply ih puts.stored ((puts.sameNodes.used _).trans used)
    · rw [length_drop]
      omega
    rw [length_drop]
    by_cases last : src.length ≤ pageBytes - pos % pageBytes
    · rw [Nat.min_eq_right last, Nat.sub_self]
      exact .inl fun q inside => by simp [pagesOf] at inside
    refine ready.tail (not_mem_pagesOf ?_) puts
    refine (Nat.le_div_iff_mul_le (show 0 < pageBytes by decide)).mpr ?_
    rw [Nat.succ_mul, Nat.mul_comm]
    omega

/-- When only the first page can be missing, a write that fails has changed nothing. -/
theorem Stored.writePages_failed (stored : fs.Stored) {fuel : Nat}
    (used : (fs.node i).used) (near : pos + src.length ≤ reach)
    (ready : (∀ q ∈ (pagesOf pos src.length).tail, fs.hasPage i q) ∨
      (false ∉ fs.answers ∧ fs.usedCount + fs.missing i (pagesOf pos src.length) ≤ maxBackingPages))
    (failed : (Fs.writePages i fuel pos src fs).1 = false) :
    fs.Keeps (Fs.writePages i fuel pos src fs).2 := by
  cases fuel with
  | zero => cases failed
  | succ fuel =>
    rcases ready with present | granted
    · rw [Fs.writePages] at failed ⊢
      by_cases empty : src = []
      · rw [if_pos empty] at failed
        cases failed
      rw [if_neg empty] at failed ⊢
      have some_left : 0 < src.length := length_pos_of_ne_nil empty
      have keeps := stored.getBackingPage used (pageNumber pos)
      split at failed
      · rename_i after given
        rw [given] at keeps
        exact keeps
      rename_i s after given
      have puts := stored.putPage used given fun data => copyInto data (pos % pageBytes)
        (src.take (min (pageBytes - pos % pageBytes) src.length))
      rw [pagesOf_cons some_left, tail_cons] at present
      rw [writePages_ready puts.stored ((puts.sameNodes.used _).trans used)
        (by rw [length_drop]; omega) (.inl fun q inside => ?_)] at failed
      · cases failed
      · rw [length_drop] at inside
        rw [puts.present, present q inside]
        rfl
    · rw [writePages_ready stored used near (.inr granted)] at failed
      cases failed

/-! ## Copying the pages of a node -/

/-- What copying does to the other files: nothing. -/
structure Copies (before after : Fs) (dst : Nat) : Prop where
  /-- Chains stay in order. -/
  stored : after.Stored
  /-- Nodes stay. -/
  sameNodes : before.SameNodes after
  /-- Other files keep their bytes. -/
  data : ∀ {j}, j ≠ dst → (before.node j).used = true → ∀ q,
    after.pageData j q = before.pageData j q

/-- Copying in two steps. -/
theorem Copies.trans {c : Fs} (first : a.Copies b dst) (second : b.Copies c dst) :
    a.Copies c dst := by
  refine ⟨second.stored, first.sameNodes.trans second.sameNodes, fun {j} apart used q => ?_⟩
  rw [second.data apart ((first.sameNodes.used _).trans used), first.data apart used]

/-- Filling a page of the copy is a step of copying. -/
theorem Puts.copies (puts : a.Puts b dst filePage change) : a.Copies b dst := by
  refine ⟨puts.stored, puts.sameNodes, fun {j} apart used q => ?_⟩
  rw [puts.data used, if_neg fun both => apart both.1]

/-- The copying loop of `ramfs_link`. Pages still to come are empty in the copy. -/
theorem copyPages_spec (src dst fuel : Nat) (apart : src ≠ dst) : ∀ {fs : Fs}
    {chains : Nat → List Nat} {free done rest : List Nat} {start : Option Nat},
    fs.Filed chains → fs.Listed free → (fs.node src).used → (fs.node dst).used →
    chains src = done ++ rest → Chain fs.nextOf start rest → rest.length < fuel →
    fs.Copies (copyPages dst fuel start fs).2 dst ∧
      ((∀ q, fs.pageData dst q =
          if q ∈ rest.map (fun s => (fs.slot s).filePage) then (fun _ => 0)
          else fs.pageData src q) →
        (copyPages dst fuel start fs).1 →
        ∀ q, (copyPages dst fuel start fs).2.pageData dst q = fs.pageData src q) := by
  induction fuel with
  | zero => exact fun _ _ _ _ _ _ short => absurd short (Nat.not_lt_zero _)
  | succ fuel ih =>
    intro fs chains free done rest start filed listed usedSrc usedDst split walk short
    have stored : fs.Stored := ⟨chains, free, filed, listed⟩
    cases rest with
    | nil =>
      rw [show start = none from walk]
      refine ⟨⟨stored, .refl fs, fun _ _ _ => rfl⟩, fun copied _ q => ?_⟩
      have same := copied q
      rwa [if_neg (by simp)] at same
    | cons s rest =>
      rw [walk.1, copyPages]
      have member : s ∈ chains src := by simp [split]
      have own : fs.pageData src (fs.slot s).filePage = (fs.slot s).data := by
        rw [filed.pageData usedSrc, dataIn, slotIn_of_mem (filed.distinct usedSrc) member]
      have keeps := stored.getBackingPage usedDst (fs.slot s).filePage
      split
      · rename_i after given
        rw [given] at keeps
        exact ⟨⟨keeps.stored, keeps.sameNodes, fun _ => keeps.data⟩, by simp⟩
      rename_i copy after given
      obtain ⟨chains', free', filed', listed', others, puts⟩ := filed.putPage listed usedDst given
        fun _ => (after.slot s).data
      obtain ⟨_, spec⟩ := getBackingPage_spec filed listed usedDst
      rw [given] at spec
      have sameSlots : ∀ {t}, t ∈ chains src →
          (after.slot t).filePage = (fs.slot t).filePage ∧
            (after.slot t).data = (fs.slot t).data := fun inside => spec.slots usedSrc inside
      set put := after.setSlot copy fun page => { page with data := (after.slot s).data }
      -- putting data into the copy moves no link and no number
      have next : ∀ t, (put.slot t).next = (after.slot t).next := fun t => view_setSlot next t
      have page : ∀ t, (put.slot t).filePage = (after.slot t).filePage :=
        fun t => view_setSlot filePage t
      have used' {j : Nat} (used : (fs.node j).used) := (puts.sameNodes.used j).trans used
      have split' : chains' src = (done ++ [s]) ++ rest := by
        rw [others apart, split, append_assoc]
        rfl
      have chain := filed'.chain (used' usedSrc)
      rw [others apart, split] at chain
      have walk' := chain.behind
      rw [nextOf, next s] at walk'
      obtain ⟨copies, copied⟩ := ih filed' listed' (used' usedSrc) (used' usedDst) split' walk'
        (by simpa using short)
      refine ⟨puts.copies.trans copies, fun before answer q => ?_⟩
      rw [copied ?_ answer q, puts.copies.data apart usedSrc]
      intro q
      have pages : (rest.map fun t => (put.slot t).filePage) =
          rest.map fun t => (fs.slot t).filePage := by
        refine map_congr_left fun t inside => ?_
        rw [page t, (sameSlots (by rw [split]; simp [inside])).1]
      have distinct := filed.distinct usedSrc
      rw [split, map_append, map_cons] at distinct
      have fresh := (nodup_cons.mp (nodup_append.mp distinct).2.1).1
      rw [pages, puts.data usedDst, puts.copies.data apart usedSrc]
      by_cases here : q = (fs.slot s).filePage
      · rw [if_pos ⟨rfl, here⟩, here, if_neg fresh, own, (sameSlots member).2]
      · rw [if_neg fun both => here both.2, before q]
        simp only [map_cons, mem_cons, here, false_or]

end Fs

end Spore.Ramfs
