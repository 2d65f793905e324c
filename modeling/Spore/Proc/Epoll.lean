import Mathlib.Data.Set.Card
import Mathlib.Logic.Relation

/-!
# Readiness of descriptors (`proc/poll.c`)

The readiness of an epoll descriptor is that of the descriptors it watches, found by calling
the same function again, up to the first watch that is ready. `epoll_ctl` refuses no watch for the
sake of that recursion, not even one of an instance on itself. The evaluation returns exactly if
it does not come back to an instance that it is in. Then the calls are nested no deeper than there
are instances, but an instance is evaluated again for each watch that leads to it: only if no two
do, there are no more evaluations than instances.
-/

namespace Spore.Proc.Poll

open Relation (ReflTransGen TransGen)

/-- `CELL_POLLIN`. -/
def cellPollin : BitVec 32 := 1

/-- `CELL_POLLOUT`. -/
def cellPollout : BitVec 32 := 4

/-- All events that make a watch ready. -/
def cellPollAny : BitVec 32 := 0x3d

/-- `EPOLL_CTL_ADD`. -/
def epollCtlAdd : Nat := 1

/-- `EPOLL_CTL_DEL`. -/
def epollCtlDel : Nat := 2

/-- `EPOLL_CTL_MOD`. -/
def epollCtlMod : Nat := 3

/-- A used `struct epoll_watch`. -/
structure EpollWatch where
  /-- The watched descriptor. -/
  fd : Nat
  /-- The events asked for. -/
  events : BitVec 32
  /-- The word to report. -/
  data : BitVec 64

/-- An open file as the evaluation sees it; files other than epoll instances are kept as the
answers of their tests. -/
inductive PollFile where
  | plain (error hup readable writable : Bool)
  | epoll (watches : List (Option EpollWatch))

/-- A domain's descriptors, by file, and the open files. -/
structure PollDomain where
  /-- The open descriptors. -/
  fds : Nat → Option Nat
  /-- The files. -/
  files : Nat → PollFile

/-- The file of a descriptor; a negative one stands past the table. -/
def PollDomain.fileOf (domain : PollDomain) (fd : Nat) : Option Nat :=
  if fd < 64 then domain.fds fd else none

/-- The loop over the watches of an instance, up to the first one that is ready. -/
def anyReady (poll : Nat → BitVec 32 → Option (BitVec 32)) :
    List (Option EpollWatch) → Option Bool
  | [] => some false
  | none :: rest => anyReady poll rest
  | some watch :: rest => do
    let ready ← poll watch.fd watch.events
    if ready &&& cellPollAny ≠ 0 then some true else anyReady poll rest

/-- The bits, or none. -/
def flagIf (set : Bool) (bits : BitVec 32) : BitVec 32 := if set then bits else 0

/-- `fd_poll_events_for_domain` with a bound on the depth of its calls; none when the bound
does not suffice. -/
def fdPollEvents (domain : PollDomain) : Nat → Nat → BitVec 32 → Option (BitVec 32)
  | 0, _, _ => none
  | depth + 1, fd, events =>
    match (domain.fileOf fd).map domain.files with
    | none => some 0x20
    | some (.plain error hup readable writable) =>
      some (flagIf error 8 ||| flagIf hup 0x10 |||
        flagIf (events &&& cellPollin ≠ 0 && readable) cellPollin |||
        flagIf (events &&& cellPollout ≠ 0 && writable) cellPollout)
    | some (.epoll watches) => do
      let ready ← if events &&& cellPollin ≠ 0 then anyReady (fdPollEvents domain depth) watches
        else some false
      some (flagIf ready cellPollin ||| flagIf (events &&& cellPollout ≠ 0) cellPollout)

/-- `cell_fd_epoll_ctl`. -/
def cellFdEpollCtl (domain : PollDomain) (epfd op fd : Nat) (events : BitVec 32)
    (data : BitVec 64) : Int × PollDomain :=
  match domain.fileOf epfd, domain.fileOf fd with
  | some ep, some _ =>
    match domain.files ep with
    | .plain _ _ _ _ => (-9, domain)
    | .epoll watches =>
      let filled (slot : Nat) (watch : Option EpollWatch) : PollDomain :=
        { domain with files := fun f =>
            if f = ep then .epoll (watches.set slot watch) else domain.files f }
      match watches.findIdx? (·.any (·.fd = fd)) with
      | some slot =>
        if op = epollCtlDel then (0, filled slot none)
        else if op = epollCtlMod ∨ op = epollCtlAdd then (0, filled slot (some ⟨fd, events, data⟩))
        else (-22, domain)
      | none =>
        if op = epollCtlDel then (-9, domain)
        else if op ≠ epollCtlAdd ∧ op ≠ epollCtlMod then (-22, domain)
        else
          match watches.findIdx? (·.isNone) with
          | none => (-12, domain)
          | some slot => (0, filled slot (some ⟨fd, events, data⟩))
  | _, _ => (-9, domain)

/-- The instances that are gone through for some watches, up to the first that is ready. -/
def scansOf (poll : Nat → BitVec 32 → Option (BitVec 32)) (inner : Nat → BitVec 32 → List Nat) :
    List (Option EpollWatch) → List Nat
  | [] => []
  | none :: rest => scansOf poll inner rest
  | some watch :: rest =>
    inner watch.fd watch.events ++
      if (poll watch.fd watch.events).any (· &&& cellPollAny = 0) then scansOf poll inner rest
      else []

namespace PollDomain

variable (domain : PollDomain)

/-- The watches of an instance. -/
def watchesOf (f : Nat) : List (Option EpollWatch) :=
  match domain.files f with
  | .plain _ _ _ _ => []
  | .epoll watches => watches

/-- The instance whose watches a call goes through. -/
def scanned (fd : Nat) (events : BitVec 32) : Option Nat :=
  if events &&& cellPollin = 0 then none
  else (domain.fileOf fd).filter fun f => match domain.files f with
    | .plain _ _ _ _ => false
    | .epoll _ => true

/-- The open epoll instances. -/
def instances : Set Nat := {f | ∃ fd events, domain.scanned fd events = some f}

/-- The instances that a call and the calls inside it go through, in order. -/
def scans : Nat → Nat → BitVec 32 → List Nat
  | 0, _, _ => []
  | depth + 1, fd, events =>
    match domain.scanned fd events with
    | none => []
    | some f => f :: scansOf (fdPollEvents domain depth) (scans depth) (domain.watchesOf f)

/-- While `f` is evaluated, the watch in a slot leads to an evaluation of `g`: the watches before
it turn out not to be ready. -/
def FollowsAt (f slot g : Nat) : Prop :=
  ∃ watch, (domain.watchesOf f)[slot]? = some (some watch) ∧
    domain.scanned watch.fd watch.events = some g ∧
    ∃ depth, anyReady (fdPollEvents domain depth) ((domain.watchesOf f).take slot) = some false

/-- Some watch of `f` leads to an evaluation of `g`. -/
def Follows (f g : Nat) : Prop := ∃ slot, domain.FollowsAt f slot g

/-- The evaluation of `f` comes back to no instance that it is in. -/
def Grounded (f : Nat) : Prop :=
  ∀ g, ReflTransGen domain.Follows f g → ¬ TransGen domain.Follows g g

/-- No two watches lead to the same instance. -/
def Single : Prop :=
  ∀ {f slot f' slot' g}, domain.FollowsAt f slot g → domain.FollowsAt f' slot' g →
    f = f' ∧ slot = slot'

/-- Going through the watches of an instance returns. -/
def Returns (depth f : Nat) : Prop :=
  (anyReady (fdPollEvents domain depth) (domain.watchesOf f)).isSome

end PollDomain

open PollDomain

section

variable {domain : PollDomain} {depth fd f g : Nat} {events : BitVec 32}

/-- The instances have descriptors. -/
theorem instances_finite (domain : PollDomain) : domain.instances.Finite := by
  refine ((Set.finite_lt_nat 64).image fun fd => (domain.fds fd).getD 0).subset ?_
  rintro f ⟨fd, events, found⟩
  unfold scanned fileOf at found
  split at found
  · cases found
  obtain ⟨opened, -⟩ := Option.filter_eq_some_iff.mp found
  split at opened
  · exact ⟨fd, by assumption, by simp [opened]⟩
  · cases opened

/-! ## The loop over the watches -/

/-- The loop over two lists of watches. -/
theorem anyReady_append (poll : Nat → BitVec 32 → Option (BitVec 32))
    (first second : List (Option EpollWatch)) : anyReady poll (first ++ second) =
      (anyReady poll first).bind fun ready =>
        if ready then some true else anyReady poll second := by
  induction first with
  | nil => rfl
  | cons head rest ih =>
    cases head with
    | none => exact ih
    | some watch =>
      rw [List.cons_append, anyReady, anyReady]
      cases poll watch.fd watch.events with
      | none => rfl
      | some ready =>
        simp only [Option.bind_eq_bind, Option.bind_some]
        split
        · rfl
        · exact ih

/-- More answers do not change the loop. -/
theorem anyReady_mono {poll more : Nat → BitVec 32 → Option (BitVec 32)}
    (same : ∀ {fd events ready}, poll fd events = some ready → more fd events = some ready)
    {watches : List (Option EpollWatch)} {result : Bool}
    (answer : anyReady poll watches = some result) : anyReady more watches = some result := by
  induction watches with
  | nil => exact answer
  | cons head rest ih =>
    cases head with
    | none => exact ih answer
    | some watch =>
      rw [anyReady, Option.bind_eq_bind] at answer ⊢
      obtain ⟨ready, found, continues⟩ := Option.bind_eq_some_iff.mp answer
      rw [same found, Option.bind_some]
      split at continues
      · rename_i stops
        rwa [if_pos stops]
      · rename_i goes
        rw [if_neg goes]
        exact ih continues

/-! ## Depth -/

/-- A call that goes through no watches returns. -/
theorem fdPollEvents_leaf (leaf : domain.scanned fd events = none) :
    ∃ ready, ∀ depth, fdPollEvents domain (depth + 1) fd events = some ready := by
  unfold scanned at leaf
  simp only [fdPollEvents]
  cases found : domain.fileOf fd with
  | none => exact ⟨_, fun _ => rfl⟩
  | some f =>
    cases kind : domain.files f with
    | plain error hup readable writable => simp [kind]
    | epoll watches =>
      have quiet : events &&& cellPollin = 0 := by
        simpa [found, kind] using leaf
      simp [kind, quiet]

/-- A call that goes through the watches of an instance answers with what it finds. -/
theorem fdPollEvents_scan (scan : domain.scanned fd events = some f) (depth : Nat) :
    fdPollEvents domain (depth + 1) fd events =
      (anyReady (fdPollEvents domain depth) (domain.watchesOf f)).map fun ready =>
        flagIf ready cellPollin ||| flagIf (events &&& cellPollout ≠ 0) cellPollout := by
  unfold scanned at scan
  split at scan
  · cases scan
  rename_i asked
  obtain ⟨found, isEpoll⟩ := Option.filter_eq_some_iff.mp scan
  unfold fdPollEvents watchesOf
  rw [found, Option.map_some]
  cases kind : domain.files f with
  | plain error hup readable writable => simp [kind] at isEpoll
  | epoll watches =>
    simp only [ne_eq, asked, not_false_eq_true, ↓reduceIte]
    cases anyReady (fdPollEvents domain depth) watches <;> rfl

/-- Deeper calls do not change an answer. -/
theorem fdPollEvents_mono {ready : BitVec 32} (extra : Nat)
    (answer : fdPollEvents domain depth fd events = some ready) :
    fdPollEvents domain (depth + extra) fd events = some ready := by
  induction depth generalizing fd events ready with
  | zero => cases answer
  | succ depth ih =>
    rw [Nat.add_right_comm]
    cases scan : domain.scanned fd events with
    | none =>
      obtain ⟨same, every⟩ := fdPollEvents_leaf scan
      rw [every] at answer ⊢
      exact answer
    | some f =>
      rw [fdPollEvents_scan scan] at answer ⊢
      obtain ⟨found, returns, rfl⟩ := Option.map_eq_some_iff.mp answer
      rw [anyReady_mono (fun answer => ih answer) returns, Option.map_some]

/-- The loop does not change its answer either. -/
theorem anyReady_same {other : Nat} {watches : List (Option EpollWatch)} {result : Bool}
    (answer : anyReady (fdPollEvents domain depth) watches = some result)
    (returns : (anyReady (fdPollEvents domain other) watches).isSome) :
    anyReady (fdPollEvents domain other) watches = some result := by
  obtain ⟨found, again⟩ := Option.isSome_iff_exists.mp returns
  have first := anyReady_mono (fun answer => fdPollEvents_mono other answer) answer
  have second := anyReady_mono (fun answer => fdPollEvents_mono depth answer) again
  rw [Nat.add_comm] at second
  rw [again, ← second, ← first]

/-- A call for the watches of an instance returns one level deeper than the loop. -/
theorem fdPollEvents_isSome_iff (scan : domain.scanned fd events = some f) :
    (fdPollEvents domain (depth + 1) fd events).isSome ↔ domain.Returns depth f := by
  rw [fdPollEvents_scan scan, Option.isSome_map, Returns]

/-- The loop returns if the evaluations that it leads to do, one level deeper. -/
theorem returns_of_follows (inner : ∀ g, domain.Follows f g → domain.Returns depth g) :
    domain.Returns (depth + 1) f := by
  have part : ∀ n,
      (anyReady (fdPollEvents domain (depth + 1)) ((domain.watchesOf f).take n)).isSome := by
    intro n
    induction n with
    | zero => rfl
    | succ n ih =>
      obtain ⟨ready, before⟩ := Option.isSome_iff_exists.mp ih
      rw [List.take_add_one, anyReady_append, before, Option.bind_some]
      cases ready with
      | true => rfl
      | false =>
        cases place : (domain.watchesOf f)[n]? with
        | none => rfl
        | some slot =>
          cases slot with
          | none => rfl
          | some watch =>
            have called : (fdPollEvents domain (depth + 1) watch.fd watch.events).isSome := by
              cases scan : domain.scanned watch.fd watch.events with
              | none =>
                obtain ⟨ready, every⟩ := fdPollEvents_leaf scan
                rw [every]
                rfl
              | some g =>
                exact (fdPollEvents_isSome_iff scan).mpr
                  (inner g ⟨n, watch, place, scan, depth + 1, before⟩)
            obtain ⟨ready, answer⟩ := Option.isSome_iff_exists.mp called
            simp only [Bool.false_eq_true, ↓reduceIte, Option.toList_some, anyReady, answer,
              Option.bind_eq_bind, Option.bind_some]
            split <;> rfl
  have whole := part (domain.watchesOf f).length
  rwa [List.take_length] at whole

/-- Conversely the evaluations that a loop leads to return at a smaller depth. -/
theorem follows_returns (follows : domain.Follows f g) (returns : domain.Returns depth f) :
    ∃ less < depth, domain.Returns less g := by
  obtain ⟨slot, watch, place, scan, other, before⟩ := follows
  obtain ⟨bound, here⟩ := List.getElem?_eq_some_iff.mp place
  have split : (domain.watchesOf f).take slot ++ some watch ::
      (domain.watchesOf f).drop (slot + 1) = domain.watchesOf f := by
    rw [← here, ← List.drop_eq_getElem_cons bound, List.take_append_drop]
  rw [Returns, ← split, anyReady_append] at returns
  have first : (anyReady (fdPollEvents domain depth) ((domain.watchesOf f).take slot)).isSome := by
    cases found : anyReady (fdPollEvents domain depth) ((domain.watchesOf f).take slot) with
    | none => simp [found] at returns
    | some _ => rfl
  rw [anyReady_same before first, Option.bind_some] at returns
  cases depth with
  | zero => simp [anyReady, fdPollEvents] at returns
  | succ depth =>
    refine ⟨depth, Nat.lt_succ_self depth, (fdPollEvents_isSome_iff scan).mp ?_⟩
    cases answer : fdPollEvents domain (depth + 1) watch.fd watch.events with
    | none => simp [anyReady, answer] at returns
    | some _ => rfl

/-- The same along a path. -/
theorem path_returns (path : TransGen domain.Follows f g) (returns : domain.Returns depth f) :
    ∃ less < depth, domain.Returns less g := by
  induction path with
  | single follows => exact follows_returns follows returns
  | tail _ follows ih =>
    obtain ⟨middle, below, there⟩ := ih
    obtain ⟨less, smaller, here⟩ := follows_returns follows there
    exact ⟨less, smaller.trans below, here⟩

/-- So an evaluation that returns comes back to no instance: the depth would go down for ever. -/
theorem grounded_of_returns (returns : domain.Returns depth f) : domain.Grounded f := by
  have acyclic : ∀ {g} depth, domain.Returns depth g → ¬ TransGen domain.Follows g g := by
    intro g depth
    induction depth using Nat.strong_induction_on with
    | _ depth ih =>
      intro returns cycle
      obtain ⟨less, smaller, again⟩ := path_returns cycle returns
      exact ih less smaller again cycle
  intro g path
  rcases Relation.reflTransGen_iff_eq_or_transGen.mp path with rfl | path
  · exact acyclic depth returns
  · obtain ⟨less, -, there⟩ := path_returns path returns
    exact acyclic less there

/-- What an evaluation can lead to. -/
def below (domain : PollDomain) (f : Nat) : Set Nat := {g | TransGen domain.Follows f g}

/-- It leads to open instances. -/
theorem below_instances : below domain f ⊆ domain.instances := by
  rintro g path
  obtain ⟨-, -, slot, watch, -, scan, -⟩ := TransGen.tail'_iff.mp path
  exact ⟨watch.fd, watch.events, scan⟩

/-- An evaluation that comes back to no instance returns, at a depth given by the instances that it
leads to. -/
theorem returns_of_grounded : ∀ {n f : Nat}, domain.Grounded f → (below domain f).ncard ≤ n →
    domain.Returns (n + 1) f := by
  intro n
  induction n with
  | zero =>
    intro f grounded few
    refine returns_of_follows fun g follows => ?_
    have none := (Set.ncard_eq_zero ((instances_finite domain).subset below_instances)).mp
      (Nat.le_zero.mp few)
    exact absurd (show g ∈ below domain f from .single follows) (by simp [none])
  | succ n ih =>
    intro f grounded few
    refine returns_of_follows fun g follows => ih (fun h path => grounded h (.head follows path)) ?_
    -- What lies below `g` lies below `f`, and `g` itself lies only below `f`.
    have fewer : below domain g ⊂ below domain f := by
      refine ⟨fun h path => .head follows path, fun all => ?_⟩
      exact grounded g (.single follows) (all (.single follows))
    have smaller := Set.ncard_lt_ncard fewer ((instances_finite domain).subset below_instances)
    omega

/-- Within the depth that the number of open instances gives. -/
theorem fdPollEvents_returns
    (grounded : ∀ f, domain.scanned fd events = some f → domain.Grounded f) :
    (fdPollEvents domain (domain.instances.ncard + 1) fd events).isSome := by
  cases scan : domain.scanned fd events with
  | none =>
    obtain ⟨ready, every⟩ := fdPollEvents_leaf scan
    rw [every]
    rfl
  | some f =>
    have acyclic := grounded f scan
    have fewer : below domain f ⊂ domain.instances :=
      ⟨below_instances, fun all => acyclic f .refl (all ⟨fd, events, scan⟩)⟩
    have smaller := Set.ncard_lt_ncard fewer (instances_finite domain)
    obtain ⟨n, count⟩ : ∃ n, domain.instances.ncard = n + 1 :=
      ⟨domain.instances.ncard - 1, by omega⟩
    rw [count, fdPollEvents_isSome_iff scan]
    exact returns_of_grounded acyclic (by omega)

/-! ## The number of evaluations -/

/-- The loop over one more watch. -/
theorem anyReady_take_succ {poll : Nat → BitVec 32 → Option (BitVec 32)}
    {watches : List (Option EpollWatch)} {n : Nat} {head : Option EpollWatch}
    (place : watches[n]? = some head) (before : anyReady poll (watches.take n) = some false) :
    anyReady poll (watches.take (n + 1)) = anyReady poll [head] := by
  rw [List.take_add_one, place, anyReady_append, before]
  rfl

/-- What one watch leads to, if the evaluation of its instance goes through none twice. -/
theorem scans_watch {n : Nat} {watch : EpollWatch}
    (place : (domain.watchesOf f)[n]? = some (some watch))
    (before : anyReady (fdPollEvents domain depth) ((domain.watchesOf f).take n) = some false)
    (inner : ∀ {fd events g}, domain.scanned fd events = some g → domain.Follows f g →
      (domain.scans depth fd events).Nodup ∧
        ∀ h ∈ domain.scans depth fd events, ReflTransGen domain.Follows g h) :
    (domain.scans depth watch.fd watch.events).Nodup ∧
      ∀ h ∈ domain.scans depth watch.fd watch.events,
        ∃ g, domain.FollowsAt f n g ∧ ReflTransGen domain.Follows g h := by
  cases scan : domain.scanned watch.fd watch.events with
  | none =>
    have nothing : domain.scans depth watch.fd watch.events = [] := by
      cases depth <;> simp [scans, scan]
    rw [nothing]
    exact ⟨.nil, fun _ none => by cases none⟩
  | some g =>
    have follows : domain.FollowsAt f n g := ⟨watch, place, scan, depth, before⟩
    obtain ⟨nodup, paths⟩ := inner scan ⟨n, follows⟩
    exact ⟨nodup, fun h member => ⟨g, follows, paths h member⟩⟩

section

variable (single : domain.Single)

include single

/-- If no two watches lead to the same instance, two watches of an instance lead to instances of
which neither leads to the other. -/
theorem Single.no_path (grounded : domain.Grounded f) {slot other g' : Nat}
    (different : slot ≠ other) (first : domain.FollowsAt f slot g)
    (second : domain.FollowsAt f other g') : ¬ ReflTransGen domain.Follows g g' := by
  intro path
  rcases Relation.reflTransGen_iff_eq_or_transGen.mp path with rfl | path
  · exact different (single first second).2
  · obtain ⟨last, before, slot', step⟩ := TransGen.tail'_iff.mp path
    obtain rfl := (single step second).1
    exact grounded last .refl (.head' ⟨slot, first⟩ before)

/-- Nor is there an instance that both lead to. -/
theorem Single.apart (grounded : domain.Grounded f) {slot other g' h : Nat}
    (different : slot ≠ other) (first : domain.FollowsAt f slot g)
    (second : domain.FollowsAt f other g') (path : ReflTransGen domain.Follows g h) :
    ¬ ReflTransGen domain.Follows g' h := by
  intro path'
  have unique : Relator.RightUnique (Function.swap domain.Follows) :=
    fun _ _ _ ⟨_, one⟩ ⟨_, two⟩ => (single one two).1
  rcases ReflTransGen.total_of_right_unique unique (Relation.reflTransGen_swap.mpr path)
    (Relation.reflTransGen_swap.mpr path') with down | up
  · exact Single.no_path single grounded different.symm second first
      (Relation.reflTransGen_swap.mp down)
  · exact Single.no_path single grounded different first second
      (Relation.reflTransGen_swap.mp up)

/-- The loop goes through no instance twice if the evaluations that it leads to do not. -/
theorem scansOf_once (grounded : domain.Grounded f)
    (inner : ∀ {fd events g}, domain.scanned fd events = some g → domain.Follows f g →
      (domain.scans depth fd events).Nodup ∧
        ∀ h ∈ domain.scans depth fd events, ReflTransGen domain.Follows g h)
    (rest : List (Option EpollWatch)) : ∀ n, rest = (domain.watchesOf f).drop n →
    anyReady (fdPollEvents domain depth) ((domain.watchesOf f).take n) = some false →
    (scansOf (fdPollEvents domain depth) (domain.scans depth) rest).Nodup ∧
      ∀ h ∈ scansOf (fdPollEvents domain depth) (domain.scans depth) rest,
        ∃ slot g, n ≤ slot ∧ domain.FollowsAt f slot g ∧ ReflTransGen domain.Follows g h := by
  induction rest with
  | nil => exact fun _ _ _ => ⟨.nil, fun _ none => by cases none⟩
  | cons head rest ih =>
    intro n split before
    have place : (domain.watchesOf f)[n]? = some head := by
      rw [← List.head?_drop, ← split]
      rfl
    have next : rest = (domain.watchesOf f).drop (n + 1) := by
      rw [← List.tail_drop, ← split]
      rfl
    cases head with
    | none =>
      obtain ⟨nodup, paths⟩ := ih (n + 1) next (anyReady_take_succ place before)
      refine ⟨nodup, fun h member => ?_⟩
      obtain ⟨slot, g, later, follows, path⟩ := paths h member
      exact ⟨slot, g, by omega, follows, path⟩
    | some watch =>
      obtain ⟨firstNodup, firstPaths⟩ := scans_watch place before inner
      unfold scansOf
      split
      · rename_i quiet
        have passed : anyReady (fdPollEvents domain depth)
            ((domain.watchesOf f).take (n + 1)) = some false := by
          obtain ⟨ready, answer, zero⟩ := (Option.any_eq_true _ _).mp quiet
          rw [anyReady_take_succ place before]
          simp [anyReady, answer, of_decide_eq_true zero]
        obtain ⟨nodup, paths⟩ := ih (n + 1) next passed
        refine ⟨List.nodup_append.mpr ⟨firstNodup, nodup, ?_⟩, fun h member => ?_⟩
        · rintro h here _ there rfl
          obtain ⟨g, follows, path⟩ := firstPaths h here
          obtain ⟨slot, g', later, follows', path'⟩ := paths h there
          exact Single.apart single grounded (by omega) follows follows' path path'
        · rcases List.mem_append.mp member with here | there
          · obtain ⟨g, follows, path⟩ := firstPaths h here
            exact ⟨n, g, Nat.le_refl n, follows, path⟩
          · obtain ⟨slot, g, later, follows, path⟩ := paths h there
            exact ⟨slot, g, by omega, follows, path⟩
      · rw [List.append_nil]
        refine ⟨firstNodup, fun h member => ?_⟩
        obtain ⟨g, follows, path⟩ := firstPaths h member
        exact ⟨n, g, Nat.le_refl n, follows, path⟩

end

/-- The evaluation goes through no instance twice. -/
theorem scans_once (single : domain.Single) (depth : Nat) : ∀ {f fd events},
    domain.scanned fd events = some f → domain.Grounded f →
    (domain.scans depth fd events).Nodup ∧
      ∀ h ∈ domain.scans depth fd events, ReflTransGen domain.Follows f h := by
  induction depth with
  | zero => exact fun _ _ => ⟨.nil, fun _ none => by cases none⟩
  | succ depth ih =>
    intro f fd events scan grounded
    obtain ⟨nodup, paths⟩ := scansOf_once single grounded
      (fun scan follows => ih scan fun h path => grounded h (.head follows path))
      (domain.watchesOf f) 0 rfl rfl
    unfold scans
    rw [scan]
    refine ⟨List.nodup_cons.mpr ⟨fun again => ?_, nodup⟩, fun h member => ?_⟩
    · obtain ⟨slot, g, -, follows, path⟩ := paths f again
      exact grounded f .refl (.head' ⟨slot, follows⟩ path)
    · rcases List.mem_cons.mp member with rfl | later
      · exact .refl
      · obtain ⟨slot, g, -, follows, path⟩ := paths h later
        exact .head ⟨slot, follows⟩ path

/-- Two instances at descriptors 3 and 4, without watches. -/
def twoInstances : PollDomain where
  fds fd := if fd = 3 ∨ fd = 4 then some fd else none
  files _ := .epoll (List.replicate 16 none)

/-- The instances after one is set to watch the other, or itself. -/
def watching (epfd fd : Nat) : PollDomain :=
  (cellFdEpollCtl twoInstances epfd epollCtlAdd fd cellPollin 0).2

end

end Spore.Proc.Poll
