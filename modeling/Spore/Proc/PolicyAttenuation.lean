import Spore.Proc.Policy

/-!
# Attenuation of policies

Applying a policy to a domain that is already under one is meant to take rights away only.
The comparison of the two capability sets is sound for system calls, egress rules and covered
path rules. Three gaps remain, and the main theorem says exactly when none of them is hit: a
policy without path rules is accepted over one that has them, an egress restriction is
accepted over a memory cap that it does not repeat, and `compute-only` refills a CPU budget.
-/

namespace Spore.Proc

open List

variable {path manifest : List Char} {caps : CapabilitySet} {rights : BitVec 8} {w : Nat}
  {short long : Fin 33} {ip : BitVec 32} {rule parent requested : FsRule} {domain : PolicyDomain}

/-- Everything the second domain permits, the first one permits. -/
structure Attenuates (before after : PolicyDomain) : Prop where
  /-- No system call is added. -/
  syscalls : ∀ nr, cellSyscallAllowed after nr = true → cellSyscallAllowed before nr = true
  /-- Paths with any combination of the three rights. -/
  paths : ∀ path rights, rights &&& ~~~(cellFsRead ||| cellFsWrite ||| cellFsExec) = 0 →
    cellFsPathAllowed after path rights = true → cellFsPathAllowed before path rights = true
  /-- No address is added. -/
  egress : ∀ proto ip port, cellEgressAllowed after proto ip port = true →
    cellEgressAllowed before proto ip port = true
  /-- No page is added. -/
  pages : ∀ pages, pagesAllowed after pages = true → pagesAllowed before pages = true
  /-- No time is added. -/
  ticks : ∀ ticks, ticksAllowed after ticks = true → ticksAllowed before ticks = true

/-! ## The comparison -/

/-- No bit of one word outside another word is inclusion of the bits. -/
theorem and_not_eq_zero_iff (a b : BitVec w) : a &&& ~~~b = 0 ↔ ∀ i, a.getLsbD i → b.getLsbD i := by
  constructor
  · intro none i inA
    have bit := congrArg (fun word : BitVec w => word.getLsbD i) none
    have inside := BitVec.lt_of_getLsbD inA
    simpa [inA, inside] using bit
  · intro included
    apply BitVec.eq_of_getLsbD_eq
    intro i _
    cases inA : a.getLsbD i with
    | false => simp [inA]
    | true => simp [inA, included i inA]

/-- A mask that meets no bit of a word meets no bit of a smaller word. -/
theorem masked_eq_zero {a b mask : BitVec w} (included : a &&& ~~~b = 0)
    (clear : b &&& mask = 0) : a &&& mask = 0 := by
  apply BitVec.eq_of_getLsbD_eq
  intro i _
  have bit := congrArg (fun word : BitVec w => word.getLsbD i) clear
  have sub := (and_not_eq_zero_iff a b).mp included i
  simp only [BitVec.getLsbD_and] at bit ⊢
  cases inA : a.getLsbD i with
  | false => simp
  | true =>
    rw [sub inA] at bit
    exact bit

/-- Longer network prefixes keep more bits. -/
theorem egressMask_mono (le : short ≤ long) (i : Nat)
    (inShort : (egressMask short).getLsbD i) : (egressMask long).getLsbD i := by
  unfold egressMask at inShort ⊢
  split at inShort
  · simp at inShort
  have ones : ∀ k, (0xffffffff : BitVec 32).getLsbD k = decide (k < 32) := by
    intro k
    change (BitVec.allOnes 32).getLsbD k = _
    rw [BitVec.getLsbD_allOnes]
  rw [BitVec.getLsbD_ushiftRight, ones, decide_eq_true_iff] at inShort
  rw [if_neg (by omega), BitVec.getLsbD_ushiftRight, ones, decide_eq_true_iff]
  omega

/-- Two addresses that agree with a network agree with each other on its prefix. -/
theorem egress_trans {parent requested : BitVec 32} (le : short ≤ long)
    (inParent : (parent ^^^ requested) &&& egressMask short = 0)
    (inRequested : (requested ^^^ ip) &&& egressMask long = 0) :
    (parent ^^^ ip) &&& egressMask short = 0 := by
  apply BitVec.eq_of_getLsbD_eq
  intro i _
  have outer := congrArg (fun word : BitVec 32 => word.getLsbD i) inParent
  have inner := congrArg (fun word : BitVec 32 => word.getLsbD i) inRequested
  simp only [BitVec.getLsbD_and, BitVec.getLsbD_xor] at outer inner ⊢
  cases masked : (egressMask short).getLsbD i with
  | false => simp
  | true =>
    rw [egressMask_mono le i masked, Bool.and_true] at inner
    grind

/-- An absolute path that is a prefix of the root path is the root path. -/
theorem absolute_prefix_root (absolute : path.head? = some '/') (short : path <+: ['/']) :
    path = ['/'] := by
  cases path with
  | nil => simp at absolute
  | cons c rest =>
    obtain ⟨tail, whole⟩ := short
    simp only [cons_append, cons.injEq, append_eq_nil_iff] at whole
    rw [whole.1, whole.2.1]

/-- The meaning of a rule other than the root rule: the path begins with it and ends there or
goes on with a separator. -/
theorem pathMatchesRule_iff (notRoot : rule.path ≠ ['/']) :
    pathMatchesRule path rule ↔ rule.path <+: path ∧
      (path[rule.path.length]? = none ∨ path[rule.path.length]? = some '/') := by
  simp only [pathMatchesRule, if_neg notRoot, Bool.and_eq_true, Bool.or_eq_true,
    decide_eq_true_eq, isPrefixOf_iff_prefix]

/-- A rule inside another one matches fewer paths. -/
theorem ruleCovers_match (covers : ruleCovers parent requested)
    (hit : pathMatchesRule path requested) : pathMatchesRule path parent := by
  by_cases parentRoot : parent.path = ['/']
  · simp [pathMatchesRule, parentRoot]
  simp only [ruleCovers, Bool.and_eq_true, pathMatchesRule_iff parentRoot] at covers
  obtain ⟨⟨outer, boundary⟩, -⟩ := covers
  by_cases requestedRoot : requested.path = ['/']
  · rw [requestedRoot] at outer
    exact absurd (absolute_prefix_root parent.absolute outer) parentRoot
  rw [pathMatchesRule_iff requestedRoot] at hit
  rw [pathMatchesRule_iff parentRoot]
  refine ⟨outer.trans hit.1, ?_⟩
  by_cases same : parent.path.length = requested.path.length
  · rw [same]
    exact hit.2
  -- The separator after the parent's path lies inside the requested path.
  have inside : parent.path.length < requested.path.length :=
    Nat.lt_of_le_of_ne outer.length_le same
  have here : path[parent.path.length]? = requested.path[parent.path.length]? := by
    obtain ⟨tail, rfl⟩ := hit.1
    exact getElem?_append_left inside
  rw [here]
  exact boundary

/-- A covering rule grants at least the rights. -/
theorem ruleCovers_rights
    (covers : ruleCovers parent requested) (granted : requested.rights &&& rights = rights) :
    parent.rights &&& rights = rights := by
  simp only [ruleCovers, Bool.and_eq_true, decide_eq_true_eq] at covers
  have sub := (and_not_eq_zero_iff _ _).mp covers.2
  apply BitVec.eq_of_getLsbD_eq
  intro i _
  have bit := congrArg (fun word : BitVec 8 => word.getLsbD i) granted
  simp only [BitVec.getLsbD_and] at bit ⊢
  cases wanted : rights.getLsbD i with
  | false => simp
  | true =>
    rw [wanted, Bool.and_true] at bit
    rw [Bool.and_true]
    exact sub i bit

/-- What an accepted comparison has checked. -/
structure Accepted (requested parent : CapabilitySet) : Prop where
  /-- Every word of the system call table. -/
  syscalls : ∀ i, requested.syscallAllow i &&& ~~~parent.syscallAllow i = 0
  /-- The network, if the parent restricts egress. -/
  egress : parent.egressEnforce = true →
    requested.egressEnforce = true ∧ cidrSubset requested parent = true
  /-- The memory cap, unless egress is restricted for the first time. -/
  pages : (requested.egressEnforce = false ∨ parent.egressEnforce = true) →
    parent.memoryPageCap = 0 ∨
      (requested.memoryPageCap ≠ 0 ∧ requested.memoryPageCap ≤ parent.memoryPageCap)
  /-- The path rules that are requested, with the same exception. -/
  paths : (requested.egressEnforce = false ∨ parent.egressEnforce = true) →
    parent.fsRules ≠ [] → ∀ rule ∈ requested.fsRules, ∃ other ∈ parent.fsRules,
      ruleCovers other rule = true

/-- `caps_subset` accepts only what it has checked. -/
theorem capsSubset_accepted {requested parent : CapabilitySet}
    (subset : capsSubset requested parent) : Accepted requested parent := by
  unfold capsSubset at subset
  split at subset
  · contradiction
  rename_i words
  have syscalls : ∀ i, requested.syscallAllow i &&& ~~~parent.syscallAllow i = 0 := by
    intro i
    by_contra extra
    exact words ⟨i, extra⟩
  split at subset
  · rename_i first
    refine ⟨syscalls, ?_, ?_, ?_⟩ <;> simp [first]
  rename_i notFirst
  split at subset
  · contradiction
  rename_i network
  split at subset
  · contradiction
  rename_i dropped
  split at subset
  · contradiction
  rename_i pages
  refine ⟨syscalls, ?_, ?_, ?_⟩
  · intro parentOn
    have requestedOn : requested.egressEnforce := by
      cases on : requested.egressEnforce with
      | true => rfl
      | false => exact absurd ⟨on, parentOn⟩ dropped
    refine ⟨requestedOn, ?_⟩
    cases inside : cidrSubset requested parent with
    | true => rfl
    | false => exact absurd ⟨requestedOn, inside⟩ network
  · intro _
    by_cases capped : parent.memoryPageCap = 0
    · exact .inl capped
    · exact .inr (by grind)
  · intro _ rules rule member
    rw [if_pos rules, all_eq_true] at subset
    exact any_eq_true.mp (subset rule member)

/-! ## The requested policy -/

/-- Allowing system calls changes nothing else. -/
theorem foldl_capAllow (numbers : List Nat) : ∀ caps : CapabilitySet,
    (numbers.foldl capAllow caps) =
      { caps with syscallAllow := (numbers.foldl capAllow caps).syscallAllow } := by
  induction numbers with
  | nil => exact fun _ => rfl
  | cons nr rest ih =>
    intro caps
    rw [foldl_cons, ih]
    unfold capAllow
    split <;> rfl

/-- What every decoded manifest has in common: it is enforced, and one that restricts egress
carries neither a memory cap nor path rules. -/
structure Decoded (caps : CapabilitySet) : Prop where
  /-- The set is enforced. -/
  enforce : caps.enforce = true
  /-- The `net:` manifests have no other part. -/
  netOnly : caps.egressEnforce = true → caps.memoryPageCap = 0 ∧ caps.fsRules = []

/-- The starting set. -/
theorem baseCaps_eq : baseCaps = { CapabilitySet.zero with
    syscallAllow := (capAllowCommon CapabilitySet.zero).syscallAllow, enforce := true } := by
  unfold baseCaps capAllowCommon
  rw [foldl_capAllow]

/-- The starting set, with the file calls. -/
theorem capAllowFiles_base : (capAllowFiles baseCaps).enforce ∧
    (capAllowFiles baseCaps).egressEnforce = false ∧
    (capAllowFiles baseCaps).memoryPageCap = 0 ∧ (capAllowFiles baseCaps).fsRules = [] := by
  exact ⟨rfl, rfl, rfl, rfl⟩

/-- Adding a path rule keeps the flags. -/
theorem capAddFsRule_flags {next : CapabilitySet}
    (added : capAddFsRule caps path rights = some next) :
    next.enforce = caps.enforce ∧ next.egressEnforce = caps.egressEnforce := by
  unfold capAddFsRule at added
  split at added
  · split at added
    · contradiction
    · rw [← Option.some.inj added]
      exact ⟨rfl, rfl⟩
  · contradiction

/-- The `fs:` manifests. -/
theorem fsCaps_decoded (decoded : fsCaps manifest = some caps) : Decoded caps := by
  have base := capAllowFiles_base
  simp only [fsCaps, Option.bind_eq_bind, Option.bind_eq_some_iff] at decoded
  obtain ⟨one, first, two, second, three, third, last⟩ := decoded
  have flags : three.enforce ∧ three.egressEnforce = false := by
    have f1 := capAddFsRule_flags first
    have f2 := capAddFsRule_flags second
    have f3 := capAddFsRule_flags third
    exact ⟨f3.1.trans (f2.1.trans (f1.1.trans base.1)),
      f3.2.trans (f2.2.trans (f1.2.trans base.2.1))⟩
  have result : caps.enforce ∧ caps.egressEnforce = false := by
    split at last
    · have f4 := capAddFsRule_flags last
      exact ⟨f4.1.trans flags.1, f4.2.trans flags.2⟩
    split at last
    · rw [← Option.some.inj last]
      exact flags
    · contradiction
  exact ⟨result.1, fun on => absurd (result.2.symm.trans on) (by decide)⟩

/-- The `net:` manifests. -/
theorem netCaps_decoded (proto : BitVec 8) (length : Fin 33) (ip : BitVec 32)
    (port : BitVec 16) : Decoded (netCaps proto length ip port) := by
  obtain ⟨enforce, -, pages, rules⟩ := capAllowFiles_base
  refine ⟨?_, fun _ => ⟨?_, ?_⟩⟩
  · simp only [netCaps, enforce]
  · simp only [netCaps, pages]
  · simp only [netCaps, rules]

/-- Every manifest that decodes. -/
theorem requestedCaps_decoded (decoded : requestedCaps manifest = some caps) : Decoded caps := by
  unfold requestedCaps at decoded
  split at decoded
  · rw [← Option.some.inj decoded, baseCaps_eq]
    exact ⟨rfl, fun on => by contradiction⟩
  split at decoded
  · exact fsCaps_decoded decoded
  split at decoded
  · rw [← Option.some.inj decoded, baseCaps_eq]
    exact ⟨rfl, fun on => by contradiction⟩
  split at decoded
  · rw [← Option.some.inj decoded]
    exact netCaps_decoded _ _ _ _
  split at decoded
  · rw [← Option.some.inj decoded]
    exact netCaps_decoded _ _ _ _
  split at decoded
  · obtain ⟨_, -, same⟩ := Option.map_eq_some_iff.mp decoded
    rw [← same]
    exact netCaps_decoded _ _ _ _
  split at decoded
  · obtain ⟨_, -, same⟩ := Option.map_eq_some_iff.mp decoded
    rw [← same]
    exact netCaps_decoded _ _ _ _
  · contradiction

/-! ## What an accepted policy permits -/

section Accept

variable {before after : PolicyDomain}

section

variable (accepted : Accepted after.caps before.caps)

include accepted

/-- Accepted system calls were permitted. -/
theorem Accepted.syscalls_le (enforced : after.caps.enforce) {nr : Nat}
    (allowed : cellSyscallAllowed after nr) : cellSyscallAllowed before nr := by
  unfold cellSyscallAllowed at allowed ⊢
  split
  · rfl
  rw [if_neg (by simp [enforced])] at allowed
  split at allowed
  · rename_i inside
    rw [dif_pos inside, decide_eq_true_iff]
    rw [decide_eq_true_iff] at allowed
    exact fun clear => allowed (masked_eq_zero (accepted.syscalls _) clear)
  · contradiction

/-- Accepted destinations were permitted. -/
theorem Accepted.egress_le {proto : BitVec 8} {port : BitVec 16}
    (allowed : cellEgressAllowed after proto ip port) : cellEgressAllowed before proto ip port := by
  unfold cellEgressAllowed egressMatch at allowed ⊢
  cases on : before.caps.egressEnforce with
  | false => rfl
  | true =>
    obtain ⟨requestedOn, network⟩ := accepted.egress on
    simp only [requestedOn, Bool.true_eq_false, ↓reduceIte, Bool.and_eq_true,
      decide_eq_true_eq] at allowed
    simp only [cidrSubset, Bool.and_eq_true, decide_eq_true_eq] at network
    obtain ⟨⟨⟨⟨proto', port'⟩, length⟩, inside⟩, -⟩ := network
    simp only [Bool.true_eq_false, ↓reduceIte, Bool.and_eq_true, decide_eq_true_eq]
    exact ⟨⟨proto'.trans allowed.1.1, port'.trans allowed.1.2⟩,
      egress_trans length inside allowed.2⟩

/-- Accepted paths were permitted when the requested set has rules, or the old one has
none. -/
theorem Accepted.paths_le (enforced : after.caps.enforce) (decoded : Decoded after.caps)
    (ruled : before.caps.fsRules = [] ∨ after.caps.fsRules ≠ [])
    (allowed : cellFsPathAllowed after path rights) : cellFsPathAllowed before path rights := by
  unfold cellFsPathAllowed at allowed ⊢
  split
  · rfl
  rename_i restricted
  rw [not_or] at restricted
  have rules := ruled.resolve_left restricted.2
  rw [if_neg (by simp [enforced, rules])] at allowed
  -- A policy with path rules does not restrict egress, so the rules were compared.
  have compared : after.caps.egressEnforce = false ∨ before.caps.egressEnforce := by
    cases on : after.caps.egressEnforce with
    | false => exact .inl rfl
    | true => exact absurd (decoded.netOnly on).2 rules
  obtain ⟨rule, member, hit⟩ := any_eq_true.mp allowed
  obtain ⟨other, member', covers⟩ := accepted.paths compared restricted.2 rule member
  refine any_eq_true.mpr ⟨other, member', ?_⟩
  simp only [Bool.and_eq_true, Bool.or_eq_true, decide_eq_true_eq] at hit ⊢
  exact ⟨ruleCovers_match covers hit.1, hit.2.imp_right (ruleCovers_rights covers)⟩

/-- Accepted page counts were permitted, unless egress is restricted for the first time over
a memory cap. -/
theorem Accepted.pages_le
    (compared : before.caps.memoryPageCap = 0 ∨ after.caps.egressEnforce = false ∨
      before.caps.egressEnforce) {pages : Nat} (allowed : pagesAllowed after pages) :
    pagesAllowed before pages := by
  unfold pagesAllowed at allowed ⊢
  simp only [Bool.or_eq_true, decide_eq_true_eq] at allowed ⊢
  rcases compared with uncapped | compared
  · exact .inl uncapped
  · have pages := accepted.pages compared
    omega

end

end Accept

/-! ## When attenuation holds -/

/-- One root rule grants all three rights. -/
def GrantsAll (rules : List FsRule) : Prop :=
  ∃ rule ∈ rules, rule.path = ['/'] ∧
    rule.rights &&& (cellFsRead ||| cellFsWrite ||| cellFsExec) =
      cellFsRead ||| cellFsWrite ||| cellFsExec

/-- None of the three gaps is hit: a policy that would be accepted has path rules where the
domain has restrictive ones, does not restrict egress for the first time over a memory cap,
and does not refill a CPU budget. -/
def NoGap (domain : PolicyDomain) (manifest : List Char) : Prop :=
  ∀ caps, requestedCaps manifest = some caps → capsSubset caps domain.caps = true →
    (domain.caps.fsRules = [] ∨ caps.fsRules ≠ [] ∨ GrantsAll domain.caps.fsRules) ∧
    (domain.caps.memoryPageCap = 0 ∨ caps.egressEnforce = false ∨
      domain.caps.egressEnforce = true) ∧
    (manifest = "compute-only".toList → domain.budget.maxTicks = 0 ∨
      domain.budget.remainingTicks = 0 ∨ 20 ≤ domain.budget.remainingTicks)

/-- The outcome for a manifest that decodes and passes the comparison. -/
theorem cellApplyPolicy_accepts
    (decoded : requestedCaps manifest = some caps) (subset : capsSubset caps domain.caps) :
    cellApplyPolicy domain manifest =
      (0, { decodedDomain domain manifest (some caps) with caps }) := by
  have named : manifest ≠ "bad-manifest".toList := by
    intro same
    rw [same] at decoded
    contradiction
  simp only [cellApplyPolicy, if_neg named, decoded, subset, Bool.true_eq_false, and_false,
    ↓reduceIte]

/-- Success on an enforced domain comes from a manifest that decodes and passes the
comparison. -/
theorem cellApplyPolicy_zero (enforced : domain.caps.enforce)
    (success : (cellApplyPolicy domain manifest).1 = 0) :
    ∃ caps, requestedCaps manifest = some caps ∧ capsSubset caps domain.caps := by
  unfold cellApplyPolicy at success
  split at success
  · simp at success
  dsimp only at success
  split at success
  · simp at success
  rename_i caps decoded
  split at success
  · simp at success
  · rename_i subset
    exact ⟨caps, decoded, by simpa [enforced] using subset⟩

/-- A rule that matches the root path is the root rule. -/
theorem pathMatchesRule_root (hit : pathMatchesRule ['/'] rule) : rule.path = ['/'] := by
  by_contra notRoot
  rw [pathMatchesRule_iff notRoot] at hit
  exact notRoot (absolute_prefix_root rule.absolute hit.1)

/-- On a domain under an enforced policy, and for every manifest, a successful
`cell_apply_policy` only takes rights away exactly when none of the three gaps is hit. -/
theorem cell_apply_policy_attenuates_iff (domain : PolicyDomain)
    (enforced : domain.caps.enforce = true) (manifest : List Char) :
    ((cellApplyPolicy domain manifest).1 = 0 →
      Attenuates domain (cellApplyPolicy domain manifest).2) ↔ NoGap domain manifest := by
  constructor
  · intro attenuates caps decodes subset
    have outcome := cellApplyPolicy_accepts decodes subset
    have decoded := requestedCaps_decoded decodes
    rw [outcome] at attenuates
    have less := attenuates rfl
    refine ⟨?_, ?_, ?_⟩
    · by_cases noRules : domain.caps.fsRules = []
      · exact .inl noRules
      by_cases rules : caps.fsRules = []
      · -- Without rules the new policy permits everything, the root path included.
        have root := less.paths ['/'] (cellFsRead ||| cellFsWrite ||| cellFsExec) (by decide)
          (by simp [cellFsPathAllowed, rules])
        rw [cellFsPathAllowed, if_neg (by simp [enforced, noRules])] at root
        obtain ⟨rule, member, hit⟩ := any_eq_true.mp root
        simp only [Bool.and_eq_true, Bool.or_eq_true, decide_eq_true_eq] at hit
        refine .inr (.inr ⟨rule, member, pathMatchesRule_root hit.1, ?_⟩)
        exact hit.2.resolve_left (by decide)
      · exact .inr (.inl rules)
    · by_contra gap
      simp only [not_or, Bool.not_eq_true, Bool.not_eq_false] at gap
      have uncapped := (decoded.netOnly gap.2.1).1
      have more := less.pages (domain.caps.memoryPageCap + 1) (by simp [pagesAllowed, uncapped])
      simp only [pagesAllowed, Bool.or_eq_true, decide_eq_true_eq] at more
      omega
    · intro compute
      have more := less.ticks 19 (by simp [ticksAllowed, decodedDomain, compute])
      simp only [ticksAllowed, Bool.or_eq_true, decide_eq_true_eq] at more
      omega
  · intro noGap success
    obtain ⟨caps, decodes, subset⟩ := cellApplyPolicy_zero enforced success
    obtain ⟨rules, memory, refill⟩ := noGap caps decodes subset
    have decoded := requestedCaps_decoded decodes
    have accepted := capsSubset_accepted subset
    rw [cellApplyPolicy_accepts decodes subset]
    refine ⟨fun nr => Accepted.syscalls_le accepted decoded.enforce, ?_,
      fun _ _ _ => Accepted.egress_le accepted, fun _ => Accepted.pages_le accepted memory, ?_⟩
    · intro path rights wanted allowed
      by_cases compared : domain.caps.fsRules = [] ∨ caps.fsRules ≠ []
      · exact Accepted.paths_le accepted decoded.enforce decoded compared allowed
      -- Only a root rule with all rights is left, and it permits every pair.
      rw [not_or] at compared
      obtain ⟨rule, member, root, all⟩ := (rules.resolve_left compared.1).resolve_left compared.2
      rw [cellFsPathAllowed, if_neg (by simp [enforced, compared.1])]
      refine any_eq_true.mpr ⟨rule, member, ?_⟩
      have granted : rule.rights &&& rights = rights := by
        have sub := (and_not_eq_zero_iff _ _).mp wanted
        apply BitVec.eq_of_getLsbD_eq
        intro i _
        have bit := congrArg (fun word : BitVec 8 => word.getLsbD i) all
        simp only [BitVec.getLsbD_and (x := rule.rights)] at bit ⊢
        cases want : rights.getLsbD i with
        | false => simp
        | true =>
          rw [sub i want, Bool.and_true] at bit
          rw [Bool.and_true]
          exact bit
      simp [pathMatchesRule, root, granted]
    · intro ticks allowed
      unfold ticksAllowed at allowed ⊢
      by_cases compute : manifest = "compute-only".toList
      · have enough := refill compute
        simp only [decodedDomain, compute, ↓reduceIte, Bool.or_eq_true,
          decide_eq_true_eq] at allowed ⊢
        omega
      · simpa only [decodedDomain, if_neg compute] using allowed

/-- A domain before any policy. -/
def freshDomain : PolicyDomain := ⟨CapabilitySet.zero, "/".toList, ⟨0, 0⟩⟩

/-- The same domain confined to `/tmp` and the library directories. -/
def tmpDomain : PolicyDomain := (cellApplyPolicy freshDomain "fs:/tmp".toList).2

/-- The confined domain is enforced, and repeating its own manifest hits no gap. -/
theorem cell_apply_policy_attenuates_tmp :
    tmpDomain.caps.enforce = true ∧
      (((cellApplyPolicy tmpDomain "fs:/tmp".toList).1 = 0 →
        Attenuates tmpDomain (cellApplyPolicy tmpDomain "fs:/tmp".toList).2) ↔
        NoGap tmpDomain "fs:/tmp".toList) :=
  ⟨by decide +kernel, cell_apply_policy_attenuates_iff tmpDomain (by decide +kernel) _⟩

/-- Confined to `/tmp`, the domain applies `compute-only` successfully and may then write
`/etc/passwd`. -/
theorem compute_only_drops_path_rules :
    tmpDomain.caps.enforce = true ∧
      (cellApplyPolicy tmpDomain "compute-only".toList).1 = 0 ∧
      ¬ Attenuates tmpDomain (cellApplyPolicy tmpDomain "compute-only".toList).2 := by
  refine ⟨by decide +kernel, by decide +kernel, fun less => ?_⟩
  have write := less.paths "/etc/passwd".toList cellFsWrite (by decide)
  exact absurd (write (by decide +kernel)) (by decide +kernel)

/-! ## What a refused manifest leaves behind -/

/-- A failed call stops before the capabilities are installed, with the root and the budget
already written. -/
theorem cellApplyPolicy_failed (failed : (cellApplyPolicy domain manifest).1 ≠ 0) :
    (cellApplyPolicy domain manifest).2 = if manifest = "bad-manifest".toList then domain
      else decodedDomain domain manifest (requestedCaps manifest) := by
  unfold cellApplyPolicy at failed ⊢
  split
  · rfl
  rename_i named
  rw [if_neg named] at failed
  cases decoded : requestedCaps manifest with
  | none => rfl
  | some caps =>
    rw [decoded] at failed
    dsimp only at failed ⊢
    split
    · rfl
    · rename_i accepted
      rw [if_neg accepted] at failed
      exact absurd rfl failed

/-- A failed `cell_apply_policy` always keeps the capabilities. It keeps the whole domain
exactly when the manifest is refused by name, or when the root and the budget that it writes
before the last test are those that the domain has. -/
theorem cell_apply_policy_atomic_iff (domain : PolicyDomain) (manifest : List Char)
    (failed : (cellApplyPolicy domain manifest).1 ≠ 0) :
    (cellApplyPolicy domain manifest).2.caps = domain.caps ∧
      ((cellApplyPolicy domain manifest).2 = domain ↔
        manifest = "bad-manifest".toList ∨
          domain.fsRoot = (if "fs:/tmp".toList.isPrefixOf manifest ∧
            (requestedCaps manifest).isSome then "/tmp".toList else "/".toList) ∧
          (manifest = "compute-only".toList → domain.budget = ⟨20, 20⟩)) := by
  rw [cellApplyPolicy_failed failed]
  by_cases named : manifest = "bad-manifest".toList
  · rw [if_pos named]
    exact ⟨rfl, iff_of_true rfl (.inl named)⟩
  rw [if_neg named]
  refine ⟨rfl, fun same => .inr ⟨?_, fun compute => ?_⟩, fun written => ?_⟩
  · exact (congrArg PolicyDomain.fsRoot same).symm
  · have budget := congrArg PolicyDomain.budget same
    rw [decodedDomain, if_pos compute] at budget
    exact budget.symm
  · obtain ⟨root, budget⟩ := written.resolve_left named
    rw [decodedDomain, ← root]
    split
    · rename_i compute
      rw [← budget compute]
    · rfl

/-- A domain whose root is `/` refuses an unknown manifest without a change. -/
theorem cell_apply_policy_atomic_unknown :
    (cellApplyPolicy freshDomain "disk:1".toList).1 ≠ 0 ∧
      (cellApplyPolicy freshDomain "disk:1".toList).2 = freshDomain :=
  ⟨by decide +kernel, (cell_apply_policy_atomic_iff freshDomain "disk:1".toList
    (by decide +kernel)).2.mpr (.inr (by decide +kernel))⟩

/-- The confined domain loses its root to an unknown manifest, and a domain with a memory cap
that asks for `compute-only` in vain starts a budget of twenty ticks. -/
theorem refused_manifest_writes_root_and_budget :
    (cellApplyPolicy tmpDomain "disk:1".toList).1 = -2 ∧ tmpDomain.fsRoot = "/tmp".toList ∧
      (cellApplyPolicy tmpDomain "disk:1".toList).2.fsRoot = "/".toList ∧
      (cellApplyPolicy (cellApplyPolicy freshDomain "mem:1".toList).2
        "compute-only".toList).1 = -1 ∧
      (cellApplyPolicy freshDomain "mem:1".toList).2.budget = ⟨0, 0⟩ ∧
      (cellApplyPolicy (cellApplyPolicy freshDomain "mem:1".toList).2
        "compute-only".toList).2.budget = ⟨20, 20⟩ := by
  decide +kernel

end Spore.Proc
