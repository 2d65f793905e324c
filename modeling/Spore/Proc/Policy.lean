import Mathlib.Data.BitVec
import Mathlib.Data.List.Basic
import Mathlib.Algebra.Ring.Nat

/-!
# Capability policies (`proc/policy.c`)

A domain under an enforced policy carries a capability set: the system calls it may make,
path rules, one egress rule and a memory cap. `cell_apply_policy` decodes a manifest into a
new set, compares it with the current one and installs it. C strings are lists of characters
without their terminator.
-/

namespace Spore.Proc

/-- `CELL_FS_READ`. -/
def cellFsRead : BitVec 8 := 1

/-- `CELL_FS_WRITE`. -/
def cellFsWrite : BitVec 8 := 2

/-- `CELL_FS_EXEC`. -/
def cellFsExec : BitVec 8 := 4

/-- `CELL_FS_RULE_CAP`. -/
def cellFsRuleCap : Nat := 8

/-- `CELL_PATH_MAX`. -/
def cellPathMax : Nat := 256

/-- `IPPROTO_TCP`. -/
def ipprotoTcp : BitVec 8 := 6

/-- `IPPROTO_UDP`. -/
def ipprotoUdp : BitVec 8 := 17

/-- `struct fs_rule`. -/
structure FsRule where
  /-- An absolute path. -/
  path : List Char
  /-- `CELL_FS_*` bits. -/
  rights : BitVec 8
  /-- `cap_add_fs_rule` refuses a path that does not start at the root. -/
  absolute : path.head? = some '/'
  deriving DecidableEq

/-- `struct capability_set`, without the two fields that nothing reads. -/
structure CapabilitySet where
  /-- `syscall_allow`: one bit for each number below 512. -/
  syscallAllow : Fin 8 → BitVec 64
  /-- Whether calls and paths are checked. -/
  enforce : Bool
  /-- Whether traffic is checked. -/
  egressEnforce : Bool
  /-- Pages the domain may map; zero stands for no cap. -/
  memoryPageCap : Nat
  /-- `fs_rules` up to `fs_rule_count`; no rule stands for no restriction. -/
  fsRules : List FsRule
  /-- The network. -/
  egressIp : BitVec 32
  /-- The port. -/
  egressPort : BitVec 16
  /-- The protocol. -/
  egressProto : BitVec 8
  /-- Length of the network prefix, which `parse_ipv4_port` bounds by 32. -/
  egressPrefix : Fin 33

/-- The zeroed set. -/
def CapabilitySet.zero : CapabilitySet where
  syscallAllow := fun _ => 0
  enforce := false
  egressEnforce := false
  memoryPageCap := 0
  fsRules := []
  egressIp := 0
  egressPort := 0
  egressProto := 0
  egressPrefix := 0

/-- `struct cpu_budget`. -/
structure CpuBudget where
  /-- Ticks left. -/
  remainingTicks : Nat
  /-- Ticks granted; zero stands for no budget. -/
  maxTicks : Nat
  deriving Repr, DecidableEq

/-- The fields of `struct domain` that policies concern. -/
structure PolicyDomain where
  /-- The capabilities. -/
  caps : CapabilitySet
  /-- The root of its paths. -/
  fsRoot : List Char
  /-- Its share of time. -/
  budget : CpuBudget

/-! ## Parsing -/

/-- Value of a decimal digit. -/
def decDigit (c : Char) : Option Nat :=
  if '0' ≤ c ∧ c ≤ '9' then some (c.toNat - '0'.toNat) else none

/-- The digit loop of `parse_dec`, after its first digit. -/
def parseDecRest (max : Nat) : Nat → List Char → Option (Nat × List Char)
  | value, [] => some (value, [])
  | value, c :: rest =>
    match decDigit c with
    | none => some (value, c :: rest)
    | some digit =>
      if max < value * 10 + digit then none else parseDecRest max (value * 10 + digit) rest

/-- A decimal number up to a bound, and the rest. -/
def parseDec (max : Nat) : List Char → Option (Nat × List Char)
  | [] => none
  | c :: rest =>
    match decDigit c with
    | none => none
    | some _ => parseDecRest max 0 (c :: rest)

/-- One expected character. -/
def expect (c : Char) : List Char → Option (List Char)
  | [] => none
  | head :: rest => if head = c then some rest else none

/-- `parse_ipv4_port`: address in network order, prefix length and port. -/
def parseIpv4Port (s : List Char) : Option (BitVec 32 × Fin 33 × BitVec 16) := do
  let (a, s) ← parseDec 255 s
  let s ← expect '.' s
  let (b, s) ← parseDec 255 s
  let s ← expect '.' s
  let (c, s) ← parseDec 255 s
  let s ← expect '.' s
  let (d, s) ← parseDec 255 s
  let (prefixValue, s) ← match s with
    | '/' :: rest => parseDec 32 rest
    | rest => some (32, rest)
  let s ← expect ':' s
  let (port, s) ← parseDec 65535 s
  if s ≠ [] then none
  else
    let ip := BitVec.ofNat 32 a ||| (BitVec.ofNat 32 b <<< 8) ||| (BitVec.ofNat 32 c <<< 16) |||
      (BitVec.ofNat 32 d <<< 24)
    some (ip, Fin.ofNat 33 prefixValue, BitVec.ofNat 16 port)

/-! ## Checks -/

/-- The mask of a prefix length. -/
def egressMask (length : Fin 33) : BitVec 32 :=
  if length.val = 0 then 0 else (0xffffffff : BitVec 32) >>> (32 - length.val)

/-- The protocol, port and network of the rule; anything without enforcement. -/
def egressMatch (caps : CapabilitySet) (proto : BitVec 8) (ip : BitVec 32)
    (port : BitVec 16) : Bool :=
  if caps.egressEnforce = false then true
  else decide (caps.egressProto = proto) && decide (caps.egressPort = port) &&
    decide ((caps.egressIp ^^^ ip) &&& egressMask caps.egressPrefix = 0)

/-- A rule covers its path and what lies below it. -/
def pathMatchesRule (path : List Char) (rule : FsRule) : Bool :=
  if rule.path = ['/'] then true
  else rule.path.isPrefixOf path &&
    (decide (path[rule.path.length]? = none) || decide (path[rule.path.length]? = some '/'))

/-- The path test of `caps_subset`, which repeats `path_matches_rule` on a rule's path, and
its rights test. -/
def ruleCovers (parent requested : FsRule) : Bool :=
  pathMatchesRule requested.path parent && decide (requested.rights &&& ~~~parent.rights = 0)

/-- The network test of `caps_subset`. -/
def cidrSubset (requested parent : CapabilitySet) : Bool :=
  decide (parent.egressProto = requested.egressProto) &&
  decide (parent.egressPort = requested.egressPort) &&
  decide (parent.egressPrefix ≤ requested.egressPrefix) &&
  decide ((parent.egressIp ^^^ requested.egressIp) &&& egressMask parent.egressPrefix = 0) &&
  (decide (requested.egressIp &&& egressMask requested.egressPrefix = requested.egressIp) ||
    decide (requested.egressPrefix.val = 32))

/-- `caps_subset`. When the requested set restricts egress and the parent does not, the
source returns before the memory and path tests. -/
def capsSubset (requested parent : CapabilitySet) : Bool :=
  if ∃ i, requested.syscallAllow i &&& ~~~parent.syscallAllow i ≠ 0 then false
  else if requested.egressEnforce = true ∧ parent.egressEnforce = false then true
  else if requested.egressEnforce = true ∧ cidrSubset requested parent = false then false
  else if requested.egressEnforce = false ∧ parent.egressEnforce = true then false
  else if parent.memoryPageCap ≠ 0 ∧ (requested.memoryPageCap = 0 ∨
      parent.memoryPageCap < requested.memoryPageCap) then false
  else if parent.fsRules ≠ [] then
    requested.fsRules.all fun rule => parent.fsRules.any fun other => ruleCovers other rule
  else true

/-- Some rule for the path has the rights, or there is no rule. -/
def cellFsPathAllowed (domain : PolicyDomain) (path : List Char) (rights : BitVec 8) : Bool :=
  if domain.caps.enforce = false ∨ domain.caps.fsRules = [] then true
  else domain.caps.fsRules.any fun rule =>
    pathMatchesRule path rule && (decide (rights = 0) || decide (rule.rights &&& rights = rights))

/-- The bit of the call, or no restriction. -/
def cellSyscallAllowed (domain : PolicyDomain) (nr : Nat) : Bool :=
  if domain.caps.enforce = false then true
  else if h : nr < 512 then
    decide (domain.caps.syscallAllow ⟨nr / 64, by omega⟩ &&& (1#64 <<< (nr % 64)) ≠ 0)
  else false

/-- Traffic to the address may leave. -/
def cellEgressAllowed (domain : PolicyDomain) (proto : BitVec 8) (ip : BitVec 32)
    (port : BitVec 16) : Bool :=
  if domain.caps.egressEnforce = false then true else egressMatch domain.caps proto ip port

/-- The bound that `memory_pages_allowed` puts on a domain's mapped pages. -/
def pagesAllowed (domain : PolicyDomain) (pages : Nat) : Bool :=
  decide (domain.caps.memoryPageCap = 0) || decide (pages ≤ domain.caps.memoryPageCap)

/-- Whether the domain survives that many further timer ticks: the handler counts down only
while both fields are nonzero, and kills the domain when it reaches zero. -/
def ticksAllowed (domain : PolicyDomain) (ticks : Nat) : Bool :=
  decide (domain.budget.maxTicks = 0) || decide (domain.budget.remainingTicks = 0) ||
    decide (ticks < domain.budget.remainingTicks)

/-! ## Applying a manifest -/

/-- The bit of a call is set. -/
def capAllow (caps : CapabilitySet) (nr : Nat) : CapabilitySet :=
  if nr < 512 then
    { caps with syscallAllow := fun i =>
        if i.val = nr / 64 then caps.syscallAllow i ||| (1#64 <<< (nr % 64))
        else caps.syscallAllow i }
  else caps

/-- The table of `cap_allow_common`. -/
def commonSyscalls : List Nat :=
  [17, 19, 23, 24, 25, 29, 57, 59, 63, 64, 65, 66, 72, 73, 80, 93, 94, 96, 98, 99, 101,
   103, 48, 113, 115, 123, 124, 134, 135, 144, 146, 160, 161, 172, 173, 174, 175, 176, 177,
   178, 179, 198, 200, 203, 204, 206, 207, 208, 209, 211, 212, 214, 215, 216, 220, 221, 222,
   226, 233, 260, 261, 278, 439]

/-- The table of `cap_allow_files`. -/
def fileSyscalls : List Nat :=
  [34, 35, 38, 46, 49, 50, 52, 53, 54, 55, 56, 61, 62, 78, 79, 82, 276]

/-- The calls that every program needs. -/
def capAllowCommon (caps : CapabilitySet) : CapabilitySet := commonSyscalls.foldl capAllow caps

/-- The calls on files. -/
def capAllowFiles (caps : CapabilitySet) : CapabilitySet := fileSyscalls.foldl capAllow caps

/-- `copy_cstr` into a path field. -/
def copyPath (src : List Char) : List Char := src.take (cellPathMax - 1)

/-- Truncation keeps the first character. -/
theorem copyPath_absolute {path : List Char} (absolute : path.head? = some '/') :
    (copyPath path).head? = some '/' := by
  rw [copyPath, List.head?_take, if_neg (by decide), absolute]

/-- A rule more, if it fits. -/
def capAddFsRule (caps : CapabilitySet) (path : List Char) (rights : BitVec 8) :
    Option CapabilitySet :=
  if absolute : path.head? = some '/' then
    if cellFsRuleCap ≤ caps.fsRules.length then none
    else some { caps with
      fsRules := caps.fsRules ++ [⟨copyPath path, rights, copyPath_absolute absolute⟩] }
  else none

/-- The set that every manifest starts from. -/
def baseCaps : CapabilitySet := { capAllowCommon CapabilitySet.zero with enforce := true }

/-- The egress rule of the `net:` manifests. -/
def netCaps (proto : BitVec 8) (length : Fin 33) (ip : BitVec 32) (port : BitVec 16) :
    CapabilitySet :=
  { capAllowFiles baseCaps with
    egressEnforce := true
    egressProto := proto
    egressPrefix := length
    egressIp := ip
    egressPort := port }

/-- The rules of `fs:/tmp`, and one more for `fs:/tmp;exec:PATH`. -/
def fsCaps (manifest : List Char) : Option CapabilitySet := do
  let caps ← capAddFsRule (capAllowFiles baseCaps) "/tmp".toList
    (cellFsRead ||| cellFsWrite ||| cellFsExec)
  let caps ← capAddFsRule caps "/lib".toList (cellFsRead ||| cellFsExec)
  let caps ← capAddFsRule caps "/usr/local/lib".toList (cellFsRead ||| cellFsExec)
  if "fs:/tmp;exec:".toList.isPrefixOf manifest then
    capAddFsRule caps (manifest.drop 13) (cellFsRead ||| cellFsExec)
  else if manifest = "fs:/tmp".toList then some caps
  else none

/-- The policy that a manifest denotes: the local `caps` of `cell_apply_policy` once the
manifest was decoded, or none where the source returns `-2`. -/
def requestedCaps (manifest : List Char) : Option CapabilitySet :=
  if manifest = "compute-only".toList then some baseCaps
  else if "fs:/tmp".toList.isPrefixOf manifest then fsCaps manifest
  else if manifest = "mem:1".toList then some { baseCaps with memoryPageCap := 1 }
  else if manifest = "net:none".toList then some (netCaps 0 32 0 0)
  else if manifest = "net:dns".toList then some (netCaps ipprotoUdp 0 0 53)
  else if "net:udp:".toList.isPrefixOf manifest then
    (parseIpv4Port (manifest.drop 8)).map fun (ip, length, port) =>
      netCaps ipprotoUdp length (ip &&& egressMask length) port
  else if "net:tcp:".toList.isPrefixOf manifest then
    (parseIpv4Port (manifest.drop 8)).map fun (ip, length, port) =>
      netCaps ipprotoTcp length (ip &&& egressMask length) port
  else none

/-- The domain after decoding and before the comparison: the root and, for `compute-only`,
the budget are already written. -/
def decodedDomain (domain : PolicyDomain) (manifest : List Char)
    (requested : Option CapabilitySet) : PolicyDomain :=
  { domain with
    fsRoot := if "fs:/tmp".toList.isPrefixOf manifest ∧ requested.isSome then "/tmp".toList
      else "/".toList
    budget := if manifest = "compute-only".toList then ⟨20, 20⟩ else domain.budget }

/-- `cell_apply_policy` on the current domain. -/
def cellApplyPolicy (domain : PolicyDomain) (manifest : List Char) : Int × PolicyDomain :=
  if manifest = "bad-manifest".toList then (-1, domain)
  else
    let requested := requestedCaps manifest
    let decoded := decodedDomain domain manifest requested
    match requested with
    | none => (-2, decoded)
    | some caps =>
      if domain.caps.enforce = true ∧ capsSubset caps domain.caps = false then (-1, decoded)
      else (0, { decoded with caps })

end Spore.Proc
