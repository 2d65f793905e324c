import Mathlib.Algebra.Ring.Nat
import Spore.Net.TcpReceive

/-!
# Received frames (`net/net.c`)

The way of a frame from the driver to the delivery functions, with every test on it. The
checksum over the pseudo header is computed in a scratch buffer for 1480 bytes of payload; a
longer payload gets the answer that stands for a correct sum, and passes unverified. Messages
of ICMP and ARP are not followed further.
-/

namespace Spore.Net

open List Option

/-! ## Ones'-complement sums -/

/-- The sixteen-bit words of a byte string, an odd last byte padded with zero. -/
def beWords : List UInt8 → List Nat
  | hi :: lo :: rest => (hi.toNat * 256 + lo.toNat) :: beWords rest
  | [last] => [last.toNat * 256]
  | [] => []

/-- Ones'-complement addition: a carry comes back at the low end. -/
def onesAdd (a b : Nat) : Nat := (a + b) % 2 ^ 16 + (a + b) / 2 ^ 16

/-- The ones'-complement sum of a byte string. -/
def onesSum (data : List UInt8) : Nat := (beWords data).foldl onesAdd 0

/-- The second loop of `checksum`. -/
def foldCarry (sum : Nat) : Nat :=
  if sum / 2 ^ 16 = 0 then sum else foldCarry (sum % 2 ^ 16 + sum / 2 ^ 16)
termination_by sum

/-- `checksum`: the words are added in 32 bits and the carries folded in afterwards. -/
def checksum (data : List UInt8) : Nat :=
  2 ^ 16 - 1 - foldCarry ((beWords data).foldl (fun sum word => (sum + word) % 2 ^ 32) 0)

/-- What both ways of summing arrive at: the residue modulo 2^16 - 1, with the nonzero
representative for a nonzero total. -/
def onesResidue (total : Nat) : Nat := if total = 0 then 0 else (total - 1) % 65535 + 1

/-- Folding the carries gives the residue. -/
theorem foldCarry_eq (sum : Nat) : foldCarry sum = onesResidue sum := by
  induction sum using foldCarry.induct with
  | case1 sum small =>
    rw [foldCarry, if_pos small, onesResidue]
    split <;> omega
  | case2 sum large ih =>
    rw [foldCarry, if_neg large, ih, onesResidue, onesResidue]
    split <;> split <;> omega

/-- Ones'-complement addition is addition of the totals. -/
theorem onesAdd_residue (total : Nat) {word : Nat} (small : word < 2 ^ 16) :
    onesAdd (onesResidue total) word = onesResidue (total + word) := by
  unfold onesAdd onesResidue
  split <;> split <;> omega

/-- A word has sixteen bits. -/
theorem beWords_small (data : List UInt8) : ∀ word ∈ beWords data, word < 2 ^ 16 := by
  fun_induction beWords data with
  | case1 hi lo rest ih =>
    have := hi.toNat_lt
    have := lo.toNat_lt
    exact forall_mem_cons.mpr ⟨by omega, ih⟩
  | case2 last =>
    have := last.toNat_lt
    exact forall_mem_singleton.mpr (by omega)
  | case3 => exact forall_mem_nil _

/-- So the words of a byte string that an IPv4 packet can hold add up to less than 32 bits. -/
theorem beWords_sum (data : List UInt8) : (beWords data).sum ≤ data.length * 65535 := by
  fun_induction beWords data with
  | case1 hi lo rest ih =>
    have := hi.toNat_lt
    have := lo.toNat_lt
    simp only [sum_cons, length_cons]
    omega
  | case2 last =>
    have := last.toNat_lt
    simp only [sum_cons, sum_nil, length_cons, length_nil]
    omega
  | case3 => simp

/-- Ones'-complement sums from any total so far. -/
theorem foldl_onesAdd (words : List Nat) : ∀ total, (∀ word ∈ words, word < 2 ^ 16) →
    words.foldl onesAdd (onesResidue total) = onesResidue (total + words.sum) := by
  induction words with
  | nil => exact fun _ _ => rfl
  | cons word rest ih =>
    intro total small
    rw [foldl_cons, onesAdd_residue total (small word mem_cons_self), sum_cons, ← Nat.add_assoc]
    exact ih _ fun other member => small other (mem_cons_of_mem _ member)

/-- The ones'-complement sum of a byte string is the residue of the plain one. -/
theorem onesSum_eq (data : List UInt8) : onesSum data = onesResidue (beWords data).sum := by
  rw [onesSum, show 0 = onesResidue 0 from rfl, foldl_onesAdd _ 0 (beWords_small data),
    Nat.zero_add]

/-- Sums that fit in 32 bits are added exactly. -/
theorem foldl_add_mod (words : List Nat) : ∀ total, total + words.sum < 2 ^ 32 →
    words.foldl (fun sum word => (sum + word) % 2 ^ 32) total = total + words.sum := by
  induction words with
  | nil => exact fun _ _ => rfl
  | cons word rest ih =>
    intro total room
    rw [sum_cons] at room ⊢
    rw [foldl_cons, Nat.mod_eq_of_lt (by omega), ih _ (by omega), Nat.add_assoc]

/-- `checksum` answers zero exactly when the ones'-complement sum is all ones. -/
theorem checksum_eq_zero_iff {data : List UInt8} (short : data.length < 2 ^ 16) :
    checksum data = 0 ↔ onesSum data = 0xffff := by
  have sum := beWords_sum data
  rw [checksum, foldl_add_mod _ 0 (by omega), Nat.zero_add, foldCarry_eq, onesSum_eq, onesResidue]
  split <;> omega

/-! ## Headers -/

/-- A byte, zero beyond the end. -/
def byteOf (p : List UInt8) (i : Nat) : UInt8 := p.getD i 0

/-- Two bytes, the high one first. -/
def loadBe16 (p : List UInt8) (i : Nat) : Nat :=
  (byteOf p i).toNat * 256 + (byteOf p (i + 1)).toNat

/-- Four bytes, the high one first. -/
def loadBe32 (p : List UInt8) (i : Nat) : UInt32 :=
  UInt32.ofNat (loadBe16 p i * 65536 + loadBe16 p (i + 2))

/-- The two bytes of a number. -/
def storeBe16 (v : Nat) : List UInt8 := [UInt8.ofNat (v / 256), UInt8.ofNat v]

/-- Addresses are kept with their first byte lowest. -/
def loadIp (p : List UInt8) (i : Nat) : BitVec 32 :=
  (byteOf p (i + 3)).toBitVec ++ (byteOf p (i + 2)).toBitVec ++ (byteOf p (i + 1)).toBitVec ++
    (byteOf p i).toBitVec

/-- The bytes of an address in the order of memory. -/
def storeIp (ip : BitVec 32) : List UInt8 :=
  [0, 8, 16, 24].map fun shift => ⟨(ip >>> shift).setWidth 8⟩

/-- The header that the checksums of TCP and UDP cover with the payload. -/
def pseudoHeader (proto : UInt8) (srcIp dstIp : BitVec 32) (len : Nat) : List UInt8 :=
  storeIp srcIp ++ storeIp dstIp ++ [0, proto] ++ storeBe16 len

/-- `ip_payload_checksum`. -/
def ipPayloadChecksum (proto : UInt8) (srcIp dstIp : BitVec 32) (payload : List UInt8) : Nat :=
  if 1480 < payload.length then 0
  else checksum (pseudoHeader proto srcIp dstIp payload.length ++ payload)

/-- The ones'-complement sum over the pseudo header and all bytes is correct. -/
def Verified (proto : UInt8) (srcIp dstIp : BitVec 32) (payload : List UInt8) : Prop :=
  onesSum (pseudoHeader proto srcIp dstIp payload.length ++ payload) = 0xffff

/-- What reaches the delivery functions. -/
inductive Delivery where
  | tcp (srcIp : BitVec 32) (srcPort dstPort window : Nat) (seg : TcpSegment)
      (options : List UInt8)
  | udp (srcIp : BitVec 32) (srcPort dstPort : Nat) (data : List UInt8)
  | icmp (srcIp : BitVec 32) (message : List UInt8)
  deriving DecidableEq

/-- The flags of a segment. -/
def tcpFlags (bits : UInt8) : TcpFlags :=
  ⟨bits &&& 1 != 0, bits &&& 2 != 0, bits &&& 4 != 0, bits &&& 16 != 0⟩

/-- `handle_tcp`, up to the call of the socket. -/
def handleTcp (srcIp dstIp : BitVec 32) (tcp : List UInt8) : Option Delivery :=
  let offset := (byteOf tcp 12).toNat / 16 * 4
  let flags := tcpFlags (byteOf tcp 13)
  if tcp.length < 20 then none
  else if ipPayloadChecksum 6 srcIp dstIp tcp ≠ 0 then none
  else if offset < 20 ∨ tcp.length < offset then none
  else if flags.syn = true ∧ (flags.fin = true ∨ flags.rst = true) then none
  else if flags.fin = true ∧ flags.rst = true then none
  else if loadBe16 tcp 0 = 0 ∨ loadBe16 tcp 2 = 0 then none
  else some (.tcp srcIp (loadBe16 tcp 0) (loadBe16 tcp 2) (loadBe16 tcp 14)
    ⟨loadBe32 tcp 4, loadBe32 tcp 8, flags, tcp.drop offset⟩ ((tcp.take offset).drop 20))

/-- `handle_udp` up to the delivery. -/
def handleUdp (srcIp dstIp : BitVec 32) (udp : List UInt8) : Option Delivery :=
  let udpLen := loadBe16 udp 4
  if udp.length < 8 then none
  else if udpLen < 8 ∨ udp.length < udpLen then none
  else if loadBe16 udp 2 = 0 then none
  else if loadBe16 udp 6 ≠ 0 ∧ ipPayloadChecksum 17 srcIp dstIp (udp.take udpLen) ≠ 0 then none
  else some (.udp srcIp (loadBe16 udp 0) (loadBe16 udp 2) ((udp.take udpLen).drop 8))

/-- The addresses of `net_set_config` that the receive path reads. -/
structure NetConfig where
  /-- The own address. -/
  localIp : BitVec 32
  /-- The mask of the network. -/
  netmask : BitVec 32

namespace NetConfig

variable (net : NetConfig)

/-- The broadcast addresses. -/
def isBroadcast (ip : BitVec 32) : Bool :=
  ip == 0xffffffff || net.netmask != 0 && ip == (net.localIp ||| ~~~net.netmask)

/-- Addresses that no sender on the wire has. -/
def isInvalidWireSource (ip : BitVec 32) : Bool :=
  ip == 0 || ip == net.localIp || ip &&& 0xff == 127 || net.isBroadcast ip ||
    ip &&& 0xf0 == 0xe0 || ip &&& 0xf0 == 0xf0

end NetConfig

/-- The bytes of the header's length field, and those that follow it up to the total length. -/
def ipHeaderLen (ip : List UInt8) : Nat := (byteOf ip 0).toNat % 16 * 4

/-- What follows the header, up to the total length. -/
def ipPayload (ip : List UInt8) : List UInt8 := (ip.take (loadBe16 ip 2)).drop (ipHeaderLen ip)

/-- `handle_ipv4`: the checks of the header, then the protocol. -/
def handleIpv4 (net : NetConfig) (ip : List UInt8) : Option Delivery :=
  let ihl := ipHeaderLen ip
  let total := loadBe16 ip 2
  let srcIp := loadIp ip 12
  let dstIp := loadIp ip 16
  if ip.length < 20 ∨ (byteOf ip 0).toNat / 16 ≠ 4 then none
  else if ihl < 20 ∨ ip.length < ihl then none
  else if total < ihl ∨ ip.length < total ∨ checksum (ip.take ihl) ≠ 0 then none
  else if byteOf ip 8 = 0 then none
  -- The reserved bit, more fragments or a fragment offset.
  else if loadBe16 ip 6 / 2 ^ 15 ≠ 0 ∨ loadBe16 ip 6 % 2 ^ 14 ≠ 0 then none
  else if dstIp ≠ net.localIp ∧ net.isBroadcast dstIp = false then none
  else if net.isInvalidWireSource srcIp then none
  else if byteOf ip 9 = 1 then
    if dstIp ≠ net.localIp then none else some (.icmp srcIp (ipPayload ip))
  else if byteOf ip 9 = 6 then
    if dstIp ≠ net.localIp then none else handleTcp srcIp dstIp (ipPayload ip)
  else if byteOf ip 9 = 17 then handleUdp srcIp dstIp (ipPayload ip)
  else none

/-- The address of the card. -/
def localMac : List UInt8 := [0x52, 0x54, 0x00, 0x12, 0x34, 0x56]

/-- `net_receive_ethernet`, without its ARP branch. -/
def netReceiveEthernet (net : NetConfig) (frame : List UInt8) : Option Delivery :=
  if frame.length < 14 ∨ frame.take 6 ≠ localMac ∧ frame.take 6 ≠ List.replicate 6 0xff then none
  else if loadBe16 frame 12 = 0x0800 then handleIpv4 net (frame.drop 14)
  else none

/-! ## Verification of what is delivered -/

/-- The check means what it should for every payload that fits in the scratch buffer. -/
theorem ipPayloadChecksum_eq_zero {proto : UInt8} {srcIp dstIp : BitVec 32}
    {payload : List UInt8} (short : payload.length ≤ 1480)
    (passed : ipPayloadChecksum proto srcIp dstIp payload = 0) :
    Verified proto srcIp dstIp payload := by
  rw [ipPayloadChecksum, if_neg (Nat.not_lt.mpr short), checksum_eq_zero_iff] at passed
  · exact passed
  · simp only [pseudoHeader, storeIp, storeBe16, length_append, length_map, length_cons, length_nil]
    omega

/-- The message of a frame that a checksum covers: a TCP segment, or a UDP datagram of the declared
length whose checksum field is in use. -/
def coveredMessage (frame : List UInt8) : Delivery → Option (UInt8 × List UInt8)
  | .tcp .. => some (6, ipPayload (frame.drop 14))
  | .udp .. =>
    let payload := ipPayload (frame.drop 14)
    if loadBe16 payload 6 = 0 then none else some (17, payload.take (loadBe16 payload 4))
  | .icmp .. => none

/-- A payload fits in a packet beside a header. -/
theorem ipPayload_length {ip : List UInt8}
    (header : ¬(ipHeaderLen ip < 20 ∨ ip.length < ipHeaderLen ip)) :
    (ipPayload ip).length ≤ 65515 := by
  have high := (byteOf ip 2).toNat_lt
  have low := (byteOf ip (2 + 1)).toNat_lt
  rw [ipPayload, length_drop, length_take, loadBe16]
  omega

/-- A message that is delivered fits in a packet, and is verified if it fits in the scratch
buffer. -/
theorem delivered_short {net : NetConfig} {frame message : List UInt8} {delivery : Delivery}
    {proto : UInt8} (delivered : netReceiveEthernet net frame = some delivery)
    (covered : coveredMessage frame delivery = some (proto, message)) :
    message.length ≤ 65515 ∧ (message.length ≤ 1480 →
      Verified proto (loadIp (frame.drop 14) 12) (loadIp (frame.drop 14) 16) message) := by
  simp only [netReceiveEthernet, ite_none_left_eq_some, ite_none_right_eq_some,
    handleIpv4] at delivered
  obtain ⟨-, -, -, header, -, -, -, -, -, chosen⟩ := delivered
  have fits := ipPayload_length header
  split at chosen
  · simp only [ite_none_left_eq_some, some.injEq] at chosen
    rw [← chosen.2] at covered
    cases covered
  split at chosen
  · simp only [handleTcp, ite_none_left_eq_some, some.injEq] at chosen
    obtain ⟨-, -, passed, -, -, -, -, rfl⟩ := chosen
    cases covered
    exact ⟨fits, fun short => ipPayloadChecksum_eq_zero short (not_not.mp passed)⟩
  · simp only [handleUdp, ite_none_left_eq_some, ite_none_right_eq_some, some.injEq] at chosen
    obtain ⟨-, -, -, -, passed, rfl⟩ := chosen
    simp only [coveredMessage, ite_none_left_eq_some, some.injEq, Prod.mk.injEq] at covered
    obtain ⟨used, rfl, rfl⟩ := covered
    refine ⟨(length_take_le' _ _).trans fits, fun short => ?_⟩
    exact ipPayloadChecksum_eq_zero short (by_contra fun wrong => passed ⟨used, wrong⟩)

/-! ## Messages that are too long -/

/-- A TCP segment of zero bytes after its header, with a checksum field below 256. -/
def longSegment (len : Nat) (field : UInt8) : List UInt8 :=
  [0, 80, 4, 0, 0, 0, 0, 0, 0, 0, 0, 0, 0x50, 16, 0, 0, 0, field, 0, 0] ++
    List.replicate (len - 20) 0

/-- The header of its packet. The identification makes up for the length, so that one header
checksum is right for every length. -/
def longHeader (len : Nat) : List UInt8 :=
  [0x45, 0] ++ storeBe16 (20 + len) ++ storeBe16 (65515 - len) ++
    [0, 0, 64, 6, 0x62, 0xe8, 10, 0, 2, 2, 10, 0, 2, 15]

/-- Its frame, from the gateway. -/
def longFrame (len : Nat) (field : UInt8) : List UInt8 :=
  localMac ++ List.replicate 6 0 ++ [8, 0] ++ longHeader len ++ longSegment len field

/-- The network of the emulator. -/
def sampleNet : NetConfig := ⟨0x0f02000a, 0x00ffffff⟩

section

variable {len : Nat}

/-- The packet of the frame. -/
theorem longFrame_drop (len : Nat) (field : UInt8) :
    (longFrame len field).drop 14 = longHeader len ++ longSegment len field := rfl

/-- Its addresses. -/
theorem longHeader_addresses (len : Nat) (field : UInt8) :
    loadIp (longHeader len ++ longSegment len field) 12 = 0x0202000a ∧
      loadIp (longHeader len ++ longSegment len field) 16 = 0x0f02000a := by
  constructor
  · show (2 : UInt8).toBitVec ++ (2 : UInt8).toBitVec ++ (0 : UInt8).toBitVec ++
      (10 : UInt8).toBitVec = (0x0202000a : BitVec 32)
    decide
  · show (15 : UInt8).toBitVec ++ (2 : UInt8).toBitVec ++ (0 : UInt8).toBitVec ++
      (10 : UInt8).toBitVec = (0x0f02000a : BitVec 32)
    decide

/-- The two bytes of a sixteen-bit number give it back. -/
theorem storeBe16_value {v : Nat} (small : v < 2 ^ 16) :
    (UInt8.ofNat (v / 256)).toNat * 256 + (UInt8.ofNat v).toNat = v := by
  simp only [UInt8.toNat_ofNat']
  omega

section

variable (fits : len ≤ 65515)

include fits

/-- The header passes its check. -/
theorem longHeader_checksum : checksum (longHeader len) = 0 := by
  have total := storeBe16_value (v := 20 + len) (by omega)
  have ident := storeBe16_value (v := 65515 - len) (by omega)
  rw [checksum_eq_zero_iff (by simp [longHeader, storeBe16]), onesSum_eq]
  simp only [longHeader, storeBe16, cons_append, nil_append, beWords, total, ident, sum_cons,
    sum_nil, UInt8.reduceToNat]
  rw [onesResidue, if_neg (by omega)]
  omega

section

variable (long : 1480 < len) (field : UInt8)

include long

/-- The segment is that long. -/
theorem longSegment_length : (longSegment len field).length = len := by
  simp only [longSegment, length_append, length_replicate, length_cons, length_nil]
  omega

/-- The segment is the payload of its packet. -/
theorem ipPayload_long :
    ipPayload (longHeader len ++ longSegment len field) = longSegment len field := by
  have total : loadBe16 (longHeader len ++ longSegment len field) 2 = 20 + len :=
    storeBe16_value (by omega)
  have header : ipHeaderLen (longHeader len ++ longSegment len field) = 20 :=
    show (0x45 : UInt8).toNat % 16 * 4 = 20 by decide
  have size := longSegment_length fits long field
  rw [ipPayload, total, header, take_of_length_le (by rw [length_append, size]; rfl)]
  rfl

/-- Its checksum is not looked at, and the other tests it passes. -/
theorem handleTcp_long (srcIp dstIp : BitVec 32) :
    ∃ srcPort dstPort window seg options, handleTcp srcIp dstIp (longSegment len field) =
      some (.tcp srcIp srcPort dstPort window seg options) := by
  have size := longSegment_length fits long field
  have unchecked : ipPayloadChecksum 6 srcIp dstIp (longSegment len field) = 0 :=
    if_pos (by omega)
  have offset : (byteOf (longSegment len field) 12).toNat / 16 * 4 = 20 :=
    show (0x50 : UInt8).toNat / 16 * 4 = 20 by decide
  have flags : tcpFlags (byteOf (longSegment len field) 13) = ⟨false, false, false, true⟩ :=
    show tcpFlags 16 = _ by decide
  have ports : ¬(loadBe16 (longSegment len field) 0 = 0 ∨ loadBe16 (longSegment len field) 2 = 0) :=
    show ¬(_ ∨ (4 : UInt8).toNat * 256 + (0 : UInt8).toNat = 0) from
      not_or.mpr ⟨show ¬(0 : UInt8).toNat * 256 + (80 : UInt8).toNat = 0 by decide, by decide⟩
  unfold handleTcp
  dsimp only
  rw [if_neg (by omega), if_neg (not_not.mpr unchecked), size, offset, flags, if_neg (by omega),
    if_neg (by decide), if_neg (by decide), if_neg ports]
  exact ⟨_, _, _, _, _, rfl⟩

/-- The frame is delivered. -/
theorem longFrame_delivered :
    ∃ delivery, netReceiveEthernet sampleNet (longFrame len field) = some delivery ∧
      coveredMessage (longFrame len field) delivery = some (6, longSegment len field) := by
  have payload := ipPayload_long fits long field
  obtain ⟨srcPort, dstPort, window, seg, options, taken⟩ :=
    handleTcp_long fits long field 0x0202000a 0x0f02000a
  refine ⟨.tcp 0x0202000a srcPort dstPort window seg options, ?_,
    congrArg (fun bytes => some (6, bytes)) payload⟩
  have size : (longHeader len ++ longSegment len field).length = 20 + len := by
    rw [length_append, longSegment_length fits long field]
    rfl
  have total : loadBe16 (longHeader len ++ longSegment len field) 2 = 20 + len :=
    storeBe16_value (by omega)
  have header : ipHeaderLen (longHeader len ++ longSegment len field) = 20 :=
    show (0x45 : UInt8).toNat % 16 * 4 = 20 by decide
  have sum : checksum ((longHeader len ++ longSegment len field).take 20) = 0 :=
    longHeader_checksum fits
  have whole : loadBe16 (longHeader len ++ longSegment len field) 6 = 0 :=
    show (0 : UInt8).toNat * 256 + (0 : UInt8).toNat = 0 by decide
  have version : (byteOf (longHeader len ++ longSegment len field) 0).toNat / 16 = 4 :=
    show (0x45 : UInt8).toNat / 16 = 4 by decide
  have type : loadBe16 (longFrame len field) 12 = 0x0800 :=
    show (8 : UInt8).toNat * 256 + (0 : UInt8).toNat = 0x0800 by decide
  have ours : (longFrame len field).take 6 = localMac := rfl
  have longer : ¬(longFrame len field).length < 14 := by
    have rest := congrArg length (longFrame_drop len field)
    rw [length_drop, size] at rest
    omega
  have live : byteOf (longHeader len ++ longSegment len field) 8 = 64 := rfl
  have proto : byteOf (longHeader len ++ longSegment len field) 9 = 6 := rfl
  obtain ⟨source, target⟩ := longHeader_addresses len field
  rw [netReceiveEthernet, ours, type, longFrame_drop,
    if_neg (not_or.mpr ⟨longer, fun other => other.1 rfl⟩), if_pos rfl]
  unfold handleIpv4
  dsimp only
  rw [size, version, header, total, sum, whole, payload, source, target, live, proto,
    if_neg (by omega), if_neg (by omega), if_neg (by omega), if_neg (by decide),
    if_neg (by decide), if_neg (by decide), if_neg (by decide), if_neg (by decide), if_pos rfl,
    if_neg (by decide)]
  exact taken

end

end

end

/-- Two checksum fields are not both right. -/
theorem longSegment_unverified (srcIp dstIp : BitVec 32) (len : Nat) :
    ∃ field, ¬ Verified 6 srcIp dstIp (longSegment len field) := by
  by_contra every
  have right := not_exists_not.mp every
  have zero := right 0
  have one := right 1
  have size : (longSegment len 1).length = (longSegment len 0).length := rfl
  rw [Verified, onesSum_eq] at zero one
  rw [size] at one
  simp only [pseudoHeader, storeIp, storeBe16, longSegment, map_cons, map_nil, cons_append,
    nil_append, beWords, sum_cons, UInt8.reduceToNat] at zero one
  unfold onesResidue at zero one
  split at zero <;> split at one <;> omega

/-- For each length: all messages of the length that are delivered are verified exactly if the
length fits in the scratch buffer, or no packet can hold it. -/
theorem delivered_verified_iff (len : Nat) :
    (∀ net frame delivery proto message, netReceiveEthernet net frame = some delivery →
      coveredMessage frame delivery = some (proto, message) → message.length = len →
      Verified proto (loadIp (frame.drop 14) 12) (loadIp (frame.drop 14) 16) message) ↔
    len ≤ 1480 ∨ 65515 < len := by
  constructor
  · intro every
    by_contra between
    obtain ⟨long, fits⟩ := not_or.mp between
    rw [Nat.not_le] at long
    rw [Nat.not_lt] at fits
    obtain ⟨field, wrong⟩ := longSegment_unverified 0x0202000a 0x0f02000a len
    obtain ⟨delivery, delivered, covered⟩ := longFrame_delivered fits long field
    have right := every _ _ _ _ _ delivered covered (longSegment_length fits long field)
    rw [longFrame_drop, (longHeader_addresses len field).1,
      (longHeader_addresses len field).2] at right
    exact wrong right
  · rintro bound net frame delivery proto message delivered covered rfl
    obtain ⟨fits, short⟩ := delivered_short delivered covered
    exact short (by omega)

/-- A segment of 1481 bytes with a wrong checksum is delivered. -/
theorem long_segment_unverified :
    (netReceiveEthernet sampleNet (longFrame 1481 0)).isSome = true ∧
      ¬Verified 6 0x0202000a 0x0f02000a (longSegment 1481 0) := by
  unfold Verified
  decide +kernel

end Spore.Net
