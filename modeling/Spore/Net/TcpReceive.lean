import Spore.Lib.Serial

/-!
# TCP receive path (`proc/socket.c`)

The receive side of one TCP socket: the in-order receive buffer, the store of out-of-order
pieces, a pending FIN and the next expected sequence number. Acknowledgements sent, wakeups,
round-trip samples and the transmit queue do not feed back into these fields and are not part
of the model; whether a slot of the shared out-of-order pool is free is an input of each
delivery.
-/

namespace Spore.Net

open Spore.Lib

/-- `enum tcp_socket_state`. -/
inductive TcpState where
  | closed
  | listen
  | synSent
  | synReceived
  | established
  | finWait
  deriving Repr, DecidableEq, Inhabited

/-- `TCP_OOO_ENTRIES`. -/
def tcpOooEntries : Nat := 8

/-- `TCP_OOO_PAYLOAD_CAP`. -/
def tcpOooPayloadCap : Nat := 1460

/-- `CELL_TCP_RX_CAP`. -/
def cellTcpRxCap : Nat := 262144

/-- `MSG_PEEK`. -/
def msgPeek : UInt32 := 2

/-- `ECONNREFUSED`. -/
def eConnRefused : Nat := 111

/-- `ECONNRESET`. -/
def eConnReset : Nat := 104

/-- `EAGAIN`. -/
def eAgain : Nat := 11

/-- `EFAULT`. -/
def eFault : Nat := 14

/-- One entry of `struct tcp_ooo_state`. The source keeps `len` bytes in a fixed array; here
`data` is those bytes, so `len` is its length. -/
structure OooEntry where
  /-- Whether it holds a segment. -/
  used : Bool
  /-- Sequence number of the first byte. -/
  seq : UInt32
  /-- Its bytes. -/
  data : List UInt8
  deriving Repr, DecidableEq, Inhabited

/-- A zeroed entry. -/
def OooEntry.zero : OooEntry := ⟨false, 0, []⟩

/-- `struct tcp_ooo_state`. -/
structure OooState where
  /-- The entries in index order. -/
  entries : List OooEntry
  /-- The array has a fixed size. -/
  sized : entries.length = tcpOooEntries
  deriving Repr, DecidableEq

/-- The zeroed state of a pool slot that was just taken. -/
def OooState.zero : OooState := ⟨List.replicate tcpOooEntries OooEntry.zero, rfl⟩

/-- Replace one entry. -/
def OooState.set (ooo : OooState) (slot : Nat) (entry : OooEntry) : OooState :=
  ⟨ooo.entries.set slot entry, by rw [List.length_set, ooo.sized]⟩

/-- The receive-side fields of `struct open_file` for a TCP socket. -/
structure TcpSocket where
  /-- The state of the connection. -/
  state : TcpState
  /-- `tcp_seq`, the next sequence number to send. -/
  seq : UInt32
  /-- `tcp_ack`, the next sequence number expected. -/
  ack : UInt32
  /-- `tcp_rx` with its first `tcp_rx_len` bytes; none when no buffer was allocated. -/
  rx : Option (List UInt8)
  /-- `tcp_ooo`; none while no pool slot is held. -/
  ooo : Option OooState
  /-- `tcp_fin`: the peer's FIN was accepted. -/
  fin : Bool
  /-- `tcp_fin_pending`: a FIN was seen ahead of missing bytes. -/
  finPending : Bool
  /-- The number of the FIN. -/
  finSeq : UInt32
  /-- The pending error. -/
  error : Nat
  /-- The size of the buffer. -/
  soRcvbuf : Nat
  deriving Repr, DecidableEq

/-- The flag bits of a segment that the receive path reads. -/
structure TcpFlags where
  fin : Bool
  syn : Bool
  rst : Bool
  ack : Bool
  deriving Repr, DecidableEq, Inhabited

/-- An arriving segment. -/
structure TcpSegment where
  /-- Sequence number of the first payload byte. -/
  seq : UInt32
  /-- The acknowledged number. -/
  ack : UInt32
  /-- The flags. -/
  flags : TcpFlags
  /-- The bytes. -/
  payload : List UInt8
  deriving Repr, DecidableEq, Inhabited

namespace TcpSocket

/-- The readable bytes. -/
def rxBytes (sock : TcpSocket) : List UInt8 := sock.rx.getD []

/-- `socket_effective_buffer` for receiving on a TCP socket. -/
def effectiveBuffer (sock : TcpSocket) : Nat :=
  if sock.soRcvbuf = 0 then cellTcpRxCap
  else if cellTcpRxCap < sock.soRcvbuf then cellTcpRxCap else sock.soRcvbuf

/-- Free bytes of the receive buffer, as `tcp_append_rx` computes them. -/
def room (sock : TcpSocket) : Nat :=
  if sock.effectiveBuffer ≤ sock.rxBytes.length then 0
  else sock.effectiveBuffer - sock.rxBytes.length

/-- `tcp_append_rx`: the number of bytes taken. -/
def appendRx (sock : TcpSocket) (data : List UInt8) : Nat × TcpSocket :=
  match sock.rx with
  | none => (0, sock)
  | some bytes =>
    let n := if data.length < sock.room then data.length else sock.room
    if n = 0 then (0, sock)
    else (n, { sock with rx := some (bytes ++ data.take n), ack := sock.ack + UInt32.ofNat n })

/-- `tcp_accept_pending_fin`. -/
def acceptPendingFin (sock : TcpSocket) : TcpSocket :=
  if sock.finPending = false ∨ sock.finSeq ≠ sock.ack then sock
  else { sock with finPending := false, fin := true, ack := sock.finSeq + 1 }

/-- `tcp_record_fin`. -/
def recordFin (sock : TcpSocket) (finSeq : UInt32) : TcpSocket :=
  if Serial.before finSeq sock.ack then sock
  else { sock with finPending := true, finSeq }

/-- The entry loop of `tcp_store_ooo`: the first unused entry, or the entry of the same
sequence number if the new piece is longer. -/
def storeSlot (seq : UInt32) (n : Nat) : Nat → List OooEntry → Option Nat
  | _, [] => none
  | i, entry :: rest =>
    if entry.used = false then some i
    else if entry.seq = seq then
      if n ≤ entry.data.length then none else some i
    else storeSlot seq n (i + 1) rest

/-- `tcp_alloc_ooo`; `free` says whether the shared pool has a slot. -/
def allocOoo (sock : TcpSocket) (free : Bool) : Option OooState :=
  match sock.ooo with
  | some ooo => some ooo
  | none => if free then some OooState.zero else none

/-- The part of `tcp_store_ooo` after the bytes below `tcp_ack` were cut off. -/
def storeOooAt (sock : TcpSocket) (free : Bool) (seq : UInt32) (data : List UInt8) :
    TcpSocket :=
  match sock.allocOoo free with
  | none => sock
  | some ooo =>
    let n := if data.length < tcpOooPayloadCap then data.length else tcpOooPayloadCap
    match storeSlot seq n 0 ooo.entries with
    | none => { sock with ooo := some ooo }
    | some slot => { sock with ooo := some (ooo.set slot ⟨true, seq, data.take n⟩) }

/-- `tcp_store_ooo`. -/
def storeOoo (sock : TcpSocket) (free : Bool) (seq : UInt32) (data : List UInt8) :
    TcpSocket :=
  if data.length = 0 then sock
  else if Serial.after (seq + UInt32.ofNat data.length) sock.ack = false then sock
  else if Serial.before seq sock.ack then
    let skip := (sock.ack - seq).toNat
    if data.length ≤ skip then sock
    else sock.storeOooAt free (seq + UInt32.ofNat skip) (data.drop skip)
  else sock.storeOooAt free seq data

/-- The loop of `tcp_next_ooo_slot` from entry `i`, with the best entry so far. -/
def nextOooSlotFrom : Nat → List OooEntry → Option (Nat × OooEntry) → Option (Nat × OooEntry)
  | _, [], best => best
  | i, entry :: rest, best =>
    if entry.used = false then nextOooSlotFrom (i + 1) rest best
    else match best with
      | none => nextOooSlotFrom (i + 1) rest (some (i, entry))
      | some (j, chosen) =>
        if Serial.before entry.seq chosen.seq then
          nextOooSlotFrom (i + 1) rest (some (i, entry))
        else nextOooSlotFrom (i + 1) rest (some (j, chosen))

/-- `tcp_next_ooo_slot`: the used entry with the lowest sequence number. -/
def nextOooSlot (entries : List OooEntry) : Option (Nat × OooEntry) :=
  nextOooSlotFrom 0 entries none

/-- The tail of one `tcp_drain_ooo` iteration: append the chosen piece, now at `seq`. Returns
the socket and whether the loop continues. -/
def drainAppend (sock : TcpSocket) (ooo : OooState) (slot : Nat) (seq : UInt32)
    (data : List UInt8) : TcpSocket × Bool :=
  let shifted := { sock with ooo := some (ooo.set slot ⟨true, seq, data⟩) }
  if seq ≠ sock.ack then (shifted, false)
  else
    let (n, taken) := shifted.appendRx data
    if n = 0 then (shifted, false)
    else
      let accepted := taken.acceptPendingFin
      if n = data.length then
        ({ accepted with ooo := some (ooo.set slot ⟨false, seq, []⟩) }, true)
      else
        ({ accepted with
            ooo := some (ooo.set slot ⟨true, seq + UInt32.ofNat n, data.drop n⟩) }, true)

/-- One iteration of `tcp_drain_ooo`, and whether the loop continues. -/
def drainStep (sock : TcpSocket) : TcpSocket × Bool :=
  match sock.ooo with
  | none => (sock, false)
  | some ooo =>
    match nextOooSlot ooo.entries with
    | none => ({ sock with ooo := none }, false)
    | some (slot, entry) =>
      if Serial.before entry.seq sock.ack then
        let skip := (sock.ack - entry.seq).toNat
        if entry.data.length ≤ skip then
          ({ sock with ooo := some (ooo.set slot ⟨false, entry.seq, []⟩) }, true)
        else
          sock.drainAppend ooo slot (entry.seq + UInt32.ofNat skip) (entry.data.drop skip)
      else sock.drainAppend ooo slot entry.seq entry.data

/-- `tcp_drain_ooo` with a bound on its iterations. -/
def drainFor : Nat → TcpSocket → TcpSocket
  | 0, sock => sock
  | fuel + 1, sock =>
    match sock.drainStep with
    | (next, true) => drainFor fuel next
    | (next, false) => next

/-- `tcp_drain_ooo`. An iteration that continues empties an entry or fills the buffer, so two
iterations for each entry and two more suffice. -/
def drainOoo (sock : TcpSocket) : TcpSocket := drainFor (2 * tcpOooEntries + 2) sock

/-- `tcp_rst_acceptable`. -/
def rstAcceptable (sock : TcpSocket) (seg : TcpSegment) : Bool :=
  match sock.state with
  | .synSent => seg.flags.ack && decide (seg.ack = sock.seq)
  | .synReceived => decide (seg.seq = sock.ack)
  | .established => decide (seg.seq = sock.ack)
  | .finWait => decide (seg.seq = sock.ack)
  | _ => false

/-- The last block of `tcp_deliver_to_file`: the segment's own FIN. -/
def deliverFin (sock : TcpSocket) (fin : Bool) (finSeq : UInt32) : TcpSocket :=
  if fin then (sock.recordFin finSeq).acceptPendingFin else sock

/-- In-order payload: append, drain what became contiguous, then the FIN. -/
def deliverInOrder (sock : TcpSocket) (fin : Bool) (finSeq : UInt32) (data : List UInt8) :
    TcpSocket :=
  let (n, taken) := sock.appendRx data
  if n ≠ 0 then
    let drained := taken.drainOoo
    let recorded := if fin then drained.recordFin finSeq else drained
    recorded.acceptPendingFin.deliverFin fin finSeq
  else taken.deliverFin fin finSeq

/-- Payload of a connected socket, starting at `seq`. -/
def deliverPayload (sock : TcpSocket) (free : Bool) (fin : Bool) (finSeq seq : UInt32)
    (data : List UInt8) : TcpSocket :=
  if seq ≠ sock.ack then
    let stored := sock.storeOoo free seq data
    if fin then stored.recordFin finSeq else stored
  else sock.deliverInOrder fin finSeq data

/-- Payload and FIN processing of `tcp_deliver_to_file` on a connected socket. -/
def deliverData (sock : TcpSocket) (free : Bool) (seg : TcpSegment) : TcpSocket :=
  let finSeq := seg.seq + UInt32.ofNat seg.payload.length
  if seg.payload.length ≠ 0 then
    if Serial.before seg.seq sock.ack then
      let skip := (sock.ack - seg.seq).toNat
      if seg.payload.length ≤ skip then sock
      else sock.deliverPayload free seg.flags.fin finSeq sock.ack (seg.payload.drop skip)
    else sock.deliverPayload free seg.flags.fin finSeq seg.seq seg.payload
  else sock.deliverFin seg.flags.fin finSeq

/-- `tcp_deliver_to_file`. -/
def deliverToFile (sock : TcpSocket) (free : Bool) (seg : TcpSegment) : TcpSocket :=
  if sock.state = .synSent ∧ seg.flags.syn = true ∧ seg.flags.ack = true ∧ seg.ack = sock.seq then
    { sock with ack := seg.seq + 1, state := .established }
  else if sock.state = .synReceived ∧ seg.flags.ack = true ∧ seg.ack = sock.seq then
    { sock with state := .established }
  else if seg.flags.rst then
    if sock.rstAcceptable seg = false then sock
    else { sock with
      error := if sock.state = .synSent then eConnRefused else eConnReset
      state := .closed }
  else if sock.state ≠ .established ∧ sock.state ≠ .finWait then sock
  else if seg.flags.ack = true ∧ Serial.after seg.ack sock.seq = true then sock
  else sock.deliverData free seg

/-- `cell_socket_tcp_read_to_kernel`: the returned value, the bytes handed to the caller and
the socket afterwards. `cell_socket_tcp_read_to_domain_flags` is the same with a copy to user
memory that may fail before anything is consumed. -/
def readWith (sock : TcpSocket) (copied : Bool) (len : Nat) (flags : UInt32) :
    Int × List UInt8 × TcpSocket :=
  if sock.rxBytes.length = 0 then
    if sock.error ≠ 0 then (-(sock.error : Int), [], sock)
    else (if sock.fin then 0 else -(eAgain : Int), [], sock)
  else
    let n := if sock.rxBytes.length < len then sock.rxBytes.length else len
    if copied = false then (-(eFault : Int), [], sock)
    else if flags &&& msgPeek ≠ 0 then (n, sock.rxBytes.take n, sock)
    else (n, sock.rxBytes.take n, { sock with rx := some (sock.rxBytes.drop n) })

/-- `cell_socket_tcp_read_to_domain_flags`. -/
def readToDomainFlags (sock : TcpSocket) (copied : Bool) (len : Nat) (flags : UInt32) :
    Int × List UInt8 × TcpSocket := sock.readWith copied len flags

/-- `cell_socket_tcp_read_to_kernel`. -/
def readToKernel (sock : TcpSocket) (len : Nat) (flags : UInt32) :
    Int × List UInt8 × TcpSocket := sock.readWith true len flags

end TcpSocket

end Spore.Net
