import Spore.Net.TcpReceive
import Spore.Proc.Policy

/-!
# TCP sockets and the segments they build (`proc/socket.c`)

The fields of an open TCP socket, the round-trip estimate, the queue of unacknowledged
segments, and what connecting, accepting, acknowledging and closing write into them. The
receive side is the one of `Spore.Net.TcpReceive`. Left out are the bytes of headers, types of
service, times to live and the fields of datagram sockets.
-/

namespace Spore.Net

open Spore.Lib Spore.Proc

/-- `CELL_TCP_TX_CAP`. -/
def cellTcpTxCap : Nat := 1460

/-- `CELL_TCP_TX_QUEUE_CAP`. -/
def cellTcpTxQueueCap : Nat := 128

/-- `TCP_DEFAULT_REMOTE_WINDOW`. -/
def tcpDefaultRemoteWindow : Nat := 65535

/-- `TCP_DEFAULT_MSS`. -/
def tcpDefaultMss : Nat := 1460

/-- `TCP_SEND_STACK_CHUNK`. -/
def tcpSendStackChunk : Nat := 1460

/-- `TCP_RCV_WINDOW_SCALE`. -/
def tcpRcvWindowScale : Nat := 2

/-- `TCP_INITIAL_RTO_TICKS`. -/
def tcpInitialRtoTicks : Nat := 100

/-- `TCP_MIN_RTO_TICKS`. -/
def tcpMinRtoTicks : Nat := 10

/-- `TCP_MAX_RTO_TICKS`. -/
def tcpMaxRtoTicks : Nat := 6000

/-- `TCP_MAX_RTO_SHIFT`. -/
def tcpMaxRtoShift : Nat := 6

/-! ## Sockets -/

/-- One segment of `struct tcp_tx_state`, kept until it is acknowledged. -/
structure TxSegment where
  /-- Sequence number of the first byte. -/
  seq : UInt32
  /-- The bytes. -/
  payload : List UInt8
  /-- Times it was sent again. -/
  retries : Nat
  /-- When it is to be sent again. -/
  deadlineTick : Nat
  /-- When it was last sent. -/
  sentTick : Nat
  /-- When it was first sent. -/
  firstSentTick : Nat
  deriving Repr, DecidableEq

/-- The round-trip estimate of a connection. -/
structure Rtt where
  /-- `tcp_srtt_ticks_x8`. -/
  srttX8 : Nat
  /-- `tcp_rttvar_ticks_x4`. -/
  rttvarX4 : Nat
  /-- `tcp_rto_ticks`. -/
  rtoTicks : Nat
  deriving Repr, DecidableEq

/-- `tcp_clamp_rto`. -/
def tcpClampRto (ticks : Nat) : Nat :=
  if ticks < tcpMinRtoTicks then tcpMinRtoTicks
  else if tcpMaxRtoTicks < ticks then tcpMaxRtoTicks else ticks

namespace Rtt

/-- `tcp_init_rto`. -/
def init : Rtt := ⟨0, 0, tcpInitialRtoTicks⟩

/-- `tcp_current_rto`. -/
def currentRto (rtt : Rtt) : Nat :=
  if rtt.rtoTicks = 0 then tcpInitialRtoTicks else tcpClampRto rtt.rtoTicks

/-- `tcp_backoff_rto`. -/
def backoffRto (rtt : Rtt) (retries : Nat) : Nat :=
  let shift := if retries < tcpMaxRtoShift then retries else tcpMaxRtoShift
  if tcpMaxRtoTicks >>> shift < rtt.currentRto then tcpMaxRtoTicks else rtt.currentRto <<< shift

/-- The sample that `tcp_note_rtt_sample` takes. -/
def sample (sentTick now : Nat) : Nat :=
  let raw := if sentTick < now then now - sentTick else 1
  if tcpMaxRtoTicks < raw then tcpMaxRtoTicks else raw

/-- `tcp_note_rtt_sample`. -/
def noteSample (rtt : Rtt) (sentTick now : Nat) : Rtt :=
  if sentTick = 0 then rtt
  else
    let sample := sample sentTick now
    let (srttX8, rttvarX4) :=
      if rtt.srttX8 = 0 then (sample * 8, sample * 2)
      else
        let srtt := rtt.srttX8 / 8
        let err := if srtt < sample then sample - srtt else srtt - sample
        (rtt.srttX8 * 7 / 8 + sample, rtt.rttvarX4 * 3 / 4 + err)
    ⟨srttX8, rttvarX4, tcpClampRto (srttX8 / 8 + if rttvarX4 = 0 then 1 else rttvarX4)⟩

end Rtt

/-- `struct open_file` of type `OPEN_SOCKET`; the fields keep their names without `tcp_`. -/
structure Socket where
  /-- The slot is taken. -/
  used : Bool
  /-- Descriptors and pending connections that refer to it. -/
  refcount : Nat
  /-- `socket_proto`. -/
  proto : BitVec 8
  /-- The receive side. -/
  tcp : TcpSocket
  /-- Our port. -/
  localPort : BitVec 16
  /-- Address of the peer. -/
  remoteIp : BitVec 32
  /-- Port of the peer. -/
  remotePort : BitVec 16
  /-- Send window, in bytes. -/
  remoteWindow : Nat
  /-- Scale of the windows that the peer tells. -/
  remoteWindowScale : Nat
  /-- Largest segment that the peer takes. -/
  remoteMss : Nat
  /-- Our FIN was sent. -/
  finSent : Bool
  /-- `tcp_tx` from its head; none while no pages were allocated. -/
  tx : Option (List TxSegment)
  /-- The round-trip estimate. -/
  rtt : Rtt
  /-- Times the SYN was sent again. -/
  synRetries : Nat
  /-- When the SYN was sent. -/
  synSentTick : Nat
  /-- When the SYN is to be sent again. -/
  retransmitDeadlineTick : Nat
  /-- `SO_KEEPALIVE`. -/
  soKeepalive : Bool
  /-- `TCP_KEEPIDLE`, in seconds. -/
  keepidle : Nat
  /-- `TCP_KEEPINTVL`, in seconds. -/
  keepintvl : Nat
  /-- `TCP_KEEPCNT`. -/
  keepcnt : Nat
  /-- Unanswered keepalive probes. -/
  keepaliveProbes : Nat
  /-- When the next probe is due. -/
  keepaliveDeadlineTick : Nat
  /-- When the peer was last heard. -/
  lastActivityTick : Nat
  /-- `TCP_USER_TIMEOUT`. -/
  userTimeoutMs : Nat
  /-- `SO_SNDBUF`; zero is the default size. -/
  soSndbuf : Nat
  /-- `SO_LINGER` is on. -/
  soLingerEnabled : Bool
  /-- The time of `SO_LINGER`. -/
  soLingerSeconds : Nat
  /-- `SO_BROADCAST`. -/
  soBroadcast : Bool

/-- The receive side of a zeroed slot. -/
def TcpSocket.zero : TcpSocket := ⟨.closed, 0, 0, none, none, false, false, 0, 0, 0⟩

/-- The slot that `cell_alloc_open_file` returns. -/
def Socket.zero : Socket where
  used := false
  refcount := 0
  proto := 0
  tcp := TcpSocket.zero
  localPort := 0
  remoteIp := 0
  remotePort := 0
  remoteWindow := 0
  remoteWindowScale := 0
  remoteMss := 0
  finSent := false
  tx := none
  rtt := ⟨0, 0, 0⟩
  synRetries := 0
  synSentTick := 0
  retransmitDeadlineTick := 0
  soKeepalive := false
  keepidle := 0
  keepintvl := 0
  keepcnt := 0
  keepaliveProbes := 0
  keepaliveDeadlineTick := 0
  lastActivityTick := 0
  userTimeoutMs := 0
  soSndbuf := 0
  soLingerEnabled := false
  soLingerSeconds := 0
  soBroadcast := false

/-- A segment as the senders build it and the receive path reads it. -/
structure Segment where
  /-- Numbers, flags and payload. -/
  body : TcpSegment
  /-- The window field. -/
  window : Nat
  /-- Bytes of options. -/
  optionsLen : Nat
  /-- What `tcp_parse_window_scale` reads in the options. -/
  windowScale : Nat
  /-- What `tcp_parse_mss` reads in the options. -/
  mss : Nat
  deriving Repr, DecidableEq

/-- A segment without options. -/
def Segment.plain (seq ack : UInt32) (window : Nat) (flags : TcpFlags) (payload : List UInt8) :
    Segment := ⟨⟨seq, ack, flags, payload⟩, window, 0, 0, tcpDefaultMss⟩

/-- `TCP_ACK`, and `TCP_PSH | TCP_ACK`, whose push bit nothing reads. -/
def ackFlag : TcpFlags := ⟨false, false, false, true⟩

/-- `TCP_SYN`. -/
def synFlag : TcpFlags := ⟨false, true, false, false⟩

/-- `TCP_SYN | TCP_ACK`. -/
def synAckFlags : TcpFlags := ⟨false, true, false, true⟩

/-- `TCP_FIN | TCP_ACK`. -/
def finAckFlags : TcpFlags := ⟨true, false, false, true⟩

/-- `TCP_RST | TCP_ACK`. -/
def rstAckFlags : TcpFlags := ⟨false, false, true, true⟩

/-- Whether acknowledgements and data flow: established, or with our FIN sent. -/
def TcpState.flowing (state : TcpState) : Bool :=
  decide (state = .established) || decide (state = .finWait)

namespace Socket

/-- `tcp_tx` as a queue. -/
def txQueue (sock : Socket) : List TxSegment := sock.tx.getD []

/-- `tcp_tx_clear`. -/
def txClear (sock : Socket) : Socket := { sock with tx := sock.tx.map fun _ => [] }

/-- `tcp_window`. -/
def window (sock : Socket) : Nat :=
  if sock.tcp.rx.isNone then 0 else min (sock.tcp.room >>> tcpRcvWindowScale) 65535

/-- `tcp_syn_window`. -/
def synWindow (sock : Socket) : Nat :=
  if sock.tcp.rx.isNone then 0 else min sock.tcp.room 65535

/-- The segment of `tcp_send_syn`, with its eight bytes of options. -/
def syn (sock : Socket) (seq : UInt32) : Segment :=
  ⟨⟨seq, 0, synFlag, []⟩, sock.synWindow, 8, tcpRcvWindowScale, tcpDefaultMss⟩

/-- `tcp_note_activity`. -/
def noteActivity (sock : Socket) (now : Nat) : Socket :=
  { sock with lastActivityTick := now, keepaliveDeadlineTick := 0, keepaliveProbes := 0 }

/-- `tcp_update_remote_window`. -/
def updateRemoteWindow (sock : Socket) (window : Nat) : Socket :=
  { sock with
    remoteWindow := if 16 ≤ sock.remoteWindowScale then 2 ^ 32 - 1
      else window <<< sock.remoteWindowScale }

/-- `tcp_tx_inflight`. -/
def txInflight (sock : Socket) : Nat :=
  match sock.txQueue with
  | [] => 0
  | head :: _ => (sock.tcp.seq - head.seq).toNat

/-- `tcp_send_window_available`. -/
def sendWindowAvailable (sock : Socket) : Nat := sock.remoteWindow - sock.txInflight

/-- `socket_effective_buffer` for sending on a TCP socket. -/
def sendBuffer (sock : Socket) : Nat :=
  if sock.soSndbuf = 0 then cellTcpTxCap * cellTcpTxQueueCap
  else min sock.soSndbuf (cellTcpTxCap * cellTcpTxQueueCap)

/-- `tcp_send_buffer_available`. -/
def sendBufferAvailable (sock : Socket) : Nat :=
  sock.sendBuffer - (sock.txQueue.map fun seg => seg.payload.length).sum

/-- `tcp_send_chunk_limit`. -/
def sendChunkLimit (sock : Socket) : Nat :=
  min (min (if sock.remoteMss = 0 then tcpDefaultMss else sock.remoteMss) tcpSendStackChunk)
    sock.sendBufferAvailable

/-- The part of `tcp_tx_track_segment` after the queue was allocated. -/
def txPush (sock : Socket) (now : Nat) (payload : List UInt8) : Socket :=
  { sock with
    tx := some (sock.txQueue ++ [⟨sock.tcp.seq, payload, 0, now + sock.rtt.currentRto, now, now⟩]) }

/-- The loop of `tcp_tx_ack`. -/
def txAckGo (ack : UInt32) (now : Nat) : List TxSegment → Bool → Rtt → List TxSegment × Rtt
  | [], _, rtt => ([], rtt)
  | seg :: rest, ambiguous, rtt =>
    if Serial.after (seg.seq + UInt32.ofNat seg.payload.length) ack then (seg :: rest, rtt)
    else if seg.retries = 0 ∧ ambiguous = false then
      txAckGo ack now rest false (rtt.noteSample seg.sentTick now)
    else txAckGo ack now rest true rtt

/-- `tcp_tx_ack`. -/
def txAck (sock : Socket) (ack : UInt32) (now : Nat) : Socket :=
  let (queue, rtt) := txAckGo ack now sock.txQueue false sock.rtt
  { sock with tx := sock.tx.map fun _ => queue, rtt }

/-- A socket closed with an error, its timers stopped and its queue emptied. -/
def closeWith (sock : Socket) (error : Nat) : Socket :=
  { sock with
    tcp := { sock.tcp with error, state := .closed }
    retransmitDeadlineTick := 0
    synSentTick := 0 }.txClear

/-- The fields of a handshake that `tcp_deliver_to_file` completes on a connecting socket. -/
def establish (sock : Socket) (now : Nat) (seg : Segment) : Socket :=
  { sock with
    tcp := { sock.tcp with ack := seg.body.seq + 1, state := .established }
    rtt := if sock.synRetries = 0 then sock.rtt.noteSample sock.synSentTick now else sock.rtt
    remoteWindowScale := seg.windowScale
    remoteMss := seg.mss
    remoteWindow := seg.window <<< seg.windowScale
    synRetries := 0
    retransmitDeadlineTick := 0
    synSentTick := 0 }.noteActivity now

/-- `cell_fd_tcp_connect` before it sends: the peer is recorded and the state reset. -/
def startConnect (sock : Socket) (ip : BitVec 32) (port localPort : BitVec 16) (seq : UInt32)
    (now : Nat) : Socket :=
  { sock with
    tcp := { sock.tcp with
      state := .synSent, seq := seq + 1, ack := 0, error := 0, fin := false
      finPending := false, finSeq := 0
      ooo := sock.tcp.ooo.map fun _ => OooState.zero }
    remoteIp := ip
    remotePort := port
    localPort
    remoteWindow := tcpDefaultRemoteWindow
    remoteWindowScale := 0
    remoteMss := tcpDefaultMss
    rtt := Rtt.init
    finSent := false
    synRetries := 0
    synSentTick := 0
    retransmitDeadlineTick := 0 }.noteActivity now |>.txClear

/-- The server end that `tcp_deliver_syn_to_listener` fills in. -/
def serverEnd (listener : Socket) (srcIp : BitVec 32) (srcPort dstPort : BitVec 16)
    (seg : Segment) (seq : UInt32) (now : Nat) : Socket :=
  { Socket.zero with
    used := true
    refcount := 1
    proto := ipprotoTcp
    soKeepalive := listener.soKeepalive
    soLingerEnabled := listener.soLingerEnabled
    keepidle := listener.keepidle
    keepintvl := listener.keepintvl
    keepcnt := listener.keepcnt
    userTimeoutMs := listener.userTimeoutMs
    soSndbuf := listener.soSndbuf
    soLingerSeconds := listener.soLingerSeconds
    tcp := { TcpSocket.zero with
      rx := some []
      soRcvbuf := listener.tcp.soRcvbuf
      seq := seq + 1
      ack := seg.body.seq + 1
      state := .synReceived }
    localPort := dstPort
    remoteIp := srcIp
    remotePort := srcPort
    remoteWindowScale := seg.windowScale
    remoteMss := seg.mss
    remoteWindow := seg.window <<< seg.windowScale
    rtt := Rtt.init
    lastActivityTick := now }

/-- The socket that `cell_fd_socket_inet` places in a descriptor. -/
def fresh (proto : BitVec 8) (now : Nat) : Socket :=
  if proto = ipprotoTcp then
    { Socket.zero with
      used := true
      refcount := 1
      proto
      tcp := { TcpSocket.zero with rx := some [] }
      remoteWindow := tcpDefaultRemoteWindow
      remoteMss := tcpDefaultMss
      rtt := Rtt.init
      keepidle := 7200
      keepintvl := 75
      keepcnt := 9
      lastActivityTick := now }
  else { Socket.zero with used := true, refcount := 1, proto }

end Socket

/-! ## Options -/

/-- The options of `cell_fd_socket_set_int_option` and `cell_fd_socket_set_linger` that the
senders read, after their range checks. -/
inductive SocketOption where
  /-- `SO_BROADCAST`. -/
  | broadcast (on : Bool)
  /-- `SO_KEEPALIVE`. -/
  | keepalive (on : Bool)
  /-- `SO_SNDBUF`. -/
  | sndbuf (bytes : Nat)
  /-- `SO_RCVBUF`. -/
  | rcvbuf (bytes : Nat)
  /-- `TCP_KEEPIDLE`. -/
  | keepidle (seconds : Nat)
  /-- `TCP_KEEPINTVL`. -/
  | keepintvl (seconds : Nat)
  /-- `TCP_KEEPCNT`. -/
  | keepcnt (probes : Nat)
  /-- `TCP_USER_TIMEOUT`. -/
  | userTimeout (ms : Nat)
  /-- `SO_LINGER`. -/
  | linger (on : Bool) (seconds : Nat)
  deriving Repr, DecidableEq

/-- Set an option of a socket. -/
def Socket.setOption (sock : Socket) : SocketOption → Socket
  | .broadcast on => { sock with soBroadcast := on }
  | .keepalive on => { sock with soKeepalive := on }
  | .sndbuf bytes => { sock with soSndbuf := min bytes (cellTcpTxCap * cellTcpTxQueueCap) }
  | .rcvbuf bytes => { sock with tcp := { sock.tcp with soRcvbuf := min bytes cellTcpRxCap } }
  | .keepidle seconds => { sock with keepidle := seconds }
  | .keepintvl seconds => { sock with keepintvl := seconds }
  | .keepcnt probes => { sock with keepcnt := probes }
  | .userTimeout ms => { sock with userTimeoutMs := ms }
  | .linger on seconds => { sock with soLingerEnabled := on, soLingerSeconds := seconds }

end Spore.Net
