import Spore.Lib.Run
import Spore.Net.Socket

/-!
# What two ends of a connection believe about each other's window

Both ends run this stack, and the network between them may lose, repeat and reorder segments.
The SYN of the connecting end offers a window scale and the SYN|ACK that answers it does not.
So the accepting end multiplies what it is told and the connecting end takes it as it is,
while both divide what they tell.
-/

namespace Spore.Net

open Spore.Lib Spore.Proc Socket

namespace Socket

/-- Free bytes of the receive buffer, as `tcp_window` counts them. -/
def freeRoom (sock : Socket) : Nat := if sock.tcp.rx.isNone then 0 else sock.tcp.room

/-- `tcp_deliver_to_file` on the socket itself, without the segments it sends in answer and
the threads it wakes; `free` says whether the pool of out-of-order buffers has a slot. -/
def receive (sock : Socket) (now : Nat) (free : Bool) (seg : Segment) : Socket :=
  if sock.tcp.state = .synSent ∧ seg.body.flags.syn ∧ seg.body.flags.ack ∧
      seg.body.ack = sock.tcp.seq then sock.establish now seg
  else if sock.tcp.state = .synReceived ∧ seg.body.flags.ack ∧ seg.body.ack = sock.tcp.seq then
    ({ sock with tcp := { sock.tcp with state := .established } }.updateRemoteWindow
      seg.window).noteActivity now
  else if seg.body.flags.rst then
    if sock.tcp.rstAcceptable seg.body = false then sock
    else sock.closeWith (if sock.tcp.state = .synSent then eConnRefused else eConnReset)
  else if sock.tcp.state.flowing = false then sock
  else if seg.body.flags.ack ∧ Serial.after seg.body.ack sock.tcp.seq then sock
  else
    let noted := (sock.noteActivity now).updateRemoteWindow seg.window
    let acked := if seg.body.flags.ack then noted.txAck seg.body.ack now else noted
    { acked with tcp := acked.tcp.deliverData free seg.body }

/-- The segments that make `tcp_deliver_to_file` compute the send window of a socket anew, the
SYN|ACK that answers its own SYN apart. -/
def recomputes (sock : Socket) (seg : Segment) : Bool :=
  decide (sock.tcp.state = .synReceived ∧ seg.body.flags.ack ∧ seg.body.ack = sock.tcp.seq) ||
    (!seg.body.flags.rst && sock.tcp.state.flowing &&
      !(seg.body.flags.ack && Serial.after seg.body.ack sock.tcp.seq))

/-- `tcp_write_one_from_kernel` when the queue has its pages and the network takes the
segment: the segment, and the socket afterwards. -/
def writeOne (sock : Socket) (now : Nat) (data : List UInt8) : Option (Segment × Socket) :=
  let available := min sock.sendWindowAvailable sock.sendBufferAvailable
  let chunk := min (min data.length sock.sendChunkLimit) available
  if sock.tcp.error ≠ 0 ∨ sock.finSent ∨ sock.tcp.state ≠ .established ∨ chunk = 0 ∨
      cellTcpTxQueueCap ≤ sock.txQueue.length then none
  else
    let tracked := sock.txPush now (data.take chunk)
    some (.plain tracked.tcp.seq tracked.tcp.ack tracked.window ackFlag (data.take chunk),
      { tracked with tcp := { tracked.tcp with seq := tracked.tcp.seq + UInt32.ofNat chunk } })

end Socket

/-! ## The connection -/

/-- The ends of a connection. -/
inductive Side where
  | connector
  | acceptor
  deriving Repr, DecidableEq

/-- The other end. -/
def Side.peer : Side → Side
  | .connector => .acceptor
  | .acceptor => .connector

/-- A segment that was sent. -/
structure InFlight where
  /-- The end it goes to. -/
  dest : Side
  /-- The segment. -/
  seg : Segment
  /-- Free receive room of the sender when it sent the segment. -/
  room : Nat

/-- Two ends and everything they sent to each other. -/
structure Link where
  /-- The end that sent the SYN. -/
  connector : Socket
  /-- The end a listening socket made for it; none before that. -/
  acceptor : Option Socket
  /-- Every segment sent so far, which may arrive any number of times and in any order. -/
  flight : List InFlight

namespace Link

/-- The socket of an end. -/
def sock (link : Link) : Side → Option Socket
  | .connector => some link.connector
  | .acceptor => link.acceptor

/-- Write the socket of an end. -/
def put (link : Link) (side : Side) (sock : Socket) : Link :=
  match side with
  | .connector => { link with connector := sock }
  | .acceptor => { link with acceptor := some sock }

/-- An end sends a segment and goes on with the given socket. -/
def say (link : Link) (side : Side) (sock : Socket) (seg : Segment) : Link :=
  { link.put side sock with flight := link.flight ++ [⟨side.peer, seg, sock.freeRoom⟩] }

/-- `cell_fd_tcp_connect` on a closed socket. -/
def start (sock : Socket) (ip : BitVec 32) (port localPort : BitVec 16) (seq : UInt32)
    (now : Nat) : Link :=
  let connecting := sock.startConnect ip port localPort seq now
  ⟨connecting, none, [⟨.acceptor, connecting.syn seq, connecting.freeRoom⟩]⟩

end Link

/-- What an end does by itself. -/
inductive EndOp where
  /-- An acknowledgement, a piece sent again or a keepalive probe. -/
  | emit (seq : UInt32) (payload : List UInt8)
  | write (now : Nat) (data : List UInt8)
  | finish
  /-- `tcp_send_abortive_close`. -/
  | abort
  | read (copied : Bool) (len : Nat) (flags : UInt32)
  | setOption (option : SocketOption)

/-- What can happen on a connection. -/
inductive LinkOp where
  /-- The SYN reaches a listening socket: `tcp_deliver_syn_to_listener`. -/
  | answer (i : Nat) (listener : Socket) (srcIp : BitVec 32) (seq : UInt32) (now : Nat)
  /-- A segment reaches its end. -/
  | deliver (i now : Nat) (free : Bool)
  /-- The timer sends the SYN again. -/
  | resendSyn
  | act (side : Side) (op : EndOp)

/-- One step of an end that has a socket. -/
def Link.act (link : Link) (side : Side) (sock : Socket) : EndOp → Link
  | .emit seq payload =>
    -- Where nothing of a payload fits, the window that `tcp_window` gives is the zero sent.
    if sock.tcp.state.flowing then
      link.say side sock (.plain seq sock.tcp.ack sock.window ackFlag payload)
    else link
  | .write now data =>
    match sock.writeOne now data with
    | none => link
    | some (seg, after) => link.say side after seg
  | .finish =>
    if sock.tcp.error = 0 ∧ sock.finSent = false ∧ sock.tcp.state.flowing then
      link.say side
        { sock with
          finSent := true
          tcp := { sock.tcp with seq := sock.tcp.seq + 1, state := .finWait } }
        (.plain sock.tcp.seq sock.tcp.ack sock.window finAckFlags [])
    else link
  | .abort =>
    if sock.tcp.state.flowing ∨ sock.tcp.state = .synReceived then
      link.say side { sock with tcp := { sock.tcp with state := .closed } }
        (.plain sock.tcp.seq sock.tcp.ack 0 rstAckFlags [])
    else link
  | .read copied len flags =>
    link.put side { sock with
      tcp := { sock.tcp with rx := (sock.tcp.readToDomainFlags copied len flags).2.2.rx } }
  | .setOption option => link.put side (sock.setOption option)

/-- One step of the connection. -/
def Link.step (link : Link) (op : LinkOp) : Link :=
  match op with
  | .answer i listener srcIp seq now =>
    match link.flight[i]?, link.acceptor with
    | some item, none =>
      if item.dest = .acceptor ∧ item.seg.body.flags.syn then
        let server := listener.serverEnd srcIp link.connector.localPort
          link.connector.remotePort item.seg seq now
        link.say .acceptor server (.plain seq server.tcp.ack server.synWindow synAckFlags [])
      else link
    | _, _ => link
  | .deliver i now free =>
    match link.flight[i]? with
    | none => link
    | some item =>
      match link.sock item.dest with
      | none => link
      | some sock => link.put item.dest (sock.receive now free item.seg)
  | .resendSyn =>
    if link.connector.tcp.state = .synSent then
      link.say .connector link.connector (link.connector.syn (link.connector.tcp.seq - 1))
    else link
  | .act side op =>
    match link.sock side with
    | none => link
    | some sock => link.act side sock op

/-- The segment of the handshake's end or of the time after it that a step delivers, when the
end it goes to computes its send window from it. -/
def Link.arrival (link : Link) : LinkOp → Option (InFlight × Socket)
  | .deliver i _ _ => do
    let item ← link.flight[i]?
    let sock ← link.sock item.dest
    if item.seg.body.flags.syn = false ∧ sock.recomputes item.seg then some (item, sock) else none
  | _ => none

/-- The send window lies within the room of the end that sent the segment, less than four
bytes below what a segment can tell, and a write leaves no more unacknowledged bytes than
that end can store. -/
def Usable (room : Nat) (sock : Socket) : Prop :=
  sock.remoteWindow ≤ room ∧ min room (4 * 65535) < sock.remoteWindow + 4 ∧
    ∀ now data seg after, sock.writeOne now data = some (seg, after) → after.txInflight ≤ room

/-- The window agreement for the segment that a step delivers. -/
def Link.Agrees (link : Link) (op : LinkOp) : Prop :=
  ∀ item sock, link.arrival op = some (item, sock) → ∀ now free,
    Usable item.room (sock.receive now free item.seg)

/-- The segment goes to the accepting end, or tells of at most four bytes; a reset, which
tells of none, comes from an end without room for four. -/
def Link.Scaled (link : Link) (op : LinkOp) : Prop :=
  ∀ item sock, link.arrival op = some (item, sock) →
    if item.seg.body.flags.rst then item.room < 4 else item.dest = .acceptor ∨ item.room ≤ 4

/-! ## What a segment does to a socket -/

section

variable {sock : Socket} {now : Nat} {free : Bool} {seg : Segment}

/-- The scale changes only when a connecting end takes a SYN|ACK. -/
theorem receive_scale : (sock.receive now free seg).remoteWindowScale = sock.remoteWindowScale ∨
    (seg.body.flags.syn ∧ seg.body.flags.ack) ∧
      (sock.receive now free seg).remoteWindowScale = seg.windowScale := by
  unfold receive
  split
  · next answered => exact .inr ⟨⟨answered.2.1, answered.2.2.1⟩, rfl⟩
  left
  split
  · rfl
  split
  · split <;> rfl
  split
  · rfl
  split
  · rfl
  · dsimp only
    split <;> rfl

/-- The send window that a later segment gives. -/
theorem receive_window (later : seg.body.flags.syn = false) (taken : sock.recomputes seg)
    (scale : sock.remoteWindowScale < 16) :
    (sock.receive now free seg).remoteWindow = seg.window <<< sock.remoteWindowScale := by
  have small : ¬16 ≤ sock.remoteWindowScale := by omega
  simp only [recomputes, Bool.or_eq_true, decide_eq_true_eq, Bool.and_eq_true,
    Bool.not_eq_true', Bool.and_eq_false_iff] at taken
  unfold receive
  split
  · next connecting => exact absurd connecting.2.1 (by simp [later])
  split
  · simp [updateRemoteWindow, noteActivity, small]
  next unfinished =>
  have flows := taken.resolve_left unfinished
  have known : ¬(seg.body.flags.ack ∧ Serial.after seg.body.ack sock.tcp.seq) := by
    rintro ⟨acks, beyond⟩
    rcases flows.2 with no_ack | not_beyond
    · exact absurd (acks.symm.trans no_ack) (by decide)
    · exact absurd (beyond.symm.trans not_beyond) (by decide)
  rw [if_neg (by simp [flows.1.1]), if_neg (by simp [flows.1.2]), if_neg known]
  split <;> simp [updateRemoteWindow, noteActivity, txAck, small]

/-- A write stays within the send window. -/
theorem writeOne_inflight {data : List UInt8} {after : Socket}
    (wrote : sock.writeOne now data = some (seg, after)) :
    after.txInflight ≤ sock.remoteWindow := by
  unfold writeOne at wrote
  dsimp only at wrote
  generalize chunk_is : min (min data.length sock.sendChunkLimit)
    (min sock.sendWindowAvailable sock.sendBufferAvailable) = chunk at wrote
  have within : chunk ≤ sock.remoteWindow - sock.txInflight := by
    rw [← chunk_is, ← sendWindowAvailable]
    omega
  split at wrote
  · exact absurd wrote (by simp)
  next open_socket =>
  have advanced (head : UInt32) : (sock.tcp.seq + UInt32.ofNat chunk - head).toNat ≤
      (sock.tcp.seq - head).toNat + chunk := by
    have moved : sock.tcp.seq + UInt32.ofNat chunk - head =
        sock.tcp.seq - head + UInt32.ofNat chunk := by grind
    rw [moved, UInt32.toNat_add, UInt32.toNat_ofNat']
    omega
  cases wrote
  unfold txInflight at within ⊢
  simp only [txPush, txQueue, Option.getD_some] at within ⊢
  cases queue : sock.tx.getD [] with
  | nil =>
    have alone := advanced sock.tcp.seq
    simp only [queue, List.nil_append, UInt32.sub_self, UInt32.toNat_zero] at within alone ⊢
    omega
  | cons head rest =>
    have behind := advanced head.seq
    simp only [queue, List.cons_append] at within behind ⊢
    omega

/-! ## Along a run -/

/-- A segment carries a scale only on a SYN to the accepting end, and tells a quarter of the
room after the handshake; a reset tells of no room. -/
structure InFlight.Honest (item : InFlight) : Prop where
  /-- No scale towards the connecting end. -/
  plain : item.dest = .connector → item.seg.windowScale = 0
  /-- The scale of the SYN. -/
  scaled : item.dest = .acceptor → item.seg.body.flags.syn = true →
    item.seg.body.flags.ack = false ∧ item.seg.windowScale = tcpRcvWindowScale
  /-- The window of every other segment. -/
  window : item.seg.body.flags.syn = false → item.seg.window =
    if item.seg.body.flags.rst then 0 else min (item.room >>> tcpRcvWindowScale) 65535

/-- What the ends know about each other's scale. -/
structure Link.Tuned (link : Link) : Prop where
  /-- The connecting end heard of no scale. -/
  connector : link.connector.remoteWindowScale = 0
  /-- The accepting end knows the scale of the other. -/
  acceptor : ∀ sock, link.acceptor = some sock → sock.remoteWindowScale = tcpRcvWindowScale
  /-- No item announces a false window. -/
  flight : ∀ item ∈ link.flight, item.Honest

/-- A segment without options and without SYN, sent with the socket's window. -/
theorem InFlight.Honest.plain_segment (side : Side) (fin : Bool) (seq ack : UInt32)
    (payload : List UInt8) :
    InFlight.Honest
      ⟨side, .plain seq ack sock.window ⟨fin, false, false, true⟩ payload, sock.freeRoom⟩ := by
  refine ⟨fun _ => rfl, nofun, fun _ => ?_⟩
  change sock.window = min (sock.freeRoom >>> tcpRcvWindowScale) 65535
  unfold Socket.window Socket.freeRoom
  split
  · decide
  · rfl

namespace Link.Tuned

variable {link : Link} {side : Side}

/-- An end changes. -/
theorem put (tuned : link.Tuned) {before after : Socket} (there : link.sock side = some before)
    (same : after.remoteWindowScale = before.remoteWindowScale) : (link.put side after).Tuned := by
  cases side with
  | connector =>
    cases there
    exact ⟨same.trans tuned.connector, tuned.acceptor, tuned.flight⟩
  | acceptor =>
    refine ⟨tuned.connector, fun sock now_it => ?_, tuned.flight⟩
    cases now_it
    exact same.trans (tuned.acceptor before there)

/-- An end sends. -/
theorem say (tuned : (link.put side sock).Tuned)
    (honest : InFlight.Honest ⟨side.peer, seg, sock.freeRoom⟩) :
    (link.say side sock seg).Tuned := by
  refine ⟨tuned.connector, tuned.acceptor, fun item sent => ?_⟩
  rcases List.mem_append.mp sent with before | new
  · apply tuned.flight item
    cases side <;> exact before
  · rw [List.mem_singleton.mp new]
    exact honest

/-- A step of one end. -/
theorem act (tuned : link.Tuned) (there : link.sock side = some sock) (op : EndOp) :
    (link.act side sock op).Tuned := by
  have same := tuned.put there rfl
  unfold Link.act
  split
  · split
    · exact same.say (.plain_segment _ false _ _ _)
    · exact tuned
  · split
    · exact tuned
    next seg after wrote =>
    unfold writeOne at wrote
    dsimp only at wrote
    split at wrote
    · exact absurd wrote (by simp)
    cases wrote
    apply Link.Tuned.say
    · exact tuned.put there rfl
    · exact .plain_segment _ false _ _ _
  · split
    · apply Link.Tuned.say
      · exact tuned.put there rfl
      · exact .plain_segment _ true _ _ _
    · exact tuned
  · split
    · apply Link.Tuned.say
      · exact tuned.put there rfl
      · exact ⟨fun _ => rfl, nofun, fun _ => rfl⟩
    · exact tuned
  · exact tuned.put there rfl
  · next option =>
    apply tuned.put there
    cases option <;> rfl

/-- Every step keeps what the ends know. -/
theorem step (tuned : link.Tuned) (op : LinkOp) : (link.step op).Tuned := by
  unfold Link.step
  split
  · split
    · next item sent _ =>
      split
      · next new =>
        have honest := tuned.flight item (List.mem_of_getElem? sent)
        refine .say ⟨tuned.connector, fun sock made => ?_, tuned.flight⟩
          ⟨fun _ => rfl, nofun, nofun⟩
        cases made
        exact (honest.scaled new.1 new.2).2
      · exact tuned
    · exact tuned
  · split
    · exact tuned
    next item sent =>
    have honest := tuned.flight item (List.mem_of_getElem? sent)
    split
    · exact tuned
    next sock there =>
    apply tuned.put there
    rcases receive_scale with kept | ⟨answered, given⟩
    · exact kept
    cases side_is : item.dest with
    | connector =>
      rw [side_is] at there
      cases there
      rw [given, honest.plain side_is, tuned.connector]
    | acceptor =>
      have no_ack := (honest.scaled side_is answered.1).1
      exact absurd (no_ack.symm.trans answered.2) (by decide)
  · split
    · have same : (link.put .connector link.connector).Tuned := tuned.put rfl rfl
      exact same.say ⟨nofun, fun _ _ => ⟨rfl, rfl⟩, nofun⟩
    · exact tuned
  · split
    · exact tuned
    · next sock there => exact tuned.act there _

/-- A connection that starts. -/
theorem start (sock : Socket) (ip : BitVec 32) (port localPort : BitVec 16) (seq : UInt32)
    (now : Nat) : (Link.start sock ip port localPort seq now).Tuned := by
  refine ⟨rfl, fun _ made => absurd made (by simp [Link.start]), fun item sent => ?_⟩
  rw [List.mem_singleton.mp sent]
  exact ⟨nofun, fun _ _ => ⟨rfl, rfl⟩, nofun⟩

/-- The segment a step delivers agrees with the room exactly when the end it goes to knows the
scale, or the room is so small that neither the scale nor the window matters. -/
theorem agrees_iff (tuned : link.Tuned) (op : LinkOp) : link.Agrees op ↔ link.Scaled op := by
  have one (item : InFlight) (sock : Socket) (arrives : link.arrival op = some (item, sock)) :
      (∀ now free, Usable item.room (sock.receive now free item.seg)) ↔
        if item.seg.body.flags.rst then item.room < 4
        else item.dest = .acceptor ∨ item.room ≤ 4 := by
    unfold Link.arrival at arrives
    split at arrives
    · next i _ _ =>
      simp only [Option.bind_eq_bind, Option.bind_eq_some_iff] at arrives
      obtain ⟨found, sent, receiver, there, judged⟩ := arrives
      split at judged
      · next later =>
        cases judged
        have honest := tuned.flight item (List.mem_of_getElem? sent)
        have told := honest.window later.1
        have usable_iff (now : Nat) (free : Bool) :
            Usable item.room (sock.receive now free item.seg) ↔
              (sock.receive now free item.seg).remoteWindow ≤ item.room ∧
              min item.room (4 * 65535) < (sock.receive now free item.seg).remoteWindow + 4 :=
          ⟨fun usable => ⟨usable.1, usable.2.1⟩, fun both => ⟨both.1, both.2,
            fun _ _ _ _ wrote => (writeOne_inflight wrote).trans both.1⟩⟩
        simp only [usable_iff]
        cases side_is : item.dest with
        | connector =>
          rw [side_is] at there
          cases there
          have window (now : Nat) (free : Bool) :
              (link.connector.receive now free item.seg).remoteWindow = _ :=
            receive_window later.1 later.2 (by rw [tuned.connector]; decide)
          simp only [window, tuned.connector, told, tcpRcvWindowScale, Nat.shiftRight_eq_div_pow,
            Nat.shiftLeft_zero, forall_const, reduceCtorEq, false_or]
          split <;> omega
        | acceptor =>
          rw [side_is] at there
          have scale := tuned.acceptor sock there
          have window (now : Nat) (free : Bool) :
              (sock.receive now free item.seg).remoteWindow = _ :=
            receive_window later.1 later.2 (by rw [scale]; decide)
          simp only [window, scale, told, tcpRcvWindowScale, Nat.shiftRight_eq_div_pow,
            Nat.shiftLeft_eq, forall_const, true_or]
          split
          · omega
          · simp only [iff_true]
            omega
      · exact absurd judged (by simp)
    · exact absurd arrives (by simp)
  exact forall_congr' fun item => forall_congr' fun sock => forall_congr' fun arrives =>
    one item sock arrives

end Link.Tuned

/-- In every run of a connection, the window an end computes from a segment agrees with the
room of the other exactly when it is the accepting end, or the room is at most four bytes
(less for a reset that is taken for the end of the handshake). -/
theorem window_agreement_iff (sock : Socket) (ip : BitVec 32) (port localPort : BitVec 16)
    (seq : UInt32) (now : Nat) (ops : List LinkOp) :
    EveryInput Link.step (fun link op => link.Agrees op ↔ link.Scaled op)
      (Link.start sock ip port localPort seq now) ops := by
  have start := Link.Tuned.start sock ip port localPort seq now
  generalize Link.start sock ip port localPort seq now = link at start
  induction ops generalizing link with
  | nil => trivial
  | cons op rest rest_holds =>
    exact ⟨start.agrees_iff op, rest_holds (link.step op) (start.step op)⟩

/-- The handshake of two ends with empty buffers, and an acknowledgement to the one that
connected. -/
def acknowledgedLink : Link :=
  [.answer 0 Socket.zero 0 700 0, .deliver 1 0 true, .act .connector (.emit 1 []),
    .deliver 2 0 true, .act .acceptor (.emit 701 [])].foldl Link.step
    (Link.start (Socket.fresh ipprotoTcp 0) 0x0202000a 80 49152 0 0)

/-- The connecting end takes a room of 262144 bytes for one of 65535. -/
theorem connector_window_too_small : ¬acknowledgedLink.Agrees (.deliver 3 0 true) := by
  intro agrees
  have numbers : (acknowledgedLink.arrival (.deliver 3 0 true)).map (fun pair =>
      (pair.1.room, (pair.2.receive 0 true pair.1.seg).remoteWindow)) = some (262144, 65535) := by
    decide +kernel
  obtain ⟨⟨item, sock⟩, arrives, both⟩ := Option.map_eq_some_iff.mp numbers
  have lower := (agrees item sock arrives 0 true).2.1
  simp only [Prod.mk.injEq] at both
  rw [both.1, both.2] at lower
  exact absurd lower (by decide)

end

end Spore.Net
