import Spore.Net.TcpReceive

/-!
# Integrity of the TCP receive stream

The peer sends one byte stream, numbered from the sequence number the socket expects first.
Segments carry pieces of it in any order, and reads take bytes from the front of the receive
buffer. Whatever arrives, what readers got followed by what they can still read is a prefix
of the stream, and the next expected number is the length of that prefix.
-/

namespace Spore.Net

open TcpSocket List

variable {data : List UInt8} {ooo : OooState} {seq finSeq : UInt32} {slot len fuel : Nat}

open Spore.Lib

/-- The bytes are the piece of the stream that begins at the sequence number. -/
def Piece (start : UInt32) (stream : List UInt8) (seq : UInt32) (data : List UInt8) : Prop :=
  ∃ front back, stream = front ++ data ++ back ∧ seq = Serial.offset start front.length

section Pieces

variable {start seq : UInt32} {stream data : List UInt8}

section

variable (piece : Piece start stream seq data)

include piece

/-- A piece without its first bytes. -/
theorem Piece.drop {n : Nat} (short : n ≤ data.length) :
    Piece start stream (seq + UInt32.ofNat n) (data.drop n) := by
  obtain ⟨front, back, split, place⟩ := piece
  refine ⟨front ++ data.take n, back, ?_, ?_⟩
  · rw [append_assoc front, take_append_drop, split]
  · rw [place, length_append, length_take, Nat.min_eq_left short, Serial.offset_add]

/-- A piece without its last bytes. -/
theorem Piece.take (n : Nat) : Piece start stream seq (data.take n) := by
  obtain ⟨front, back, split, place⟩ := piece
  refine ⟨front, data.drop n ++ back, ?_, place⟩
  rw [append_assoc, ← append_assoc (data.take n), take_append_drop, split, append_assoc]

/-- A piece that begins where a prefix ends extends the prefix. -/
theorem Piece.extends {got : List UInt8} (small : stream.length < 2 ^ 31) (sofar : got <+: stream)
    (next : seq = Serial.offset start got.length) : got ++ data <+: stream := by
  obtain ⟨front, back, split, place⟩ := piece
  have frontLength : front.length ≤ stream.length := by
    rw [split]
    simp only [length_append]
    omega
  have gotLength := sofar.length_le
  have same : front.length = got.length :=
    (Serial.offset_inj start (by omega) (by omega)).mp (place.symm.trans next)
  have equal : got = front := by
    apply List.IsPrefix.eq_of_length _ same.symm
    apply prefix_of_prefix_length_le sofar _ (Nat.le_of_eq same.symm)
    rw [split, append_assoc]
    exact prefix_append _ _
  rw [equal, split]
  exact prefix_append _ _

/-- The distance of a piece from the start, and where it ends. -/
theorem Piece.bounds : ∃ o, seq = Serial.offset start o ∧ o + data.length ≤ stream.length := by
  obtain ⟨front, back, split, place⟩ := piece
  refine ⟨front.length, place, ?_⟩
  rw [split]
  simp only [length_append]
  omega

end

end Pieces

/-- What `tcp_append_rx` can do: take nothing, or take a nonempty front part of the data, all
of it unless the buffer is then full. -/
theorem appendRx_cases (sock : TcpSocket) (data : List UInt8) :
    sock.appendRx data = (0, sock) ∨
      ∃ bytes n, sock.rx = some bytes ∧ 0 < n ∧ n ≤ data.length ∧ n ≤ sock.room ∧
        (n < data.length → n = sock.room) ∧
        sock.appendRx data = (n, { sock with
          rx := some (bytes ++ data.take n), ack := sock.ack + UInt32.ofNat n }) := by
  unfold appendRx
  cases allocated : sock.rx with
  | none => exact .inl rfl
  | some bytes =>
    generalize count : (if data.length < sock.room then data.length else sock.room) = n
    by_cases none : n = 0
    · exact .inl (by simp only [none, ↓reduceIte])
    refine .inr ⟨bytes, n, rfl, Nat.pos_of_ne_zero none, ?_, ?_, ?_, ?_⟩
    · split at count <;> omega
    · split at count <;> omega
    · split at count <;> omega
    · simp only [none, ↓reduceIte]

/-- Every used entry of an out-of-order store is a piece of the stream. -/
def Stored (start : UInt32) (stream : List UInt8) (ooo : OooState) : Prop :=
  ∀ entry ∈ ooo.entries, entry.used = true → Piece start stream entry.seq entry.data

/-- Storing a piece, or emptying an entry, keeps every used entry a piece. -/
theorem Stored.set {start : UInt32} {stream : List UInt8} (stored : Stored start stream ooo)
    (slot : Nat) (entry : OooEntry) (piece : entry.used → Piece start stream entry.seq entry.data) :
    Stored start stream (ooo.set slot entry) := by
  intro other member used
  rcases mem_or_eq_of_mem_set member with old | rfl
  · exact stored other old used
  · exact piece used

/-- What holds of a socket between two calls, with `delivered` the bytes readers have got. -/
structure StreamInv (start : UInt32) (stream delivered : List UInt8) (sock : TcpSocket) :
    Prop where
  /-- No handshake is under way that would choose another start. -/
  started : sock.state ≠ .synSent
  /-- Delivered and readable bytes are a prefix of the stream. -/
  received : delivered ++ sock.rxBytes <+: stream
  /-- The next expected number is the end of that prefix, one more after the FIN. -/
  expected : sock.ack = Serial.offset start
    ((delivered ++ sock.rxBytes).length + if sock.fin then 1 else 0)
  /-- The FIN is accepted after the whole stream only. -/
  complete : sock.fin = true → delivered ++ sock.rxBytes = stream
  /-- A pending FIN is the peer's, and not yet accepted. -/
  pending : sock.finPending = true →
    sock.fin = false ∧ sock.finSeq = Serial.offset start stream.length
  /-- Stored pieces are pieces of the stream. -/
  stored : ∀ ooo, sock.ooo = some ooo → Stored start stream ooo

namespace StreamInv

variable {start : UInt32} {stream delivered : List UInt8} {sock : TcpSocket}

/-- The distance of the next expected number. -/
def reached (delivered : List UInt8) (sock : TcpSocket) : Nat :=
  (delivered ++ sock.rxBytes).length + if sock.fin then 1 else 0

section

variable (inv : StreamInv start stream delivered sock)

include inv

/-- The next expected number is at most one past the stream. -/
theorem reached_le : reached delivered sock ≤ stream.length + 1 := by
  have length := inv.received.length_le
  unfold reached
  split <;> omega

/-- The two comparisons of a number of the stream with the next expected number. -/
theorem before_ack (small : stream.length < 2 ^ 31) {o : Nat} (inside : o ≤ stream.length) :
    Serial.before (Serial.offset start o) sock.ack = decide (o < reached delivered sock) := by
  rw [inv.expected]
  have bound := inv.reached_le
  exact Serial.before_offset start (by omega) (by unfold reached at bound; omega)

/-- A piece that begins at the next expected number arrives before the FIN. -/
theorem fin_false (small : stream.length < 2 ^ 31)
    (piece : Piece start stream sock.ack data) : sock.fin = false := by
  obtain ⟨o, place, inside⟩ := piece.bounds
  cases fin : sock.fin with
  | false => rfl
  | true =>
    have length := congrArg length (inv.complete fin)
    have same := inv.expected.symm.trans place
    rw [fin, if_pos rfl, length, Serial.offset_inj start (by omega) (by omega)] at same
    omega

/-! ## Appending in order -/

section

variable (small : stream.length < 2 ^ 31)

include small

/-- Appending a piece at the next expected number keeps the invariant. -/
theorem appendRx (piece : Piece start stream sock.ack data) :
    StreamInv start stream delivered (sock.appendRx data).2 := by
  have notFin := inv.fin_false small piece
  rcases appendRx_cases sock data with same | ⟨bytes, n, allocated, _, atMost, -, -, taken⟩
  · rw [same]
    exact inv
  rw [taken]
  have readable : sock.rxBytes = bytes := by simp [rxBytes, allocated]
  have next : sock.ack = Serial.offset start (delivered ++ bytes).length := by
    rw [inv.expected, notFin, readable]
    rfl
  have sofar := inv.received
  rw [readable] at sofar
  refine ⟨inv.started, ?_, ?_, ?_, inv.pending, inv.stored⟩
  · change delivered ++ (bytes ++ data.take n) <+: stream
    rw [← append_assoc]
    exact (piece.take n).extends small sofar next
  · change sock.ack + UInt32.ofNat n = Serial.offset start
      ((delivered ++ (bytes ++ data.take n)).length + if sock.fin then 1 else 0)
    have total : (delivered ++ (bytes ++ data.take n)).length =
        (delivered ++ bytes).length + n := by
      simp [atMost, Nat.add_assoc]
    rw [next, notFin, total, ← Serial.offset_add]
    rfl
  · intro fin
    exact absurd (notFin.symm.trans fin) (by decide)

/-- Accepting a pending FIN keeps the invariant. -/
theorem acceptPendingFin : StreamInv start stream delivered sock.acceptPendingFin := by
  unfold TcpSocket.acceptPendingFin
  split
  · exact inv
  rename_i ready
  obtain ⟨waiting, here⟩ : sock.finPending ∧ sock.finSeq = sock.ack := by
    simpa [not_or] using ready
  obtain ⟨notFin, place⟩ := inv.pending waiting
  have length := inv.received.length_le
  -- The FIN's number is the end of the stream, so everything before it has arrived.
  have all : (delivered ++ sock.rxBytes).length = stream.length := by
    have same := inv.expected.symm.trans (here.symm.trans place)
    rw [notFin] at same
    exact (Serial.offset_inj start (Nat.lt_of_le_of_lt length (by omega)) (by omega)).mp same
  refine ⟨inv.started, inv.received, ?_, ?_, ?_, inv.stored⟩
  · change sock.finSeq + 1 = Serial.offset start ((delivered ++ sock.rxBytes).length + 1)
    rw [place, all, Serial.offset_add]
    rfl
  · exact fun _ => inv.received.eq_of_length all
  · intro waiting'
    contradiction

/-- Recording the peer's FIN keeps the invariant. -/
theorem recordFin (place : finSeq = Serial.offset start stream.length) :
    StreamInv start stream delivered (sock.recordFin finSeq) := by
  unfold TcpSocket.recordFin
  split
  · exact inv
  rename_i ahead
  refine ⟨inv.started, inv.received, inv.expected, inv.complete, ?_, inv.stored⟩
  intro _
  refine ⟨?_, place⟩
  cases fin : sock.fin with
  | false => rfl
  | true =>
    -- After the FIN the next expected number lies beyond it.
    have length := congrArg length (inv.complete fin)
    rw [place, inv.before_ack small (Nat.le_refl _)] at ahead
    simp only [reached, fin, length, ↓reduceIte, decide_eq_true_eq] at ahead
    omega

end

/-- Replacing the out-of-order store keeps the invariant if the new one holds pieces. -/
theorem withOoo (stored : Stored start stream ooo) :
    StreamInv start stream delivered { sock with ooo := some ooo } :=
  ⟨inv.started, inv.received, inv.expected, inv.complete, inv.pending, fun _ same =>
    Option.some.inj same ▸ stored⟩

/-! ## Out-of-order pieces -/

/-- Storing a piece ahead of the next expected number keeps the invariant. -/
theorem storeOooAt (free : Bool) (piece : Piece start stream seq data) :
    StreamInv start stream delivered (sock.storeOooAt free seq data) := by
  unfold TcpSocket.storeOooAt
  split
  · exact inv
  rename_i ooo allocated
  have stored : Stored start stream ooo := by
    unfold TcpSocket.allocOoo at allocated
    split at allocated
    · rename_i held
      exact inv.stored ooo (held.trans allocated)
    split at allocated
    · cases allocated
      intro entry member used
      rw [eq_of_mem_replicate member] at used
      contradiction
    · contradiction
  dsimp only
  split
  · exact inv.withOoo stored
  · exact inv.withOoo (stored.set _ _ fun _ => piece.take _)

/-- `tcp_store_ooo` keeps the invariant. -/
theorem storeOoo (free : Bool) (piece : Piece start stream seq data) :
    StreamInv start stream delivered (sock.storeOoo free seq data) := by
  unfold TcpSocket.storeOoo
  split
  · exact inv
  split
  · exact inv
  split
  · dsimp only
    split
    · exact inv
    · rename_i rest
      exact inv.storeOooAt free (piece.drop (Nat.le_of_not_le rest))
  · exact inv.storeOooAt free piece

/-- Appending the chosen piece in a drain iteration keeps the invariant. -/
theorem drainAppend (small : stream.length < 2 ^ 31)
    (stored : Stored start stream ooo) (slot : Nat) (piece : Piece start stream seq data) :
    StreamInv start stream delivered (sock.drainAppend ooo slot seq data).1 := by
  have shifted := inv.withOoo (stored.set slot ⟨true, seq, data⟩ fun _ => piece)
  unfold TcpSocket.drainAppend
  dsimp only
  split
  · exact shifted
  rename_i here
  rw [not_not] at here
  have appended := shifted.appendRx small (here ▸ piece)
  rcases appendRx_cases { sock with ooo := some (ooo.set slot ⟨true, seq, data⟩) } data with
    same | ⟨bytes, n, -, positive, atMost, -, -, taken⟩
  · rw [same]
    exact shifted
  rw [taken] at appended ⊢
  have accepted := appended.acceptPendingFin small
  simp only [Nat.ne_of_gt positive, ↓reduceIte]
  split
  · exact accepted.withOoo (stored.set slot _ fun used => by contradiction)
  · exact accepted.withOoo (stored.set slot _ fun _ => piece.drop atMost)

end

end StreamInv

/-- The chosen entry is a used entry of the store. -/
theorem nextOooSlotFrom_mem (rest : List OooEntry) : ∀ (i : Nat) (best : Option (Nat × OooEntry))
    {slot : Nat} {entry : OooEntry}, nextOooSlotFrom i rest best = some (slot, entry) →
    best = some (slot, entry) ∨
      (entry ∈ rest ∧ entry.used ∧ i ≤ slot ∧ rest[slot - i]? = some entry) := by
  induction rest with
  | nil => exact fun _ _ _ _ found => .inl found
  | cons head rest ih =>
    intro i best slot entry found
    have later : ∀ best', nextOooSlotFrom (i + 1) rest best' = some (slot, entry) →
        best' = some (slot, entry) ∨ (entry ∈ head :: rest ∧ entry.used = true ∧ i ≤ slot ∧
          (head :: rest)[slot - i]? = some entry) := by
      intro best' found'
      rcases ih (i + 1) best' found' with same | ⟨member, used, above, place⟩
      · exact .inl same
      · refine .inr ⟨mem_cons_of_mem _ member, used, by omega, ?_⟩
        rw [show slot - i = (slot - (i + 1)) + 1 by omega, getElem?_cons_succ]
        exact place
    have chosen : head.used →
        nextOooSlotFrom (i + 1) rest (some (i, head)) = some (slot, entry) →
        entry ∈ head :: rest ∧ entry.used = true ∧ i ≤ slot ∧
          (head :: rest)[slot - i]? = some entry := by
      intro used found'
      rcases later _ found' with same | there
      · simp only [Option.some.injEq, Prod.mk.injEq] at same
        obtain ⟨rfl, rfl⟩ := same
        simp [used]
      · exact there
    unfold nextOooSlotFrom at found
    split at found
    · exact later best found
    rename_i live
    have used : head.used := by simpa using live
    split at found
    · exact .inr (chosen used found)
    · split at found
      · exact .inr (chosen used found)
      · exact later _ found

/-- The chosen entry is a used entry, at the chosen position. -/
theorem nextOooSlot_some {entries : List OooEntry} {entry : OooEntry}
    (found : nextOooSlot entries = some (slot, entry)) :
    entries[slot]? = some entry ∧ entry.used := by
  rcases nextOooSlotFrom_mem entries 0 none found with none | ⟨-, used, -, place⟩
  · contradiction
  · exact ⟨place, used⟩

namespace StreamInv

variable {start : UInt32} {stream delivered : List UInt8} {sock : TcpSocket}

/-- One iteration of `tcp_drain_ooo` keeps the invariant. -/
theorem drainStep (inv : StreamInv start stream delivered sock)
    (small : stream.length < 2 ^ 31) : StreamInv start stream delivered sock.drainStep.1 := by
  unfold TcpSocket.drainStep
  split
  · exact inv
  rename_i ooo held
  have stored := inv.stored ooo held
  split
  · exact ⟨inv.started, inv.received, inv.expected, inv.complete, inv.pending,
      fun _ none => by contradiction⟩
  rename_i slot entry found
  obtain ⟨place, used⟩ := nextOooSlot_some found
  have piece := stored entry (mem_of_getElem? place) used
  split
  · dsimp only
    split
    · exact inv.withOoo (stored.set slot _ fun used => by contradiction)
    · rename_i rest
      exact inv.drainAppend small stored slot (piece.drop (Nat.le_of_not_le rest))
  · exact inv.drainAppend small stored slot piece

/-- Any number of iterations keeps the invariant. -/
theorem drainFor (small : stream.length < 2 ^ 31) (fuel : Nat) : ∀ {sock : TcpSocket},
    StreamInv start stream delivered sock →
    StreamInv start stream delivered (TcpSocket.drainFor fuel sock) := by
  induction fuel with
  | zero => exact fun inv => inv
  | succ fuel ih =>
    intro sock inv
    have step := inv.drainStep small
    unfold TcpSocket.drainFor
    split
    · rename_i next same
      rw [same] at step
      exact ih step
    · rename_i next same
      rw [same] at step
      exact step

end StreamInv

/-! ## The drain loop ends -/

/-- Entries in use. -/
def oooCount (sock : TcpSocket) : Nat :=
  (sock.ooo.map fun ooo => ooo.entries.countP (·.used)).getD 0

/-- What an iteration that continues makes smaller: two for each used entry, and one while
the buffer has room. -/
def drainMeasure (sock : TcpSocket) : Nat := 2 * oooCount sock + if sock.room = 0 then 0 else 1

/-- Replacing a used entry changes the count by what the new entry holds. -/
theorem countP_set_used {old : OooEntry} (place : ooo.entries[slot]? = some old)
    (used : old.used) (new : OooEntry) :
    (ooo.set slot new).entries.countP (·.used) + 1 =
      ooo.entries.countP (·.used) + if new.used then 1 else 0 := by
  obtain ⟨inside, rfl⟩ := List.getElem?_eq_some_iff.mp place
  have positive : 0 < ooo.entries.countP (·.used) :=
    List.countP_pos_iff.mpr ⟨_, List.getElem_mem inside, used⟩
  rw [OooState.set, List.countP_set inside]
  split <;> omega

/-- Accepting a FIN takes no room. -/
theorem room_acceptPendingFin (sock : TcpSocket) : sock.acceptPendingFin.room = sock.room := by
  unfold acceptPendingFin
  split <;> rfl

/-- An append that lets the loop continue empties the entry or fills the buffer. -/
theorem drainAppend_continues {sock next : TcpSocket}
    (continues : sock.drainAppend ooo slot seq data = (next, true)) :
    ∃ new, next.ooo = some (ooo.set slot new) ∧ (new.used → next.room = 0 ∧ sock.room ≠ 0) := by
  unfold drainAppend at continues
  dsimp only at continues
  split at continues
  · simp at continues
  rcases appendRx_cases { sock with ooo := some (ooo.set slot ⟨true, seq, data⟩) } data with
    same | ⟨bytes, n, allocated, positive, atMost, fits, full, taken⟩
  · rw [same] at continues
    simp at continues
  rw [taken] at continues
  simp only [Nat.ne_of_gt positive, ↓reduceIte] at continues
  split at continues <;> cases continues
  · exact ⟨_, rfl, by simp⟩
  rename_i part
  have used : n = sock.room := full (by omega)
  refine ⟨_, rfl, fun _ => ⟨(room_acceptPendingFin _).trans (if_pos ?_), by omega⟩⟩
  show sock.effectiveBuffer ≤ (bytes ++ data.take n).length
  have readable : sock.rxBytes = bytes := congrArg (Option.getD · []) allocated
  rw [room, readable] at used
  rw [length_append, length_take_of_le atMost]
  split at used <;> omega

/-- An iteration that continues makes the measure smaller. -/
theorem drainStep_measure {sock next : TcpSocket} (continues : sock.drainStep = (next, true)) :
    drainMeasure next < drainMeasure sock := by
  unfold drainStep at continues
  split at continues
  · simp at continues
  rename_i ooo held
  split at continues
  · simp at continues
  rename_i slot entry found
  obtain ⟨place, used⟩ := nextOooSlot_some found
  obtain ⟨new, later, filled⟩ : ∃ new, next.ooo = some (ooo.set slot new) ∧
      (new.used → next.room = 0 ∧ sock.room ≠ 0) := by
    split at continues
    · dsimp only at continues
      split at continues
      · cases continues
        exact ⟨_, rfl, by simp⟩
      · exact drainAppend_continues continues
    · exact drainAppend_continues continues
  have counted := countP_set_used place used new
  simp only [drainMeasure, oooCount, held, later, Option.map_some, Option.getD_some]
  by_cases still : new.used
  · simp only [still, filled, ↓reduceIte] at counted ⊢
    omega
  · rw [if_neg still] at counted
    split <;> split <;> omega

/-- `tcp_drain_ooo` as the source has it, with no bound: so many iterations, of which only the
last does not ask for another. -/
inductive Drains : Nat → TcpSocket → TcpSocket → Prop
  /-- The iteration that leaves the loop. -/
  | stop {sock last : TcpSocket} (leaves : sock.drainStep = (last, false)) : Drains 1 sock last
  /-- An iteration that continues, and those after it. -/
  | round {rounds : Nat} {sock next last : TcpSocket} (continues : sock.drainStep = (next, true))
      (rest : Drains rounds next last) : Drains (rounds + 1) sock last

/-- A bound that exceeds the measure is not reached: the loop leaves by itself. -/
theorem drainFor_leaves : ∀ {sock : TcpSocket}, drainMeasure sock < fuel →
    ∃ rounds ≤ fuel, Drains rounds sock (drainFor fuel sock) := by
  induction fuel with
  | zero => exact fun bound => absurd bound (Nat.not_lt_zero _)
  | succ fuel ih =>
    intro sock bound
    unfold drainFor
    split
    · rename_i next continues
      have smaller := drainStep_measure continues
      obtain ⟨rounds, few, drains⟩ := @ih next (by omega)
      exact ⟨rounds + 1, by omega, .round continues drains⟩
    · rename_i last leaves
      exact ⟨1, by omega, .stop leaves⟩

/-- The source's unbounded loop leaves for every socket, within the iterations that `drainOoo`
allows and with its result. -/
theorem drainOoo_finished (sock : TcpSocket) :
    ∃ rounds ≤ 2 * tcpOooEntries + 2, Drains rounds sock sock.drainOoo := by
  apply drainFor_leaves
  have few : oooCount sock ≤ tcpOooEntries := by
    unfold oooCount
    cases sock.ooo with
    | none => simp
    | some ooo =>
      rw [← ooo.sized]
      exact countP_le_length
  unfold drainMeasure
  split <;> omega

namespace StreamInv

variable {start : UInt32} {stream delivered : List UInt8} {sock : TcpSocket}

/-! ## Delivery and reading -/

/-- The segment's own FIN. -/
theorem deliverFin (inv : StreamInv start stream delivered sock) (small : stream.length < 2 ^ 31)
    {fin : Bool} (atEnd : fin → finSeq = Serial.offset start stream.length) :
    StreamInv start stream delivered (sock.deliverFin fin finSeq) := by
  unfold TcpSocket.deliverFin
  split
  · rename_i set
    exact (inv.recordFin small (atEnd set)).acceptPendingFin small
  · exact inv

/-- Payload at or ahead of the next expected number keeps the invariant. -/
theorem deliverPayload (inv : StreamInv start stream delivered sock)
    (small : stream.length < 2 ^ 31) (free : Bool) {fin : Bool}
    (piece : Piece start stream seq data)
    (atEnd : fin → finSeq = Serial.offset start stream.length) :
    StreamInv start stream delivered (sock.deliverPayload free fin finSeq seq data) := by
  -- Recording the FIN only when the flag is set is needed on both branches.
  have recorded : ∀ {sock : TcpSocket}, StreamInv start stream delivered sock →
      StreamInv start stream delivered (if fin then sock.recordFin finSeq else sock) := by
    intro sock inv
    split
    · rename_i set
      exact inv.recordFin small (atEnd set)
    · exact inv
  unfold TcpSocket.deliverPayload
  split
  · exact recorded (inv.storeOoo free piece)
  rename_i here
  rw [not_not] at here
  have taken := inv.appendRx small (here ▸ piece)
  unfold TcpSocket.deliverInOrder
  dsimp only
  split
  · have drained := drainFor small (2 * tcpOooEntries + 2) taken
    exact ((recorded drained).acceptPendingFin small).deliverFin small atEnd
  · exact taken.deliverFin small atEnd

end StreamInv

/-- A segment of the stream: its payload is a piece, and a FIN comes at the end only. A
segment with neither payload nor FIN may carry any sequence number. -/
def Agrees (start : UInt32) (stream : List UInt8) (seg : TcpSegment) : Prop :=
  (seg.payload = [] ∧ seg.flags.fin = false) ∨
    (Piece start stream seg.seq seg.payload ∧
      (seg.flags.fin = true →
        seg.seq + UInt32.ofNat seg.payload.length = Serial.offset start stream.length))

namespace StreamInv

variable {start : UInt32} {stream delivered : List UInt8} {sock : TcpSocket}

section

variable (inv : StreamInv start stream delivered sock) (small : stream.length < 2 ^ 31)
  (free : Bool) {seg : TcpSegment} (agrees : Agrees start stream seg)
include inv small free agrees

/-- Payload and FIN of a segment of the stream keep the invariant. -/
theorem deliverData : StreamInv start stream delivered (sock.deliverData free seg) := by
  unfold TcpSocket.deliverData
  rcases agrees with ⟨empty, noFin⟩ | ⟨piece, atEnd⟩
  · simp only [empty, noFin, length_nil, ne_eq, not_true_eq_false, ↓reduceIte,
      TcpSocket.deliverFin, Bool.false_eq_true]
    exact inv
  dsimp only
  split
  · split
    · split
      · exact inv
      rename_i rest
      -- Cutting off what lies below the next expected number leaves a piece there.
      have cut := piece.drop (Nat.le_of_not_le rest)
      have place : seg.seq + UInt32.ofNat (sock.ack - seg.seq).toNat = sock.ack := by
        rw [UInt32.ofNat_toNat, UInt32.add_comm, UInt32.sub_add_cancel]
      rw [place] at cut
      exact inv.deliverPayload small free cut atEnd
    · exact inv.deliverPayload small free piece atEnd
  · exact inv.deliverFin small atEnd

/-- A segment of the stream, with any other flags, keeps the invariant. -/
theorem deliverToFile : StreamInv start stream delivered (sock.deliverToFile free seg) := by
  -- A change of state and error alone does not touch the receive side.
  have restated : ∀ (state : TcpState) (error : Nat), state ≠ .synSent →
      StreamInv start stream delivered { sock with state, error } := fun state error other =>
    ⟨other, inv.received, inv.expected, inv.complete, inv.pending, inv.stored⟩
  unfold TcpSocket.deliverToFile
  split
  · rename_i handshake
    exact absurd handshake.1 inv.started
  split
  · exact restated _ sock.error (by decide)
  split
  · split
    · exact inv
    · exact restated _ _ (by decide)
  split
  · exact inv
  · split
    · exact inv
    · exact inv.deliverData small free agrees

end

/-- What a read can do: consume nothing, or hand on a front part of the readable bytes. -/
theorem readWith_cases (copied : Bool) (flags : UInt32) :
    ((sock.readWith copied len flags).2.2 = sock ∧
      (flags &&& msgPeek ≠ 0 ∨ (sock.readWith copied len flags).2.1 = [])) ∨
    (¬ flags &&& msgPeek ≠ 0 ∧ ∃ n : Nat, sock.readWith copied len flags =
      ((n : Int), sock.rxBytes.take n, { sock with rx := some (sock.rxBytes.drop n) })) := by
  unfold readWith
  by_cases empty : sock.rxBytes.length = 0
  · rw [if_pos empty]
    by_cases failed : sock.error ≠ 0
    · rw [if_pos failed]
      exact .inl ⟨rfl, .inr rfl⟩
    · rw [if_neg failed]
      exact .inl ⟨rfl, .inr rfl⟩
  · rw [if_neg empty]
    by_cases refused : copied = false
    · rw [if_pos refused]
      exact .inl ⟨rfl, .inr rfl⟩
    rw [if_neg refused]
    by_cases peek : flags &&& msgPeek ≠ 0
    · rw [if_pos peek]
      exact .inl ⟨rfl, .inl peek⟩
    · rw [if_neg peek]
      exact .inr ⟨peek, _, rfl⟩

/-- A read that consumes bytes hands them on in order; a peek or a failed copy consumes
nothing. -/
theorem readWith (inv : StreamInv start stream delivered sock) (copied : Bool) (len : Nat)
    (flags : UInt32) :
    StreamInv start stream
      (delivered ++ if flags &&& msgPeek ≠ 0 then [] else (sock.readWith copied len flags).2.1)
      (sock.readWith copied len flags).2.2 := by
  rcases readWith_cases copied flags with ⟨same, peek | nothing⟩ | ⟨takes, n, taken⟩
  · rw [same, if_pos peek, append_nil]
    exact inv
  · rw [same, nothing, ite_self, append_nil]
    exact inv
  rw [taken, if_neg takes]
  have whole : (delivered ++ sock.rxBytes.take n) ++ sock.rxBytes.drop n =
      delivered ++ sock.rxBytes := by
    rw [append_assoc, take_append_drop]
  refine ⟨inv.started, ?_, ?_, ?_, inv.pending, inv.stored⟩
  · change (delivered ++ sock.rxBytes.take n) ++ sock.rxBytes.drop n <+: stream
    rw [whole]
    exact inv.received
  · change sock.ack = Serial.offset start
      (((delivered ++ sock.rxBytes.take n) ++ sock.rxBytes.drop n).length + _)
    rw [whole]
    exact inv.expected
  · change sock.fin = true → (delivered ++ sock.rxBytes.take n) ++ sock.rxBytes.drop n = stream
    rw [whole]
    exact inv.complete

end StreamInv

/-! ## Runs -/

/-- One call on the socket. -/
inductive TcpCall where
  /-- A segment arrives; `free` says whether the out-of-order pool has a slot. -/
  | segment (seg : TcpSegment) (free : Bool)
  /-- A read into user memory; `copied` says whether the copy succeeds. -/
  | readToDomain (len : Nat) (flags : UInt32) (copied : Bool)
  /-- A read into a kernel buffer. -/
  | readToKernel (len : Nat) (flags : UInt32)

/-- The socket and the bytes its readers have consumed. -/
structure TcpRun where
  /-- Bytes consumed by reads, in order. -/
  delivered : List UInt8
  /-- The socket. -/
  sock : TcpSocket

/-- Make one call. -/
def TcpRun.step (run : TcpRun) : TcpCall → TcpRun
  | .segment seg free => { run with sock := run.sock.deliverToFile free seg }
  | .readToDomain len flags copied =>
    let (_, bytes, sock) := run.sock.readToDomainFlags copied len flags
    ⟨run.delivered ++ if flags &&& msgPeek ≠ 0 then [] else bytes, sock⟩
  | .readToKernel len flags =>
    let (_, bytes, sock) := run.sock.readToKernel len flags
    ⟨run.delivered ++ if flags &&& msgPeek ≠ 0 then [] else bytes, sock⟩

/-- Make calls one after another. -/
def TcpRun.steps (run : TcpRun) (calls : List TcpCall) : TcpRun := calls.foldl TcpRun.step run

/-- A call whose segment, if it is one, belongs to the stream. -/
def TcpCall.Agrees (start : UInt32) (stream : List UInt8) : TcpCall → Prop
  | .segment seg _ => Net.Agrees start stream seg
  | _ => True

/-- One call keeps the invariant. -/
theorem TcpRun.step_inv {start : UInt32} {stream : List UInt8} (small : stream.length < 2 ^ 31)
    {run : TcpRun} {call : TcpCall} (agrees : call.Agrees start stream)
    (inv : StreamInv start stream run.delivered run.sock) :
    StreamInv start stream (run.step call).delivered (run.step call).sock := by
  cases call with
  | segment seg free => exact inv.deliverToFile small free agrees
  | readToDomain len flags copied => exact inv.readWith copied len flags
  | readToKernel len flags => exact inv.readWith true len flags

/-- Every run keeps the invariant. -/
theorem TcpRun.steps_inv {start : UInt32} {stream : List UInt8}
    (small : stream.length < 2 ^ 31) (calls : List TcpCall) : ∀ (run : TcpRun),
    (∀ call ∈ calls, call.Agrees start stream) → StreamInv start stream run.delivered run.sock →
    StreamInv start stream (run.steps calls).delivered (run.steps calls).sock := by
  induction calls with
  | nil => exact fun _ _ inv => inv
  | cons call rest ih =>
    intro run agrees inv
    exact ih _ (fun other member => agrees other (mem_cons_of_mem _ member))
      (step_inv small (agrees call mem_cons_self) inv)

/-- A socket past its handshake that has received nothing yet. -/
structure Fresh (sock : TcpSocket) : Prop where
  /-- The first expected number is fixed. -/
  started : sock.state ≠ .synSent
  /-- Nothing was received. -/
  empty : sock.rxBytes = []
  /-- There was no FIN. -/
  noFin : sock.fin = false
  /-- None is pending. -/
  notPending : sock.finPending = false
  /-- No out-of-order piece is stored. -/
  noOoo : ∀ ooo, sock.ooo = some ooo → ∀ entry ∈ ooo.entries, entry.used = false

/-- A fresh socket satisfies the invariant for every stream. -/
theorem Fresh.inv {sock : TcpSocket} (fresh : Fresh sock) (stream : List UInt8) :
    StreamInv sock.ack stream [] sock where
  started := fresh.started
  received := by simp [fresh.empty]
  expected := by simp [fresh.empty, fresh.noFin, Serial.offset_zero]
  complete fin := absurd (fresh.noFin.symm.trans fin) (by decide)
  pending waiting := absurd (fresh.notPending.symm.trans waiting) (by decide)
  stored ooo held entry member used :=
    absurd ((fresh.noOoo ooo held entry member).symm.trans used) (by decide)

/-- For every stream shorter than 2^31 bytes that starts at the next expected number, and
every run of segments of that stream and reads, the delivered bytes followed by the readable
ones are a prefix of the stream, the next expected number is the start plus its length, one
more exactly when the FIN was accepted, and the FIN is accepted only with the whole stream. -/
theorem tcp_received_prefix (sock : TcpSocket) (fresh : Fresh sock) (stream : List UInt8)
    (small : stream.length < 2 ^ 31) (calls : List TcpCall)
    (agrees : ∀ call ∈ calls, call.Agrees sock.ack stream) :
    let run := TcpRun.steps ⟨[], sock⟩ calls
    run.delivered ++ run.sock.rxBytes <+: stream ∧
      run.sock.ack = sock.ack + UInt32.ofNat (run.delivered ++ run.sock.rxBytes).length +
        (if run.sock.fin then 1 else 0) ∧
      (run.sock.fin = true → run.delivered ++ run.sock.rxBytes = stream) := by
  have inv := TcpRun.steps_inv small calls ⟨[], sock⟩ agrees (fresh.inv stream)
  refine ⟨inv.received, ?_, inv.complete⟩
  rw [inv.expected, Serial.offset_add, Serial.offset]
  cases (TcpRun.steps ⟨[], sock⟩ calls).sock.fin <;> rfl

/-- A socket that expects the last sequence number of the ring next. -/
def wrapSocket : TcpSocket where
  state := .established
  seq := 7
  ack := 0xffffffff
  rx := some []
  ooo := none
  fin := false
  finPending := false
  finSeq := 0
  error := 0
  soRcvbuf := 0

/-- The end of a four-byte stream arrives with its FIN before the beginning does, and a read
takes two bytes: two are delivered, two remain, and the FIN has been accepted across the
wrapped sequence number. -/
theorem tcp_received_prefix_wrap :
    let calls : List TcpCall :=
      [.segment ⟨1, 7, ⟨true, false, false, true⟩, [30, 40]⟩ true,
        .segment ⟨0xffffffff, 7, ⟨false, false, false, true⟩, [10, 20]⟩ true,
        .readToDomain 2 0 true]
    let run := TcpRun.steps ⟨[], wrapSocket⟩ calls
    (run.delivered = [10, 20] ∧ run.sock.rxBytes = [30, 40] ∧ run.sock.fin = true ∧
      run.sock.ack = 4) ∧
    (run.delivered ++ run.sock.rxBytes <+: [10, 20, 30, 40] ∧
      run.sock.ack = wrapSocket.ack +
        UInt32.ofNat (run.delivered ++ run.sock.rxBytes).length +
        (if run.sock.fin then 1 else 0) ∧
      (run.sock.fin = true → run.delivered ++ run.sock.rxBytes = [10, 20, 30, 40])) := by
  refine ⟨by decide, tcp_received_prefix wrapSocket ?_ [10, 20, 30, 40] (by decide) _ ?_⟩
  · exact ⟨by decide, rfl, rfl, rfl, fun _ held => by contradiction⟩
  intro call member
  rcases mem_cons.mp member with rfl | member
  · exact .inr ⟨⟨[10, 20], [], rfl, by decide⟩, fun _ => by decide⟩
  rcases mem_cons.mp member with rfl | member
  · exact .inr ⟨⟨[], [30, 40], rfl, by decide⟩, fun fin => by contradiction⟩
  · rw [mem_singleton.mp member]
    trivial

end Spore.Net
