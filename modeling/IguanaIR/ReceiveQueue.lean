import IguanaIR.DataPacket
import IguanaIR.LinkedList
import IguanaIR.Transition

/-! # The queue of received packets

The reader thread puts the packets that the device sends by itself into `recvList` and writes a
byte to `readerPipe` for each (`queueDataPacket` of `device-interface.c`).  The worker reads a byte
and then removes a packet (`handleReader` of `client-interface.c`).  The list is the linked list of
`list.c` at the addresses `ι`, and every order of the two threads' steps is a run of `queueStep`. -/

namespace IguanaIR

inductive Worker where
  | waiting
  /-- In `handleReader`, with a byte of `readerPipe`. -/
  | notified
  /-- `readPipe` failed. -/
  | stopped
  /-- The worker used a null pointer, or a packet that is not there. -/
  | faulted
deriving DecidableEq, Repr

structure ReceiveQueue (ι : Type) where
  memory : Memory ι Unit
  /-- The packets that are allocated. -/
  packets : ι → Option DataPacket
  /-- The bytes in `readerPipe`. -/
  unread : ℕ
  worker : Worker

inductive QueueEvent (ι : Type) where
  /-- A call of `queueDataPacket`, and whether `notify` succeeded. -/
  | queueDataPacket (item : ι) (current : DataPacket) (sent : Bool)
  /-- The first step of `handleReader`, and whether a byte was read. -/
  | readPipe (success : Bool)
  /-- The second step. -/
  | removeNextPacket
deriving DecidableEq, Repr

variable {ι : Type}

/-- The packet that is queued. -/
def QueueEvent.packet : QueueEvent ι → Option DataPacket
  | .queueDataPacket _ current _ => some current
  | .readPipe _ | .removeNextPacket => none

/-- Does the pipe miss the byte of a packet? -/
def QueueEvent.missed : QueueEvent ι → Bool
  | .queueDataPacket _ _ sent => !sent
  | .readPipe _ | .removeNextPacket => false

namespace ReceiveQueue

/-- An empty list, and an empty pipe. -/
def start (items : ι → ItemHeader ι Unit) : ReceiveQueue ι :=
  ⟨⟨items, fun _ => ⟨none, none, 0⟩⟩, fun _ => none, 0, .waiting⟩

variable [DecidableEq ι]

/-- `removeNextPacket` and the use of what it returns, up to `freeDataPacket`. -/
def removeNextPacket (q : ReceiveQueue ι) : ReceiveQueue ι × Option DataPacket :=
  match q.memory.removeFirstItem () with
  | some (memory, some item) =>
      match q.packets item with
      | some packet =>
          (⟨memory, Function.update q.packets item none, q.unread, .waiting⟩, some packet)
      | none => ({ q with worker := .faulted }, none)
  | some (_, none) | none => ({ q with worker := .faulted }, none)

end ReceiveQueue

variable [DecidableEq ι]

/-- A step of a thread, and the packet that the worker handles in it.  The block of a new packet
is one that is not allocated. -/
def queueStep (q : ReceiveQueue ι) : QueueEvent ι → Option (ReceiveQueue ι × Option DataPacket)
  | .queueDataPacket item current sent =>
      if (q.packets item).isSome then none
      else some ({ q with
        memory := q.memory.insertItem () none item
        packets := Function.update q.packets item (some current)
        unread := if sent then q.unread + 1 else q.unread }, none)
  | .readPipe success =>
      if q.worker = .waiting then
        if success then
          if q.unread = 0 then none
          else some ({ q with unread := q.unread - 1, worker := .notified }, none)
        else some ({ q with worker := .stopped }, none)
      else none
  | .removeNextPacket => if q.worker = .notified then some q.removeNextPacket else none

/-! ### The list against the pipe -/

/-- The bytes that the worker has read and not used. -/
def ReceiveQueue.taken (q : ReceiveQueue ι) : ℕ := if q.worker = .notified then 1 else 0

/-- The list holds the blocks of `waiting`, and all but `missed` of them have a byte in the pipe or
with the worker. -/
structure Queues (q : ReceiveQueue ι) (items : List ι) (waiting : List DataPacket) (missed : ℕ) :
    Prop where
  list : q.memory.Holds () items
  contents : items.map q.packets = waiting.map some
  bytes : q.unread + q.taken + missed = items.length
  sound : q.worker ≠ .faulted

namespace Queues

variable {q : ReceiveQueue ι} {items : List ι} {waiting : List DataPacket} {missed : ℕ}

omit [DecidableEq ι] in
theorem start (headers : ι → ItemHeader ι Unit) : Queues (.start headers) [] [] 0 where
  list := ⟨List.nodup_nil, ⟨rfl, trivial⟩, ⟨rfl, trivial⟩, rfl⟩
  contents := rfl
  bytes := rfl
  sound := nofun

/-- What is written to one block changes no other. -/
theorem map_update {item : ι} (h : item ∉ items) (packet : Option DataPacket) :
    items.map (Function.update q.packets item packet) = items.map q.packets := by
  apply List.map_congr_left
  intro x hx
  have hne : x ≠ item := fun heq => h (heq ▸ hx)
  exact Function.update_of_ne hne ..

/-- A packet is queued in a block that was not allocated. -/
theorem queue (h : Queues q items waiting missed) {item : ι} (hfree : q.packets item = none)
    (current : DataPacket) (sent : Bool) :
    Queues { q with
        memory := q.memory.insertItem () none item
        packets := Function.update q.packets item (some current)
        unread := if sent then q.unread + 1 else q.unread }
      (items ++ [item]) (waiting ++ [current]) (if !sent then missed + 1 else missed) := by
  have hitem : item ∉ items := by
    intro hmem
    have hsome : none ∈ items.map q.packets := List.mem_map.mpr ⟨item, hmem, hfree⟩
    rw [h.contents] at hsome
    obtain ⟨_, -, hnone⟩ := List.mem_map.mp hsome
    cases hnone
  refine ⟨Memory.insertItem_last h.list hitem, ?_, ?_, h.sound⟩
  · change (items ++ [item]).map (Function.update q.packets item (some current)) = _
    rw [List.map_append, List.map_append, map_update hitem, h.contents, List.map_singleton,
      Function.update_self]
    rfl
  · have hbytes := h.bytes
    rw [List.length_append, List.length_singleton, ← hbytes]
    change (if sent then q.unread + 1 else q.unread) + q.taken + _ = _
    cases sent <;> simp <;> omega

omit [DecidableEq ι] in
/-- The worker reads a byte. -/
theorem take (h : Queues q items waiting missed) (hworker : q.worker = .waiting)
    (hunread : q.unread ≠ 0) :
    Queues { q with unread := q.unread - 1, worker := .notified } items waiting missed := by
  refine ⟨h.list, h.contents, ?_, nofun⟩
  have hbytes := h.bytes
  have htaken : q.taken = 0 := by rw [ReceiveQueue.taken, hworker, if_neg (by decide)]
  rw [htaken] at hbytes
  change q.unread - 1 + 1 + missed = _
  omega

/-- A worker with a byte removes the first packet that waits. -/
theorem remove (h : Queues q items waiting missed) (hworker : q.worker = .notified) :
    ∃ q' item items' packet waiting', q.removeNextPacket = (q', some packet) ∧
      items = item :: items' ∧ waiting = packet :: waiting' ∧ Queues q' items' waiting' missed := by
  have hbytes := h.bytes
  have htaken : q.taken = 1 := if_pos hworker
  rw [htaken] at hbytes
  cases items with
  | nil =>
      rw [List.length_nil] at hbytes
      omega
  | cons item items =>
      obtain ⟨memory, hremove, hlist, -⟩ := Memory.removeFirstItem_cons h.list
      have hcontents := h.contents
      cases waiting with
      | nil => cases hcontents
      | cons packet waiting =>
          obtain ⟨hpacket, hrest⟩ := List.cons.inj hcontents
          have hnodup := List.nodup_cons.mp h.list.nodup
          refine ⟨⟨memory, Function.update q.packets item none, q.unread, .waiting⟩, item, items,
            packet, waiting, ?_, rfl, rfl, hlist, ?_, ?_, nofun⟩
          · simp only [ReceiveQueue.removeNextPacket, hremove, hpacket]
          · exact (map_update hnodup.1 none).trans hrest
          · rw [List.length_cons] at hbytes
            change q.unread + 0 + missed = _
            omega

end Queues

/-- **A step** queues a packet behind those that wait, or handles the first of them. -/
theorem queueStep_queues {q q' : ReceiveQueue ι} {e : QueueEvent ι} {o : Option DataPacket}
    {items : List ι} {waiting : List DataPacket} {missed : ℕ} (h : Queues q items waiting missed)
    (hstep : queueStep q e = some (q', o)) :
    ∃ items' waiting', Queues q' items' waiting' (if e.missed then missed + 1 else missed) ∧
      waiting ++ e.packet.toList = o.toList ++ waiting' := by
  cases e with
  | queueDataPacket item current sent =>
      rw [queueStep] at hstep
      cases hfree : q.packets item with
      | some packet => simp [hfree] at hstep
      | none =>
          rw [hfree, if_neg (by decide)] at hstep
          obtain ⟨rfl, rfl⟩ := Prod.mk.inj (Option.some.inj hstep)
          exact ⟨items ++ [item], waiting ++ [current], h.queue hfree current sent, rfl⟩
  | readPipe success =>
      rw [queueStep] at hstep
      split_ifs at hstep with hworker hsuccess hunread
      · obtain ⟨rfl, rfl⟩ := Prod.mk.inj (Option.some.inj hstep)
        exact ⟨items, waiting, h.take hworker hunread, List.append_nil _⟩
      · obtain ⟨rfl, rfl⟩ := Prod.mk.inj (Option.some.inj hstep)
        refine ⟨items, waiting, ⟨h.list, h.contents, ?_, nofun⟩, List.append_nil _⟩
        have hbytes := h.bytes
        have htaken : q.taken = 0 := by rw [ReceiveQueue.taken, hworker, if_neg (by decide)]
        rw [htaken] at hbytes
        exact hbytes
  | removeNextPacket =>
      rw [queueStep] at hstep
      split_ifs at hstep with hworker
      obtain ⟨q₁, item, items', packet, waiting', hremove, rfl, rfl, hq⟩ := h.remove hworker
      rw [hremove] at hstep
      obtain ⟨rfl, rfl⟩ := Prod.mk.inj (Option.some.inj hstep)
      exact ⟨items', waiting', hq, List.append_nil _⟩

theorem run_queues {es : List (QueueEvent ι)} {q q' : ReceiveQueue ι}
    {os : List (Option DataPacket)} {items : List ι} {waiting : List DataPacket} {missed : ℕ}
    (h : Queues q items waiting missed) (hrun : Transition.run queueStep q es = some (q', os)) :
    ∃ items' waiting', Queues q' items' waiting' (missed + es.countP QueueEvent.missed) ∧
      waiting ++ es.filterMap QueueEvent.packet = os.reduceOption ++ waiting' := by
  induction es generalizing q os items waiting missed with
  | nil =>
      obtain ⟨rfl, rfl⟩ := Prod.mk.inj (Option.some.inj hrun)
      exact ⟨items, waiting, h, List.append_nil _⟩
  | cons e es ih =>
      obtain ⟨q₁, o, os, hstep, hrest, rfl⟩ := Transition.run_cons hrun
      obtain ⟨items₁, waiting₁, h₁, horder₁⟩ := queueStep_queues h hstep
      obtain ⟨items', waiting', h', horder'⟩ := ih h₁ hrest
      refine ⟨items', waiting', ?_, ?_⟩
      · rw [List.countP_cons, Nat.add_comm (es.countP _)]
        cases hmissed : e.missed with
        | false =>
            rw [hmissed] at h'
            simpa using h'
        | true =>
            rw [hmissed, if_pos rfl, Nat.add_assoc] at h'
            simpa using h'
      · have hpackets : (e :: es).filterMap QueueEvent.packet =
            e.packet.toList ++ es.filterMap QueueEvent.packet := by
          cases hpacket : e.packet <;> simp [hpacket]
        have houtputs : (o :: os).reduceOption = o.toList ++ os.reduceOption := by
          cases o <;> rfl
        calc
          waiting ++ (e :: es).filterMap QueueEvent.packet
          _ = (waiting ++ e.packet.toList) ++ es.filterMap QueueEvent.packet := by
            rw [hpackets, List.append_assoc]
          _ = o.toList ++ (waiting₁ ++ es.filterMap QueueEvent.packet) := by
            rw [horder₁, List.append_assoc]
          _ = (o :: os).reduceOption ++ waiting' := by
            rw [horder', houtputs, List.append_assoc]

/-- **Received packets** are handled as they were queued, whatever the order of the steps of the
reader and the worker: the worker finds a packet for every byte, and those it has not handled yet
are in the list, of which only the packets without a byte can stay behind. -/
theorem packets_handled_in_order {headers : ι → ItemHeader ι Unit} {es : List (QueueEvent ι)}
    {q : ReceiveQueue ι} {os : List (Option DataPacket)}
    (hrun : Transition.run queueStep (.start headers) es = some (q, os)) :
    ∃ items waiting, q.memory.Holds () items ∧ items.map q.packets = waiting.map some ∧
      q.unread ≤ items.length ∧ q.worker ≠ .faulted ∧
      (q.worker = .notified → ∃ q' packet, queueStep q .removeNextPacket = some (q', some packet)) ∧
      es.filterMap QueueEvent.packet = os.reduceOption ++ waiting ∧
      q.unread + q.taken + es.countP QueueEvent.missed = items.length := by
  obtain ⟨items, waiting, h, horder⟩ := run_queues (Queues.start headers) hrun
  have hbytes := h.bytes
  rw [Nat.zero_add] at hbytes
  refine ⟨items, waiting, h.list, h.contents, by omega, h.sound, ?_, horder, hbytes⟩
  intro hworker
  obtain ⟨q', item, items', packet, waiting', hremove, -⟩ := h.remove hworker
  refine ⟨q', packet, ?_⟩
  rw [queueStep, if_pos hworker, hremove]

/-- The second packet is queued between the two steps in which the worker takes the first. -/
theorem packets_handled_in_order_two : ∃ q items waiting,
    Transition.run queueStep (.start fun _ : Bool => ⟨none, none, none⟩)
      [.queueDataPacket true ⟨IG_DEV_RECV, 1, some [0x85]⟩ true, .readPipe true,
        .queueDataPacket false ⟨IG_DEV_OVERRECV, 0, none⟩ true, .removeNextPacket,
        .readPipe true] =
      some (q, [none, none, none, some ⟨IG_DEV_RECV, 1, some [0x85]⟩, none]) ∧
    q.memory.Holds () items ∧ items.map q.packets = waiting.map some ∧
      q.unread ≤ items.length ∧ q.worker ≠ .faulted ∧
      (q.worker = .notified → ∃ q' packet, queueStep q .removeNextPacket = some (q', some packet)) ∧
      [⟨IG_DEV_RECV, 1, some [0x85]⟩, ⟨IG_DEV_OVERRECV, 0, none⟩] =
        [⟨IG_DEV_RECV, 1, some [0x85]⟩] ++ waiting ∧ q.unread + q.taken + 0 = items.length := by
  obtain ⟨q, hrun⟩ : ∃ q, Transition.run queueStep (.start fun _ : Bool => ⟨none, none, none⟩)
      [.queueDataPacket true ⟨IG_DEV_RECV, 1, some [0x85]⟩ true, .readPipe true,
        .queueDataPacket false ⟨IG_DEV_OVERRECV, 0, none⟩ true, .removeNextPacket,
        .readPipe true] =
      some (q, [none, none, none, some ⟨IG_DEV_RECV, 1, some [0x85]⟩, none]) := ⟨_, rfl⟩
  obtain ⟨items, waiting, h⟩ := packets_handled_in_order hrun
  exact ⟨q, items, waiting, hrun, h⟩

end IguanaIR
