import LogGuardian.Lib.Machine
import LogGuardian.Lib.Ring

/-!
# The queue of the SIEM forwarder

Producers and the thread take turns under the mutex, so a run is a list of atomic actions. The
lists `accepted` and `sent` are history: what came in, and what `siem_send_event` was called with.
-/

namespace LogGuardian

open List

def siemQueueSize : ℕ := 4096

/-- The ring with its indices. -/
structure SiemQueue (Event : Type) where
  slots : ℕ → Event
  head : ℕ := 0
  tail : ℕ := 0
  count : ℕ := 0
  running : Bool := true
  accepted : List Event := []
  sent : List Event := []

inductive SiemAction (Event : Type) where
  | enqueue (event : Event)
  | dequeue
  | stop

variable {Event : Type}

def siemEnqueueEvent (queue : SiemQueue Event) (event : Event) : SiemQueue Event :=
  if queue.count < siemQueueSize then
    { queue with
      slots := Function.update queue.slots queue.head event
      head := (queue.head + 1) % siemQueueSize
      count := queue.count + 1
      accepted := queue.accepted ++ [event] }
  else queue

/-- The dequeue section of `siem_thread_func`, which waits while the ring is empty. -/
def siemDequeue (queue : SiemQueue Event) : SiemQueue Event :=
  if queue.count = 0 ∨ ¬queue.running then queue
  else
    { queue with
      tail := (queue.tail + 1) % siemQueueSize
      count := queue.count - 1
      sent := queue.sent ++ [queue.slots queue.tail] }

def SiemQueue.step (queue : SiemQueue Event) : SiemAction Event → SiemQueue Event
  | .enqueue event => siemEnqueueEvent queue event
  | .dequeue => siemDequeue queue
  | .stop => { queue with running := false }

def SiemQueue.pending (queue : SiemQueue Event) : List Event :=
  (range queue.count).map fun k => Ring.get siemQueueSize queue.slots (queue.tail + k)

structure SiemQueue.BoundedFifo (queue : SiemQueue Event) : Prop where
  bounded : queue.count ≤ siemQueueSize
  headBelow : queue.head < siemQueueSize
  tailBelow : queue.tail < siemQueueSize
  aligned : queue.head = (queue.tail + queue.count) % siemQueueSize
  ordered : queue.accepted = queue.sent ++ queue.pending

theorem SiemQueue.BoundedFifo.enqueue {queue : SiemQueue Event} (fifo : queue.BoundedFifo) (event : Event) :
    (siemEnqueueEvent queue event).BoundedFifo := by
  unfold siemEnqueueEvent
  split
  case isFalse => exact fifo
  case isTrue room =>
  refine ⟨room, Nat.mod_lt _ (by decide), fifo.tailBelow, ?_, ?_⟩
  · dsimp only
    rw [fifo.aligned, Nat.mod_add_mod, Nat.add_assoc]
  · dsimp only [SiemQueue.pending]
    rw [fifo.aligned, range_succ, map_append, map_singleton, fifo.ordered, append_assoc]
    change _ ++ (_ ++ _) = _ ++ (map (fun k => Ring.get siemQueueSize
      (Ring.put siemQueueSize queue.slots (queue.tail + queue.count) event) (queue.tail + k)) _ ++
      [Ring.get siemQueueSize (Ring.put siemQueueSize queue.slots (queue.tail + queue.count) event) _])
    rw [Ring.get_put_self, SiemQueue.pending]
    congr 2
    apply map_congr_left
    intro k inRange
    have before := mem_range.mp inRange
    rw [Ring.get_put_of_lt (by omega) (by omega)]

theorem SiemQueue.BoundedFifo.dequeue {queue : SiemQueue Event} (fifo : queue.BoundedFifo) :
    (siemDequeue queue).BoundedFifo := by
  unfold siemDequeue
  split
  case isTrue => exact fifo
  case isFalse waiting =>
  rcases counted : queue.count with _ | rest
  · exact absurd (.inl counted) waiting
  have bounded := fifo.bounded
  refine ⟨by dsimp only; omega, fifo.headBelow, Nat.mod_lt _ (by decide), ?_, ?_⟩
  · dsimp only
    rw [fifo.aligned, counted, Nat.mod_add_mod]
    congr 1
    omega
  · have first : Ring.get siemQueueSize queue.slots queue.tail = queue.slots queue.tail := by
      rw [Ring.get, Nat.mod_eq_of_lt fifo.tailBelow]
    rw [fifo.ordered, append_assoc, singleton_append, SiemQueue.pending, counted, range_succ_eq_map,
      map_cons, Nat.add_zero, first, map_map]
    congr 2
    apply map_congr_left
    intro k _
    simp only [Function.comp_apply, Ring.get, Nat.mod_add_mod]
    congr 2
    omega

theorem SiemQueue.BoundedFifo.step {queue : SiemQueue Event} (fifo : queue.BoundedFifo) :
    ∀ action, (queue.step action).BoundedFifo
  | .enqueue event => fifo.enqueue event
  | .dequeue => fifo.dequeue
  | .stop => ⟨fifo.bounded, fifo.headBelow, fifo.tailBelow, fifo.aligned, fifo.ordered⟩

theorem SiemQueue.BoundedFifo.dequeue_pending {queue : SiemQueue Event} (fifo : queue.BoundedFifo)
    {event : Event} {rest : List Event} (running : queue.running = true)
    (waiting : queue.pending = event :: rest) :
    (siemDequeue queue).sent = queue.sent ++ [event] ∧ (siemDequeue queue).pending = rest ∧
      (siemDequeue queue).count + 1 = queue.count := by
  have counted : queue.count ≠ 0 := by
    intro empty
    simp [SiemQueue.pending, empty] at waiting
  have unfolded : siemDequeue queue =
      { queue with
        tail := (queue.tail + 1) % siemQueueSize
        count := queue.count - 1
        sent := queue.sent ++ [queue.slots queue.tail] } := by
    simp [siemDequeue, counted, running]
  -- The accepted events are the same before and after, so the first pending one is the one sent.
  have kept : (siemDequeue queue).accepted = queue.accepted := by rw [unfolded]
  rw [fifo.dequeue.ordered, fifo.ordered, waiting, unfolded, append_assoc] at kept
  have same := append_cancel_left kept
  rw [singleton_append, cons.injEq] at same
  rw [unfolded]
  exact ⟨congrArg (queue.sent ++ [·]) same.1, same.2, Nat.succ_pred_eq_of_ne_zero counted⟩

/-- After any interleaving the ring is a bounded FIFO and the sent events are the first accepted ones;
the next event is rejected exactly if 4096 events are pending, and the next turn of the running thread
sends the first pending event, which is pending no longer. -/
theorem siemQueue_run (slots : ℕ → Event) (actions : List (SiemAction Event)) :
    let queue := Machine.run SiemQueue.step { slots } actions
    queue.BoundedFifo ∧ queue.sent <+: queue.accepted ∧
      (∀ event, (queue.step (.enqueue event)).accepted =
        if queue.pending.length = siemQueueSize then queue.accepted else queue.accepted ++ [event]) ∧
      ∀ event rest, queue.running = true → queue.pending = event :: rest →
        (queue.step .dequeue).sent = queue.sent ++ [event] ∧
          (queue.step .dequeue).pending = rest ∧ (queue.step .dequeue).count + 1 = queue.count := by
  intro queue
  have fifo : queue.BoundedFifo :=
    Machine.run_invariant SiemQueue.BoundedFifo (fun _ action before => before.step action)
      ⟨Nat.zero_le _, Nat.succ_pos 4095, Nat.succ_pos 4095, rfl, rfl⟩ actions
  refine ⟨fifo, fifo.ordered ▸ prefix_append _ _, fun event => ?_,
    fun event rest => fifo.dequeue_pending⟩
  have bounded := fifo.bounded
  rw [SiemQueue.step, siemEnqueueEvent, SiemQueue.pending, length_map, length_range]
  split_ifs with room full full
  · omega
  · rfl
  · rfl
  · omega

end LogGuardian
