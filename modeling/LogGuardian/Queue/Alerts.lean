import LogGuardian.Lib.Ring
import LogGuardian.Ban.Recorded

/-!
# The alert queue
-/

namespace LogGuardian

open List

universe u

def asyncQueueSize : ℕ := 4096

/-- `DbTask`, which is also the row that is made of it. -/
structure DbTask extends Alert where
  ts : ℤ
  incidentId : Bytes
  ip : Bytes
  totalRequests : ℤ
  error4xx : ℤ
  sqliHits : ℤ
  respSlow : ℤ
  banned : Bool
  deriving DecidableEq, Repr

def DbTask.zero : DbTask := ⟨⟨.info, []⟩, 0, [], [], 0, 0, 0, 0, false⟩

/-- Where a thread stands in `db_enqueue_alert`. -/
inductive EnqueuePc where
  | idle
  | called (task : DbTask)
  | loadedTail (task : DbTask) (tail : ℕ)
  | reserving (task : DbTask)
  | writing (task : DbTask) (index : ℕ)
  deriving DecidableEq, Repr

/-- Where the writer stands in `db_writer_thread_fn`. -/
inductive WriterPc where
  | testing
  | checkingHead
  | checkingTail (head : ℕ)
  | loadingHead
  | loadingTail (head : ℕ)
  | inserting (head tail : ℕ)
  | storing (head tail : ℕ)
  | exited
  deriving DecidableEq, Repr

/-- The queue with its threads. -/
structure AlertQueue (Producer : Type u) where
  head : ℕ := 0
  tail : ℕ := 0
  ready : Bool := true
  running : Bool := true
  slots : ℕ → DbTask := fun _ => .zero
  producers : Producer → EnqueuePc := fun _ => .idle
  writer : WriterPc := .testing
  calls : List DbTask := []
  dropped : List DbTask := []
  reserved : List DbTask := []
  rows : List DbTask := []

namespace AlertQueue

variable {Producer : Type u}

def write (queue : AlertQueue Producer) : AlertQueue Producer :=
  match queue.writer with
  | .testing => { queue with writer := if queue.running then .loadingHead else .checkingHead }
  | .checkingHead => { queue with writer := .checkingTail queue.head }
  | .checkingTail head =>
    { queue with writer := if head = queue.tail then .exited else .loadingHead }
  | .loadingHead => { queue with writer := .loadingTail queue.head }
  | .loadingTail head =>
    { queue with writer := if head = queue.tail then .testing else .inserting head queue.tail }
  | .inserting head tail =>
    { queue with
      rows := queue.rows ++ [Ring.get asyncQueueSize queue.slots head]
      writer := .storing head tail }
  | .storing head tail =>
    let next := (head + 1) % 2 ^ 32
    { queue with
      head := next
      writer := if next = tail then .testing else .inserting next tail }
  | .exited => queue

variable [DecidableEq Producer]

def moveProducer (queue : AlertQueue Producer) (producer : Producer) (pc : EnqueuePc) :
    AlertQueue Producer :=
  { queue with producers := Function.update queue.producers producer pc }

/-- A thread calls `db_enqueue_alert`, which looks at `g_db_ready` first. -/
def call (queue : AlertQueue Producer) (producer : Producer) (task : DbTask) :
    AlertQueue Producer :=
  match queue.producers producer with
  | .idle =>
    { queue with
      producers := if queue.ready then (queue.moveProducer producer (.called task)).producers
        else queue.producers
      calls := queue.calls ++ [task] }
  | _ => queue

/-- The next access of a thread inside `db_enqueue_alert`. -/
def enqueue (queue : AlertQueue Producer) (producer : Producer) : AlertQueue Producer :=
  match queue.producers producer with
  | .idle => queue
  | .called task => queue.moveProducer producer (.loadedTail task queue.tail)
  | .loadedTail task tail =>
    if asyncQueueSize ≤ (tail + 2 ^ 32 - queue.head) % 2 ^ 32 then
      { queue with
        producers := (queue.moveProducer producer .idle).producers
        dropped := queue.dropped ++ [task] }
    else queue.moveProducer producer (.reserving task)
  | .reserving task =>
    { queue with
      producers := (queue.moveProducer producer (.writing task queue.tail)).producers
      tail := (queue.tail + 1) % 2 ^ 32
      reserved := queue.reserved ++ [task] }
  | .writing task index =>
    { queue with
      producers := (queue.moveProducer producer .idle).producers
      slots := Ring.put asyncQueueSize queue.slots index task }

end AlertQueue

/-- `stop` and `close` are the two halves of `db_close`, around the join with the writer. -/
inductive AlertEvent (Producer : Type u) where
  | call (producer : Producer) (task : DbTask)
  | enqueue (producer : Producer)
  | write
  | stop
  | close
  deriving DecidableEq, Repr

variable {Producer : Type u}

def alertStep [DecidableEq Producer] (queue : AlertQueue Producer) :
    AlertEvent Producer → AlertQueue Producer
  | .call producer task => queue.call producer task
  | .enqueue producer => queue.enqueue producer
  | .write => queue.write
  | .stop => { queue with running := false }
  | .close => if queue.writer = .exited then { queue with ready := false } else queue

/-- No call is under way, and the writer has left or has nothing to do. -/
def Settled (queue : AlertQueue Producer) : Prop :=
  (∀ producer, queue.producers producer = .idle) ∧
    (queue.writer = .exited ∨ queue.head = queue.tail)

/-- The rows are the alerts that were not dropped. -/
def RowsMatchCalls (queue : AlertQueue Producer) : Prop :=
  (queue.rows ++ queue.dropped).Perm queue.calls

def EnqueuePc.writesIndex (index : ℕ) : EnqueuePc → Bool
  | .writing _ own => own = index
  | _ => false

def EnqueuePc.reserves : EnqueuePc → Bool
  | .reserving _ => true
  | _ => false

/-- Calls come while the database is open, an index is reserved only while there is room and the
writer has not left, and a slot is read only after its producer has written it. -/
def OrderlyAlert (queue : AlertQueue Producer) : AlertEvent Producer → Prop
  | .call producer _ => queue.producers producer = .idle → queue.ready = true
  | .enqueue producer => (queue.producers producer).reserves = true →
      (queue.tail + 2 ^ 32 - queue.head) % 2 ^ 32 < asyncQueueSize ∧ queue.writer ≠ .exited
  | .write =>
    match queue.writer with
    | .inserting head _ => ∀ producer, (queue.producers producer).writesIndex head = false
    | _ => True
  | _ => True

instance [Fintype Producer] (queue : AlertQueue Producer) (event : AlertEvent Producer) :
    Decidable (OrderlyAlert queue event) := by
  unfold OrderlyAlert
  split
  · infer_instance
  · infer_instance
  · split <;> infer_instance
  · infer_instance

def EnqueuePc.undecided : EnqueuePc → Multiset DbTask
  | .called task | .loadedTail task _ | .reserving task => {task}
  | .idle | .writing .. => 0

theorem undecided_idle : EnqueuePc.idle.undecided = 0 := rfl

theorem undecided_called (task : DbTask) : (EnqueuePc.called task).undecided = {task} := rfl

theorem undecided_loadedTail (task : DbTask) (tail : ℕ) :
    (EnqueuePc.loadedTail task tail).undecided = {task} := rfl

theorem undecided_reserving (task : DbTask) : (EnqueuePc.reserving task).undecided = {task} := rfl

theorem undecided_writing (task : DbTask) (index : ℕ) :
    (EnqueuePc.writing task index).undecided = 0 := rfl

/-- What holds of the writer at each place, when `stored` rows have been counted in `head`. -/
def WriterOk (queue : AlertQueue Producer) (stored : ℕ) : WriterPc → Prop
  | .testing | .checkingHead | .loadingHead => queue.rows.length = stored
  | .checkingTail head | .loadingTail head => queue.rows.length = stored ∧ head = queue.head
  | .inserting head tail =>
    queue.rows.length = stored ∧ head = queue.head ∧
      ∃ target, tail = target % 2 ^ 32 ∧ stored < target ∧ target ≤ queue.reserved.length
  | .storing head tail =>
    queue.rows.length = stored + 1 ∧ head = queue.head ∧
      ∃ target, tail = target % 2 ^ 32 ∧ stored < target ∧ target ≤ queue.reserved.length
  | .exited => queue.rows.length = stored ∧ stored = queue.reserved.length

structure OrderlyQueue [Fintype Producer] (queue : AlertQueue Producer) (stored : ℕ) : Prop where
  headEq : queue.head = stored % 2 ^ 32
  tailEq : queue.tail = queue.reserved.length % 2 ^ 32
  storedLe : stored ≤ queue.rows.length
  rowsLe : queue.rows.length ≤ queue.reserved.length
  reservedLe : queue.reserved.length ≤ stored + asyncQueueSize
  inOrder : queue.rows <+: queue.reserved
  writer : WriterOk queue stored queue.writer
  written : ∀ index, queue.rows.length ≤ index → index < queue.reserved.length →
    (∃ producer task, queue.producers producer = .writing task (index % 2 ^ 32)) ∨
      queue.reserved[index]? = some (Ring.get asyncQueueSize queue.slots index)
  writing : ∀ producer task own, queue.producers producer = .writing task own →
    ∃ index, queue.rows.length ≤ index ∧ own = index % 2 ^ 32 ∧
      queue.reserved[index]? = some task
  owners : ∀ producer other task otherTask own, queue.producers producer = .writing task own →
    queue.producers other = .writing otherTask own → producer = other
  accounted : (queue.calls : Multiset DbTask) =
    queue.dropped + queue.reserved + ∑ producer, (queue.producers producer).undecided

theorem orderlyQueue_init [Fintype Producer] : OrderlyQueue ({} : AlertQueue Producer) 0 where
  headEq := rfl
  tailEq := rfl
  storedLe := Nat.le_refl _
  rowsLe := Nat.le_refl _
  reservedLe := Nat.zero_le _
  inOrder := prefix_rfl
  writer := rfl
  written index _ below := absurd below (Nat.not_lt_zero index)
  writing producer task own place := by cases place
  owners producer other task otherTask own place := by cases place
  accounted := by simp [EnqueuePc.undecided]

theorem WriterOk.grow {queue after : AlertQueue Producer} {stored : ℕ} {pc : WriterPc}
    (ok : WriterOk queue stored pc) (heads : after.head = queue.head) (rows : after.rows = queue.rows)
    (more : queue.reserved.length ≤ after.reserved.length) (stays : pc ≠ .exited) :
    WriterOk after stored pc := by
  cases pc with
  | testing | checkingHead | loadingHead => exact (congrArg length rows).trans ok
  | checkingTail head | loadingTail head => exact ⟨rows ▸ ok.1, ok.2.trans heads.symm⟩
  | inserting head tail | storing head tail =>
    rcases ok with ⟨counted, current, target, tailEq, below, bounded⟩
    exact ⟨rows ▸ counted, current.trans heads.symm, target, tailEq, below,
      Nat.le_trans bounded more⟩
  | exited => exact absurd rfl stays

section Steps

variable [Fintype Producer] {queue : AlertQueue Producer} {stored : ℕ}

variable {pc : WriterPc} {other producer : Producer} {head tail own : ℕ} {task : DbTask}

theorem OrderlyQueue.writerOk (orderly : OrderlyQueue queue stored) (place : queue.writer = pc) :
    WriterOk queue stored pc := place ▸ orderly.writer

theorem OrderlyQueue.index_unique (orderly : OrderlyQueue queue stored) {index other : ℕ}
    (low : queue.rows.length ≤ index) (high : index ≤ queue.reserved.length)
    (otherLow : queue.rows.length ≤ other) (otherHigh : other ≤ queue.reserved.length)
    (same : index % 2 ^ 32 = other % 2 ^ 32) : index = other := by
  have := orderly.storedLe
  have := orderly.reservedLe
  unfold asyncQueueSize at this
  omega

theorem OrderlyQueue.turn (orderly : OrderlyQueue queue stored) (ok : WriterOk queue stored pc) :
    OrderlyQueue { queue with writer := pc } stored :=
  { orderly with writer := ok }

theorem OrderlyQueue.empty_iff (orderly : OrderlyQueue queue stored) :
    queue.head = queue.tail ↔ stored = queue.reserved.length := by
  have := orderly.storedLe
  have := orderly.rowsLe
  have := orderly.reservedLe
  unfold asyncQueueSize at this
  rw [orderly.headEq, orderly.tailEq]
  omega

theorem OrderlyQueue.insert (orderly : OrderlyQueue queue stored)
    (inserting : queue.writer = .inserting head tail)
    (filled : ∀ producer, (queue.producers producer).writesIndex head = false) :
    OrderlyQueue { queue with
      rows := queue.rows ++ [Ring.get asyncQueueSize queue.slots head]
      writer := .storing head tail } stored := by
  rcases orderly.writerOk inserting with ⟨counted, rfl, target, tailEq, below, bounded⟩
  have free : ∀ producer task, queue.producers producer ≠ .writing task (stored % 2 ^ 32) := by
    intro producer task place
    have := filled producer
    rw [place, orderly.headEq] at this
    simp [EnqueuePc.writesIndex] at this
  have kept : queue.reserved[queue.rows.length]? =
      some (Ring.get asyncQueueSize queue.slots queue.head) := by
    rw [orderly.headEq, Ring.get_mod (by decide), counted]
    rcases orderly.written stored (by omega) (by omega) with ⟨producer, task, place⟩ | kept
    · exact absurd place (free producer task)
    · exact kept
  refine { orderly with storedLe := ?_, rowsLe := ?_, inOrder := ?_, writer := ?_, written := ?_,
                        writing := ?_ }
  · simp [counted]
  · simp only [length_append, length_singleton]
    omega
  · rcases orderly.inOrder with ⟨rest, split⟩
    rw [← split, List.getElem?_append_right (Nat.le_refl _), Nat.sub_self] at kept
    cases rest with
    | nil => cases kept
    | cons first rest =>
      rw [List.getElem?_cons_zero, Option.some.injEq] at kept
      subst kept
      exact ⟨rest, by rw [← split]; simp⟩
  · exact ⟨by simp [counted], rfl, target, tailEq, below, bounded⟩
  · intro index low high
    rw [length_append] at low
    exact orderly.written index (by omega) high
  · intro producer task own place
    rcases orderly.writing producer task own place with ⟨index, low, rfl, named⟩
    refine ⟨index, ?_, rfl, named⟩
    have other : index ≠ stored := by
      rintro rfl
      exact free producer task place
    simp only [length_append, length_singleton]
    omega

theorem OrderlyQueue.store (orderly : OrderlyQueue queue stored)
    (storing : queue.writer = .storing head tail) :
    OrderlyQueue { queue with
      head := (head + 1) % 2 ^ 32
      writer := if (head + 1) % 2 ^ 32 = tail then .testing
        else .inserting ((head + 1) % 2 ^ 32) tail } (stored + 1) := by
  rcases orderly.writerOk storing with ⟨counted, rfl, target, rfl, below, bounded⟩
  have next : (queue.head + 1) % 2 ^ 32 = (stored + 1) % 2 ^ 32 := by
    rw [orderly.headEq]
    omega
  have size := orderly.reservedLe
  refine { orderly with headEq := next, storedLe := Nat.le_of_eq counted.symm, reservedLe := ?_,
                        writer := ?_ }
  · exact Nat.le_trans orderly.reservedLe (by omega)
  · by_cases last : (queue.head + 1) % 2 ^ 32 = target % 2 ^ 32
    · simp only [last]
      exact counted
    · simp only [last]
      refine ⟨counted, rfl, target, rfl, ?_, bounded⟩
      rw [next] at last
      omega

theorem OrderlyQueue.write (orderly : OrderlyQueue queue stored)
    (guarded : OrderlyAlert queue .write) : ∃ later, OrderlyQueue queue.write later := by
  unfold AlertQueue.write
  simp only [OrderlyAlert] at guarded
  cases place : queue.writer with
  | testing =>
    refine ⟨stored, orderly.turn ?_⟩
    have counted := orderly.writerOk place
    split <;> exact counted
  | checkingHead => exact ⟨stored, orderly.turn ⟨orderly.writerOk place, rfl⟩⟩
  | checkingTail head =>
    rcases orderly.writerOk place with ⟨counted, rfl⟩
    refine ⟨stored, orderly.turn ?_⟩
    split_ifs with empty
    · exact ⟨counted, orderly.empty_iff.mp empty⟩
    · exact counted
  | loadingHead => exact ⟨stored, orderly.turn ⟨orderly.writerOk place, rfl⟩⟩
  | loadingTail head =>
    rcases orderly.writerOk place with ⟨counted, rfl⟩
    refine ⟨stored, orderly.turn ?_⟩
    split_ifs with empty
    · exact counted
    · have := orderly.rowsLe
      have different := mt orderly.empty_iff.mpr empty
      exact ⟨counted, rfl, queue.reserved.length, orderly.tailEq, by omega, Nat.le_refl _⟩
  | inserting head tail =>
    rw [place] at guarded
    exact ⟨stored, orderly.insert place guarded⟩
  | storing head tail => exact ⟨stored + 1, orderly.store place⟩
  | exited => exact ⟨stored, orderly⟩

variable [DecidableEq Producer]

omit [Fintype Producer] in
theorem producers_moveProducer_self (producer : Producer) (pc : EnqueuePc) :
    (queue.moveProducer producer pc).producers producer = pc := Function.update_self ..

omit [Fintype Producer] in
theorem producers_moveProducer_of_ne (different : other ≠ producer) (pc : EnqueuePc) :
    (queue.moveProducer producer pc).producers other = queue.producers other :=
  Function.update_of_ne different ..

omit [Fintype Producer] in
theorem writing_moveProducer_iff {pc : EnqueuePc} :
    (queue.moveProducer producer pc).producers other = .writing task own ↔
      (other = producer ∧ pc = .writing task own) ∨
        (other ≠ producer ∧ queue.producers other = .writing task own) := by
  by_cases same : other = producer
  · simp [same, producers_moveProducer_self]
  · simp [same, producers_moveProducer_of_ne]

omit [Fintype Producer] in
theorem writing_of_moveProducer {producer other : Producer} {pc : EnqueuePc} {task : DbTask}
    {own : ℕ} (stays : ∀ task own, pc ≠ .writing task own)
    (place : (queue.moveProducer producer pc).producers other = .writing task own) :
    queue.producers other = .writing task own := by
  rcases writing_moveProducer_iff.mp place with ⟨-, here⟩ | ⟨-, there⟩
  · exact absurd here (stays task own)
  · exact there

theorem sum_undecided_moveProducer {before : EnqueuePc} (place : queue.producers producer = before)
    (pc : EnqueuePc) :
    (∑ other, ((queue.moveProducer producer pc).producers other).undecided) + before.undecided =
      (∑ other, (queue.producers other).undecided) + pc.undecided := by
  have rest : ∑ other ∈ Finset.univ.erase producer,
      ((queue.moveProducer producer pc).producers other).undecided =
        ∑ other ∈ Finset.univ.erase producer, (queue.producers other).undecided := by
    apply Finset.sum_congr rfl
    intro other mem
    rw [producers_moveProducer_of_ne (Finset.ne_of_mem_erase mem)]
  rw [← Finset.add_sum_erase _ _ (Finset.mem_univ producer),
    ← Finset.add_sum_erase _ (fun other => (queue.producers other).undecided)
      (Finset.mem_univ producer), rest, producers_moveProducer_self, place]
  abel

theorem OrderlyQueue.move (orderly : OrderlyQueue queue stored) {pc : EnqueuePc}
    {calls dropped : List DbTask} (free : ∀ task own, queue.producers producer ≠ .writing task own)
    (stays : ∀ task own, pc ≠ .writing task own)
    (accounted : (calls : Multiset DbTask) = dropped + queue.reserved +
      ∑ other, ((queue.moveProducer producer pc).producers other).undecided) :
    OrderlyQueue { queue with
      producers := (queue.moveProducer producer pc).producers
      calls := calls
      dropped := dropped } stored := by
  refine { orderly with written := ?_, writing := ?_, owners := ?_, accounted := accounted }
  · intro index low high
    rcases orderly.written index low high with ⟨owner, task, place⟩ | kept
    · left
      have different : owner ≠ producer := by
        rintro rfl
        exact free _ _ place
      exact ⟨owner, task, writing_moveProducer_iff.mpr (Or.inr ⟨different, place⟩)⟩
    · exact Or.inr kept
  · intro other task own place
    exact orderly.writing other task own (writing_of_moveProducer stays place)
  · intro first second task otherTask own firstPlace secondPlace
    exact orderly.owners first second task otherTask own (writing_of_moveProducer stays firstPlace)
      (writing_of_moveProducer stays secondPlace)

omit [DecidableEq Producer] in
theorem OrderlyQueue.tail_unowned (orderly : OrderlyQueue queue stored) (producer : Producer)
    (task : DbTask) : queue.producers producer ≠ .writing task queue.tail := by
  intro place
  rcases orderly.writing producer task _ place with ⟨index, low, same, named⟩
  have below := (List.getElem?_eq_some_iff.mp named).1
  rw [orderly.tailEq] at same
  have := orderly.index_unique orderly.rowsLe (Nat.le_refl _) low (Nat.le_of_lt below) same
  omega

omit [DecidableEq Producer] in
theorem OrderlyQueue.reserved_lt (orderly : OrderlyQueue queue stored)
    (room : (queue.tail + 2 ^ 32 - queue.head) % 2 ^ 32 < asyncQueueSize) :
    queue.reserved.length < stored + asyncQueueSize := by
  have := orderly.storedLe
  have := orderly.rowsLe
  have := orderly.reservedLe
  rw [orderly.headEq, orderly.tailEq] at room
  unfold asyncQueueSize at *
  omega

theorem OrderlyQueue.reserve (orderly : OrderlyQueue queue stored)
    (reserving : queue.producers producer = .reserving task)
    (room : (queue.tail + 2 ^ 32 - queue.head) % 2 ^ 32 < asyncQueueSize)
    (staying : queue.writer ≠ .exited) :
    OrderlyQueue { queue with
      producers := (queue.moveProducer producer (.writing task queue.tail)).producers
      tail := (queue.tail + 1) % 2 ^ 32
      reserved := queue.reserved ++ [task] } stored := by
  have grown : (queue.reserved ++ [task]).length = queue.reserved.length + 1 := by simp
  have old : ∀ index < queue.reserved.length,
      (queue.reserved ++ [task])[index]? = queue.reserved[index]? :=
    fun index below => List.getElem?_append_left below
  have tails : (queue.tail + 1) % 2 ^ 32 = (queue.reserved ++ [task]).length % 2 ^ 32 := by
    rw [grown, orderly.tailEq]
    omega
  have fits : (queue.reserved ++ [task]).length ≤ stored + asyncQueueSize := by
    rw [grown]
    exact orderly.reserved_lt room
  refine { orderly with tailEq := tails, rowsLe := ?_, reservedLe := fits, inOrder := ?_,
                        writer := ?_, written := ?_, writing := ?_, owners := ?_, accounted := ?_ }
  · rw [grown]
    exact Nat.le_succ_of_le orderly.rowsLe
  · exact orderly.inOrder.trans (prefix_append _ _)
  · exact WriterOk.grow orderly.writer rfl rfl (by rw [grown]; omega) staying
  · intro index low high
    rw [grown] at high
    rcases Nat.lt_succ_iff_lt_or_eq.mp high with earlier | rfl
    · rw [old index earlier]
      rcases orderly.written index low earlier with ⟨owner, ownerTask, place⟩ | kept
      · left
        have different : owner ≠ producer := by
          rintro rfl
          rw [reserving] at place
          cases place
        exact ⟨owner, ownerTask, writing_moveProducer_iff.mpr (Or.inr ⟨different, place⟩)⟩
      · exact Or.inr kept
    · left
      refine ⟨producer, task, writing_moveProducer_iff.mpr (Or.inl ⟨rfl, ?_⟩)⟩
      rw [orderly.tailEq]
  · intro other otherTask own place
    rcases writing_moveProducer_iff.mp place with ⟨rfl, here⟩ | ⟨-, there⟩
    · rw [EnqueuePc.writing.injEq] at here
      refine ⟨queue.reserved.length, orderly.rowsLe, ?_, ?_⟩
      · rw [← here.2, orderly.tailEq]
      · rw [← here.1, List.getElem?_concat_length]
    · rcases orderly.writing other otherTask own there with ⟨index, low, numbered, named⟩
      refine ⟨index, low, numbered, ?_⟩
      rw [old index (List.getElem?_eq_some_iff.mp named).1]
      exact named
  · intro first second firstTask secondTask own firstPlace secondPlace
    rcases writing_moveProducer_iff.mp firstPlace with ⟨rfl, here⟩ | ⟨-, firstOld⟩ <;>
      rcases writing_moveProducer_iff.mp secondPlace with ⟨rfl, there⟩ | ⟨-, secondOld⟩
    · rfl
    · rw [EnqueuePc.writing.injEq] at here
      rw [← here.2] at secondOld
      exact absurd secondOld (orderly.tail_unowned second secondTask)
    · rw [EnqueuePc.writing.injEq] at there
      rw [← there.2] at firstOld
      exact absurd firstOld (orderly.tail_unowned first firstTask)
    · exact orderly.owners first second firstTask secondTask own firstOld secondOld
  · have moved := sum_undecided_moveProducer reserving (.writing task queue.tail)
    rw [undecided_writing, add_zero] at moved
    rw [orderly.accounted, ← moved, ← Multiset.coe_add]
    abel

theorem OrderlyQueue.fill (orderly : OrderlyQueue queue stored)
    (writing : queue.producers producer = .writing task own) :
    OrderlyQueue { queue with
      producers := (queue.moveProducer producer .idle).producers
      slots := Ring.put asyncQueueSize queue.slots own task } stored := by
  rcases orderly.writing producer task own writing with ⟨place, low, rfl, named⟩
  have high := (List.getElem?_eq_some_iff.mp named).1
  have idles : ∀ otherTask otherOwn, EnqueuePc.idle ≠ .writing otherTask otherOwn := by simp
  refine { orderly with written := ?_, writing := ?_, owners := ?_, accounted := ?_ }
  · intro index (indexLow : queue.rows.length ≤ index) (indexHigh : index < queue.reserved.length)
    rw [Ring.put_mod (by decide)]
    by_cases same : index = place
    · rw [same, Ring.get_put_self]
      exact Or.inr named
    have apart : Ring.get asyncQueueSize (Ring.put asyncQueueSize queue.slots place task) index =
        Ring.get asyncQueueSize queue.slots index := by
      have window := orderly.reservedLe
      have counted := orderly.storedLe
      rcases Nat.lt_or_gt_of_ne same with before | after
      · exact Ring.get_put_of_lt before (by omega)
      · exact Ring.get_put_of_gt after (by omega)
    rw [apart]
    rcases orderly.written index indexLow indexHigh with ⟨owner, ownerTask, held⟩ | kept
    · left
      have different : owner ≠ producer := by
        rintro rfl
        rw [writing, EnqueuePc.writing.injEq] at held
        exact same (orderly.index_unique indexLow (Nat.le_of_lt indexHigh) low (Nat.le_of_lt high)
          held.2.symm)
      exact ⟨owner, ownerTask, writing_moveProducer_iff.mpr (Or.inr ⟨different, held⟩)⟩
    · exact Or.inr kept
  · intro other otherTask otherOwn moved
    exact orderly.writing other otherTask otherOwn (writing_of_moveProducer idles moved)
  · intro first second firstTask secondTask otherOwn firstMoved secondMoved
    exact orderly.owners first second firstTask secondTask otherOwn
      (writing_of_moveProducer idles firstMoved) (writing_of_moveProducer idles secondMoved)
  · have moved := sum_undecided_moveProducer writing .idle
    rw [undecided_writing, undecided_idle, add_zero, add_zero] at moved
    rw [orderly.accounted, ← moved]

theorem OrderlyQueue.call (orderly : OrderlyQueue queue stored)
    (guarded : OrderlyAlert queue (.call producer task)) :
    OrderlyQueue (queue.call producer task) stored := by
  unfold AlertQueue.call
  cases place : queue.producers producer with
  | idle =>
    have ready := guarded place
    rw [if_pos ready]
    refine orderly.move (by simp [place]) (by simp) ?_
    have moved := sum_undecided_moveProducer place (.called task)
    rw [undecided_idle, add_zero] at moved
    rw [← Multiset.coe_add, orderly.accounted, moved]
    abel
  | _ => exact orderly

theorem OrderlyQueue.enqueue (orderly : OrderlyQueue queue stored)
    (guarded : OrderlyAlert queue (.enqueue producer)) :
    OrderlyQueue (queue.enqueue producer) stored := by
  unfold AlertQueue.enqueue
  cases place : queue.producers producer with
  | idle => exact orderly
  | called task =>
    refine orderly.move (by simp [place]) (by simp) ?_
    have moved := sum_undecided_moveProducer place (.loadedTail task queue.tail)
    rw [undecided_called, undecided_loadedTail, add_left_inj] at moved
    rw [moved, orderly.accounted]
  | loadedTail task tail =>
    by_cases full : asyncQueueSize ≤ (tail + 2 ^ 32 - queue.head) % 2 ^ 32
    · simp only [full]
      refine orderly.move (by simp [place]) (by simp) ?_
      have moved := sum_undecided_moveProducer place .idle
      rw [undecided_idle, add_zero] at moved
      rw [orderly.accounted, ← moved, ← Multiset.coe_add]
      abel
    · simp only [full]
      refine orderly.move (by simp [place]) (by simp) ?_
      have moved := sum_undecided_moveProducer place (.reserving task)
      rw [undecided_loadedTail, undecided_reserving, add_left_inj] at moved
      rw [moved, orderly.accounted]
  | reserving task =>
    rcases guarded (by rw [place]; rfl) with ⟨room, staying⟩
    exact orderly.reserve place room staying
  | writing task own => exact orderly.fill place

theorem orderlyQueue_alertStep (orderly : OrderlyQueue queue stored) (event : AlertEvent Producer)
    (guarded : OrderlyAlert queue event) : ∃ later, OrderlyQueue (alertStep queue event) later := by
  cases event with
  | call producer task => exact ⟨stored, orderly.call guarded⟩
  | enqueue producer => exact ⟨stored, orderly.enqueue guarded⟩
  | write => exact orderly.write guarded
  | stop => exact ⟨stored, { orderly with }⟩
  | close =>
    refine ⟨stored, ?_⟩
    simp only [alertStep]
    split
    · exact { orderly with }
    · exact orderly

omit [DecidableEq Producer] in
theorem rowsMatchCalls_of_settled (orderly : OrderlyQueue queue stored) (settled : Settled queue) :
    RowsMatchCalls queue := by
  rcases settled with ⟨idle, drained⟩
  have emptied : stored = queue.reserved.length := by
    rcases drained with exited | empty
    · exact (orderly.writerOk exited).2
    · exact orderly.empty_iff.mp empty
  have complete : queue.rows = queue.reserved := by
    apply orderly.inOrder.eq_of_length
    have := orderly.storedLe
    have := orderly.rowsLe
    omega
  have none : ∑ producer, (queue.producers producer).undecided = 0 := by
    apply Finset.sum_eq_zero
    intro producer _
    rw [idle producer, undecided_idle]
  rw [RowsMatchCalls, ← Multiset.coe_eq_coe, ← Multiset.coe_add, orderly.accounted, none, complete]
  abel

end Steps

theorem rows_match_calls_when_settled [Fintype Producer] [DecidableEq Producer]
    {events : List (AlertEvent Producer)}
    (guarded : Machine.Guarded alertStep OrderlyAlert {} events)
    (settled : Settled (Machine.run alertStep {} events)) :
    RowsMatchCalls (Machine.run alertStep {} events) := by
  have invariant : ∃ stored, OrderlyQueue (Machine.run alertStep {} events) stored := by
    apply Machine.run_invariant_of_guarded (fun queue => ∃ stored, OrderlyQueue queue stored) _
      ⟨0, orderlyQueue_init⟩ guarded
    rintro queue event orderlyAlert ⟨stored, orderly⟩
    exact orderlyQueue_alertStep orderly event orderlyAlert
  rcases invariant with ⟨stored, orderly⟩
  exact rowsMatchCalls_of_settled orderly settled

def scanAlert : DbTask :=
  ⟨⟨.warn, ascii "SCAN"⟩, 1000, [], ascii "198.51.100.7", 12, 9, 0, 0, false⟩

def sqliAlert : DbTask :=
  ⟨⟨.crit, ascii "SQL"⟩, 1001, [], ascii "203.0.113.9", 3, 1, 1, 0, true⟩

def patientWriterRun : List (AlertEvent Bool) :=
  [.call false scanAlert, .call true sqliAlert, .enqueue false, .enqueue true, .enqueue false,
    .enqueue true, .enqueue true, .enqueue false, .enqueue false, .enqueue true, .write, .write,
    .write, .write, .write, .write, .write, .stop, .write, .write, .write, .close]

theorem rows_match_calls_for_patient_writer :
    RowsMatchCalls (Machine.run alertStep {} patientWriterRun) := by
  apply rows_match_calls_when_settled
  · decide +kernel
  · exact ⟨by decide +kernel, by decide +kernel⟩

def hastyWriterRun : List (AlertEvent Unit) :=
  [.call () scanAlert, .enqueue (), .enqueue (), .enqueue (), .write, .write, .write, .write,
    .write, .enqueue ()]

theorem stale_row_inserted :
    Settled (Machine.run alertStep {} hastyWriterRun) ∧
      (Machine.run alertStep {} hastyWriterRun).calls = [scanAlert] ∧
      (Machine.run alertStep {} hastyWriterRun).dropped = [] ∧
      (Machine.run alertStep {} hastyWriterRun).rows = [.zero] := by
  refine ⟨⟨by decide +kernel, by decide +kernel⟩, ?_⟩
  decide +kernel

end LogGuardian
