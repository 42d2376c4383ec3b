import LogGuardian.Lib.Machine
import LogGuardian.Lib.Ring

/-!
# The work queue
-/

namespace LogGuardian

open List

universe u

def queueSize : ℕ := 2048

/-- `WorkChunk`: the bytes from `start` up to `stop`. -/
structure WorkChunk where
  start : ℕ
  stop : ℕ
  deriving DecidableEq, Repr

inductive ProducerPc where
  | idle
  | waiting (head : ℕ) (chunk : WorkChunk)
  | writing (head : ℕ) (chunk : WorkChunk)
  | storing (head : ℕ) (chunk : WorkChunk)
  | finished
  deriving DecidableEq, Repr

inductive WorkerPc where
  | start
  | loadedTail (tail : ℕ)
  | testingDone
  | claiming (tail : ℕ)
  | reading (tail : ℕ)
  | exited
  deriving DecidableEq, Repr

structure Taken (Worker : Type u) where
  worker : Worker
  index : ℕ
  chunk : WorkChunk
  deriving DecidableEq, Repr

/-- `SpMcQueue` with the threads. -/
structure WorkQueue (Worker : Type u) where
  head : ℕ := 0
  tail : ℕ := 0
  done : Bool := false
  slots : ℕ → WorkChunk := fun _ => ⟨0, 0⟩
  producer : ProducerPc := .idle
  workers : Worker → WorkerPc := fun _ => .start
  enqueued : List WorkChunk := []
  processed : List (Taken Worker) := []

namespace WorkQueue

variable {Worker : Type u} [DecidableEq Worker]

/-- The next access of the main thread inside `spmc_enqueue`. -/
def produce (queue : WorkQueue Worker) : WorkQueue Worker :=
  match queue.producer with
  | .waiting head chunk =>
    if queueSize ≤ (head + 2 ^ 64 - queue.tail) % 2 ^ 64 then queue
    else { queue with producer := .writing head chunk }
  | .writing head chunk =>
    { queue with
      slots := Ring.put queueSize queue.slots head chunk
      producer := .storing head chunk }
  | .storing head chunk =>
    { queue with
      head := (head + 1) % 2 ^ 64
      enqueued := queue.enqueued ++ [chunk]
      producer := .idle }
  | .idle | .finished => queue

def moveWorker (queue : WorkQueue Worker) (worker : Worker) (pc : WorkerPc) : WorkQueue Worker :=
  { queue with workers := Function.update queue.workers worker pc }

def work (queue : WorkQueue Worker) (worker : Worker) (spurious : Bool) : WorkQueue Worker :=
  match queue.workers worker with
  | .start => queue.moveWorker worker (.loadedTail queue.tail)
  | .loadedTail tail =>
    queue.moveWorker worker (if queue.head ≤ tail then .testingDone else .claiming tail)
  | .testingDone => queue.moveWorker worker (if queue.done then .exited else .start)
  | .claiming tail =>
    if queue.tail = tail ∧ !spurious then
      { queue.moveWorker worker (.reading tail) with tail := (tail + 1) % 2 ^ 64 }
    else queue.moveWorker worker .start
  | .reading tail =>
    { queue.moveWorker worker .start with
      processed := queue.processed ++ [⟨worker, tail, Ring.get queueSize queue.slots tail⟩] }
  | .exited => queue

end WorkQueue

inductive QueueEvent (Worker : Type u) where
  | enqueue (chunk : WorkChunk)
  | produce
  | setDone
  | work (worker : Worker) (spurious : Bool)
  deriving DecidableEq, Repr

variable {Worker : Type u}

section Step

variable [DecidableEq Worker]

def queueStep (queue : WorkQueue Worker) : QueueEvent Worker → WorkQueue Worker
  | .enqueue chunk =>
    match queue.producer with
    | .idle => { queue with producer := .waiting queue.head chunk }
    | _ => queue
  | .produce => queue.produce
  | .setDone =>
    match queue.producer with
    | .idle => { queue with done := true, producer := .finished }
    | _ => queue
  | .work worker spurious => queue.work worker spurious

end Step

/-- Every chunk has been taken once, for its index and as it was enqueued. -/
def ExactlyOnce (queue : WorkQueue Worker) : Prop :=
  (queue.processed.map fun taken => (taken.chunk, taken.index)).Perm queue.enqueued.zipIdx

def WorkerPc.readsSlot (slot : ℕ) : WorkerPc → Bool
  | .reading tail => tail % queueSize = slot
  | _ => false

/-- The main thread writes no slot that a worker owns and has not read, the head does not wrap
around, and the last worker to leave leaves an empty queue. -/
def OrderlyStep (queue : WorkQueue Worker) : QueueEvent Worker → Prop
  | .produce =>
    match queue.producer with
    | .writing head _ =>
      ∀ worker, (queue.workers worker).readsSlot (head % queueSize) = false
    | .storing head _ => head + 1 < 2 ^ 64
    | _ => True
  | .work worker _ =>
    queue.workers worker = .testingDone → queue.done = true →
      (∀ other, other ≠ worker → queue.workers other = .exited) → queue.tail = queue.head
  | _ => True

instance [DecidableEq Worker] [Fintype Worker] (queue : WorkQueue Worker) (event : QueueEvent Worker) :
    Decidable (OrderlyStep queue event) := by
  unfold OrderlyStep
  split
  · split <;> infer_instance
  · infer_instance
  · infer_instance

/-- What holds of a worker at each place. -/
def WorkerOk (queue : WorkQueue Worker) : WorkerPc → Prop
  | .start | .testingDone => True
  | .loadedTail tail => tail ≤ queue.tail
  | .claiming tail => tail ≤ queue.tail ∧ tail < queue.head
  | .reading tail =>
    tail < queue.tail ∧ tail ∉ queue.processed.map Taken.index ∧
      queue.enqueued[tail]? = some (Ring.get queueSize queue.slots tail)
  | .exited => queue.done = true

/-- What holds of the main thread at each place. -/
def ProducerOk (queue : WorkQueue Worker) : ProducerPc → Prop
  | .idle => queue.done = false
  | .waiting head _ => queue.done = false ∧ head = queue.head
  | .writing head _ => queue.done = false ∧ head = queue.head ∧ head < queue.tail + queueSize
  | .storing head chunk =>
    queue.done = false ∧ head = queue.head ∧ head < queue.tail + queueSize ∧
      Ring.get queueSize queue.slots head = chunk
  | .finished => queue.done = true

structure Orderly (queue : WorkQueue Worker) : Prop where
  headEq : queue.head = queue.enqueued.length
  headLt : queue.head < 2 ^ 64
  tailLe : queue.tail ≤ queue.head
  headLe : queue.head ≤ queue.tail + queueSize
  producer : ProducerOk queue queue.producer
  workers : ∀ worker, WorkerOk queue (queue.workers worker)
  waiting : ∀ index, queue.tail ≤ index → index < queue.head →
    queue.enqueued[index]? = some (Ring.get queueSize queue.slots index)
  owners : ∀ worker other index, queue.workers worker = .reading index →
    queue.workers other = .reading index → worker = other
  nodup : (queue.processed.map Taken.index).Nodup
  processed : ∀ taken ∈ queue.processed, taken.index < queue.tail ∧
    queue.enqueued[taken.index]? = some taken.chunk
  claimed : ∀ index < queue.tail, index ∈ queue.processed.map Taken.index ∨
    ∃ worker, queue.workers worker = .reading index
  left : (∀ worker, queue.workers worker = .exited) → queue.tail = queue.head

theorem orderly_init : Orderly ({} : WorkQueue Worker) where
  headEq := rfl
  headLt := Nat.two_pow_pos 64
  tailLe := Nat.le_refl _
  headLe := Nat.zero_le _
  producer := rfl
  workers _ := trivial
  waiting index _ below := absurd below (Nat.not_lt_zero index)
  owners worker other index reads := by cases reads
  nodup := nodup_nil
  processed taken mem := absurd mem not_mem_nil
  claimed index below := absurd below (Nat.not_lt_zero index)
  left _ := rfl

section Steps

variable {queue after : WorkQueue Worker}

variable {pc : WorkerPc} {worker other : Worker} {head index : ℕ} {chunk : WorkChunk}

theorem WorkerOk.grow (ok : WorkerOk queue pc) (tails : queue.tail ≤ after.tail)
    (heads : queue.head ≤ after.head) (dones : queue.done = true → after.done = true)
    (reads : ∀ tail, pc = .reading tail → tail < queue.tail →
      tail ∉ queue.processed.map Taken.index →
      queue.enqueued[tail]? = some (Ring.get queueSize queue.slots tail) →
      tail ∉ after.processed.map Taken.index ∧
        after.enqueued[tail]? = some (Ring.get queueSize after.slots tail)) :
    WorkerOk after pc := by
  cases pc with
  | start => trivial
  | loadedTail tail => exact Nat.le_trans ok tails
  | testingDone => trivial
  | claiming tail => exact ⟨Nat.le_trans ok.1 tails, Nat.lt_of_lt_of_le ok.2 heads⟩
  | reading tail =>
    exact ⟨Nat.lt_of_lt_of_le ok.1 tails, reads tail rfl ok.1 ok.2.1 ok.2.2⟩
  | exited => exact dones ok

theorem ProducerOk.grow {pc : ProducerPc} (ok : ProducerOk queue pc)
    (tails : queue.tail ≤ after.tail) (heads : after.head = queue.head)
    (dones : after.done = queue.done) (slots : after.slots = queue.slots) :
    ProducerOk after pc := by
  cases pc with
  | idle => exact dones.trans ok
  | waiting head chunk => exact ⟨dones.trans ok.1, ok.2.trans heads.symm⟩
  | writing head chunk =>
    rcases ok with ⟨running, current, inside⟩
    exact ⟨dones.trans running, current.trans heads.symm, by omega⟩
  | storing head chunk =>
    rcases ok with ⟨running, current, inside, stored⟩
    exact ⟨dones.trans running, current.trans heads.symm, by omega, by rw [slots, stored]⟩
  | finished => exact dones.trans ok

theorem Orderly.producerOk (orderly : Orderly queue) {pc : ProducerPc} (place : queue.producer = pc) :
    ProducerOk queue pc := place ▸ orderly.producer

theorem Orderly.workerOk (orderly : Orderly queue) (place : queue.workers worker = pc) :
    WorkerOk queue pc := place ▸ orderly.workers worker

theorem Orderly.call (orderly : Orderly queue) (idle : queue.producer = .idle) (chunk : WorkChunk) :
    Orderly { queue with producer := .waiting queue.head chunk } :=
  { orderly with producer := ⟨orderly.producerOk idle, rfl⟩ }

theorem Orderly.admit (orderly : Orderly queue) (waiting : queue.producer = .waiting head chunk)
    (room : ¬queueSize ≤ (head + 2 ^ 64 - queue.tail) % 2 ^ 64) :
    Orderly { queue with producer := .writing head chunk } := by
  rcases orderly.producerOk waiting with ⟨running, rfl⟩
  have inside : queue.head < queue.tail + queueSize := by
    have := orderly.headLt
    omega
  exact { orderly with producer := ⟨running, rfl, inside⟩ }

theorem Orderly.write (orderly : Orderly queue) (writing : queue.producer = .writing head chunk)
    (unread : ∀ worker, (queue.workers worker).readsSlot (head % queueSize) = false) :
    Orderly { queue with
      slots := Ring.put queueSize queue.slots head chunk
      producer := .storing head chunk } := by
  rcases orderly.producerOk writing with ⟨running, rfl, inside⟩
  refine { orderly with producer := ⟨running, rfl, inside, Ring.get_put_self⟩, workers := ?_,
                        waiting := ?_ }
  · intro worker
    refine WorkerOk.grow (orderly.workers worker) (Nat.le_refl _) (Nat.le_refl _)
      (fun done => done) ?_
    intro tail reads _ fresh stored
    have apart : tail % queueSize ≠ queue.head % queueSize := by
      have := unread worker
      rw [reads] at this
      simpa [WorkerPc.readsSlot] using this
    refine ⟨fresh, ?_⟩
    rw [Ring.get_put_of_mod_ne apart]
    exact stored
  · intro index (above : queue.tail ≤ index) (below : index < queue.head)
    rw [Ring.get_put_of_lt below (by omega)]
    exact orderly.waiting index above below

theorem Orderly.publish [Nonempty Worker] (orderly : Orderly queue)
    (storing : queue.producer = .storing head chunk) (fits : head + 1 < 2 ^ 64) :
    Orderly { queue with
      head := head + 1
      enqueued := queue.enqueued ++ [chunk]
      producer := .idle } := by
  rcases orderly.producerOk storing with ⟨running, rfl, inside, stored⟩
  have old : ∀ index < queue.head,
      (queue.enqueued ++ [chunk])[index]? = queue.enqueued[index]? := by
    intro index below
    exact List.getElem?_append_left (orderly.headEq ▸ below)
  refine { orderly with headEq := ?_, headLt := fits, tailLe := ?_, headLe := inside,
                        producer := running, workers := ?_, waiting := ?_, processed := ?_,
                        left := ?_ }
  · simp [orderly.headEq]
  · exact Nat.le_succ_of_le orderly.tailLe
  · intro worker
    refine WorkerOk.grow (orderly.workers worker) (Nat.le_refl _) (Nat.le_succ _)
      (fun done => done) ?_
    intro tail _ below fresh kept
    refine ⟨fresh, ?_⟩
    rw [old tail (Nat.lt_of_lt_of_le below orderly.tailLe)]
    exact kept
  · intro index above below
    rcases Nat.lt_succ_iff_lt_or_eq.mp below with earlier | rfl
    · rw [old index earlier]
      exact orderly.waiting index above earlier
    · rw [orderly.headEq, List.getElem?_concat_length, ← orderly.headEq, stored]
  · intro taken mem
    rcases orderly.processed taken mem with ⟨below, kept⟩
    refine ⟨below, ?_⟩
    rw [old _ (Nat.lt_of_lt_of_le below orderly.tailLe)]
    exact kept
  · intro gone
    -- A worker leaves only when the flag is set, and then nothing is enqueued.
    have done : queue.done = true := orderly.workerOk (gone (Classical.arbitrary Worker))
    rw [running] at done
    cases done

theorem Orderly.close (orderly : Orderly queue) :
    Orderly { queue with done := true, producer := .finished } := by
  refine { orderly with producer := rfl, workers := ?_ }
  intro worker
  refine WorkerOk.grow (orderly.workers worker) (Nat.le_refl _) (Nat.le_refl _) (fun _ => rfl) ?_
  intro tail _ _ fresh stored
  exact ⟨fresh, stored⟩

theorem Orderly.produce [Nonempty Worker] (orderly : Orderly queue)
    (guarded : OrderlyStep queue .produce) : Orderly queue.produce := by
  unfold WorkQueue.produce
  simp only [OrderlyStep] at guarded
  cases place : queue.producer with
  | idle => exact orderly
  | waiting head chunk =>
    by_cases full : queueSize ≤ (head + 2 ^ 64 - queue.tail) % 2 ^ 64
    · simp only [full]
      exact orderly
    · simp only [full]
      exact orderly.admit place full
  | writing head chunk =>
    rw [place] at guarded
    exact orderly.write place guarded
  | storing head chunk =>
    rw [place] at guarded
    simp only [Nat.mod_eq_of_lt guarded]
    exact orderly.publish place guarded
  | finished => exact orderly

variable [DecidableEq Worker]

theorem workers_moveWorker_self (worker : Worker) (pc : WorkerPc) :
    (queue.moveWorker worker pc).workers worker = pc := Function.update_self ..

theorem workers_moveWorker_of_ne (different : other ≠ worker) (pc : WorkerPc) :
    (queue.moveWorker worker pc).workers other = queue.workers other :=
  Function.update_of_ne different ..

theorem forall_moveWorker (Holds : WorkerPc → Prop) :
    (∀ other, Holds ((queue.moveWorker worker pc).workers other)) ↔
      Holds pc ∧ ∀ other, other ≠ worker → Holds (queue.workers other) :=
  Function.forall_update_iff queue.workers fun _ => Holds

theorem reading_moveWorker_iff :
    (queue.moveWorker worker pc).workers other = .reading index ↔
      (other = worker ∧ pc = .reading index) ∨
        (other ≠ worker ∧ queue.workers other = .reading index) := by
  by_cases same : other = worker
  · simp [same, workers_moveWorker_self]
  · simp [same, workers_moveWorker_of_ne]

theorem reading_of_moveWorker (stays : ∀ index, pc ≠ .reading index)
    (reads : (queue.moveWorker worker pc).workers other = .reading index) :
    queue.workers other = .reading index := by
  rcases reading_moveWorker_iff.mp reads with ⟨-, here⟩ | ⟨-, there⟩
  · exact absurd here (stays index)
  · exact there

theorem Orderly.move (orderly : Orderly queue)
    (free : ∀ index, queue.workers worker ≠ .reading index) (stays : ∀ index, pc ≠ .reading index)
    (ok : WorkerOk queue pc)
    (leaves : pc = .exited → (∀ other, other ≠ worker → queue.workers other = .exited) →
      queue.tail = queue.head) :
    Orderly (queue.moveWorker worker pc) := by
  refine { orderly with workers := ?_, owners := ?_, claimed := ?_, left := ?_ }
  · exact (forall_moveWorker (WorkerOk queue)).mpr ⟨ok, fun other _ => orderly.workers other⟩
  · intro first second index firstReads secondReads
    exact orderly.owners first second index (reading_of_moveWorker stays firstReads)
      (reading_of_moveWorker stays secondReads)
  · intro index below
    rcases orderly.claimed index below with taken | ⟨owner, reads⟩
    · exact Or.inl taken
    · right
      have different : owner ≠ worker := by
        rintro rfl
        exact free index reads
      exact ⟨owner, reading_moveWorker_iff.mpr (Or.inr ⟨different, reads⟩)⟩
  · intro gone
    rcases (forall_moveWorker (· = .exited)).mp gone with ⟨here, there⟩
    exact leaves here there

theorem Orderly.claim (orderly : Orderly queue)
    (claiming : queue.workers worker = .claiming queue.tail) :
    Orderly { queue with
      tail := queue.tail + 1
      workers := (queue.moveWorker worker (.reading queue.tail)).workers } := by
  have below : queue.tail < queue.head := (orderly.workerOk claiming).2
  have unread : ∀ other index, queue.workers other = .reading index → index < queue.tail :=
    fun other index reads => (orderly.workerOk reads).1
  refine { orderly with tailLe := below, headLe := ?_, producer := ?_, workers := ?_,
                        waiting := ?_, owners := ?_, processed := ?_, claimed := ?_, left := ?_ }
  · have : queue.head ≤ queue.tail + 1 + queueSize := by
      have := orderly.headLe
      omega
    exact this
  · exact ProducerOk.grow orderly.producer (Nat.le_succ _) rfl rfl rfl
  · refine (forall_moveWorker (WorkerOk _)).mpr ?_
    constructor
    · refine ⟨Nat.lt_succ_self _, ?_, orderly.waiting _ (Nat.le_refl _) below⟩
      intro mem
      rcases List.mem_map.mp mem with ⟨taken, processed, same⟩
      have earlier := (orderly.processed taken processed).1
      omega
    · intro other _
      refine WorkerOk.grow (orderly.workers other) (Nat.le_succ _) (Nat.le_refl _)
        (fun done => done) ?_
      intro tail _ _ fresh stored
      exact ⟨fresh, stored⟩
  · intro index above inside
    exact orderly.waiting index (Nat.le_of_succ_le above) inside
  · intro first second index firstReads secondReads
    rcases reading_moveWorker_iff.mp firstReads with ⟨rfl, here⟩ | ⟨-, firstOld⟩ <;>
      rcases reading_moveWorker_iff.mp secondReads with ⟨rfl, there⟩ | ⟨-, secondOld⟩
    · rfl
    · have earlier := unread second index secondOld
      rw [WorkerPc.reading.injEq] at here
      omega
    · have earlier := unread first index firstOld
      rw [WorkerPc.reading.injEq] at there
      omega
    · exact orderly.owners first second index firstOld secondOld
  · intro taken mem
    rcases orderly.processed taken mem with ⟨earlier, kept⟩
    exact ⟨Nat.lt_succ_of_lt earlier, kept⟩
  · intro index (inside : index < queue.tail + 1)
    rcases Nat.lt_succ_iff_lt_or_eq.mp inside with earlier | rfl
    · rcases orderly.claimed index earlier with taken | ⟨owner, reads⟩
      · exact Or.inl taken
      · right
        have different : owner ≠ worker := by
          rintro rfl
          rw [claiming] at reads
          cases reads
        exact ⟨owner, reading_moveWorker_iff.mpr (Or.inr ⟨different, reads⟩)⟩
    · exact Or.inr ⟨worker, workers_moveWorker_self worker _⟩
  · intro gone
    cases ((forall_moveWorker (· = .exited)).mp gone).1

theorem Orderly.take (orderly : Orderly queue) {tail : ℕ}
    (reading : queue.workers worker = .reading tail) :
    Orderly { queue with
      workers := (queue.moveWorker worker .start).workers
      processed := queue.processed ++ [⟨worker, tail, Ring.get queueSize queue.slots tail⟩] } := by
  rcases orderly.workerOk reading with ⟨below, fresh, stored⟩
  refine { orderly with workers := ?_, owners := ?_, nodup := ?_, processed := ?_, claimed := ?_,
                        left := ?_ }
  · refine (forall_moveWorker (WorkerOk _)).mpr ⟨trivial, ?_⟩
    intro other different
    refine WorkerOk.grow (orderly.workers other) (Nat.le_refl _) (Nat.le_refl _)
      (fun done => done) ?_
    intro index reads _ untaken kept
    refine ⟨?_, kept⟩
    rw [map_append, mem_append, not_or]
    refine ⟨untaken, ?_⟩
    intro mem
    rw [map_singleton, mem_singleton] at mem
    rw [mem] at reads
    exact different (orderly.owners other worker tail reads reading)
  · intro first second index firstReads secondReads
    exact orderly.owners first second index (reading_of_moveWorker (by simp) firstReads)
      (reading_of_moveWorker (by simp) secondReads)
  · rw [map_append, map_singleton]
    exact List.nodup_append.mpr ⟨orderly.nodup, nodup_singleton _, by
      rintro index mem _ (single : _ ∈ [tail]) rfl
      rw [mem_singleton] at single
      exact fresh (single ▸ mem)⟩
  · intro taken mem
    rcases List.mem_append.mp mem with old | new
    · exact orderly.processed taken old
    · rw [mem_singleton] at new
      subst new
      exact ⟨below, stored⟩
  · intro index inside
    rw [map_append, mem_append]
    rcases orderly.claimed index inside with taken | ⟨owner, reads⟩
    · exact Or.inl (Or.inl taken)
    · by_cases same : owner = worker
      · subst same
        rw [reading, WorkerPc.reading.injEq] at reads
        subst reads
        exact Or.inl (Or.inr (by simp))
      · exact Or.inr ⟨owner, reading_moveWorker_iff.mpr (Or.inr ⟨same, reads⟩)⟩
  · intro gone
    cases ((forall_moveWorker (· = .exited)).mp gone).1

theorem Orderly.work (orderly : Orderly queue) {spurious : Bool}
    (guarded : OrderlyStep queue (.work worker spurious)) :
    Orderly (queue.work worker spurious) := by
  unfold WorkQueue.work
  cases place : queue.workers worker with
  | start => exact orderly.move (by simp [place]) nofun (Nat.le_refl queue.tail) nofun
  | loadedTail tail =>
    have old : tail ≤ queue.tail := orderly.workerOk place
    by_cases empty : queue.head ≤ tail
    · simp only [empty]
      exact orderly.move (by simp [place]) nofun trivial nofun
    · simp only [empty]
      exact orderly.move (by simp [place]) nofun ⟨old, Nat.lt_of_not_le empty⟩ nofun
  | testingDone =>
    cases done : queue.done with
    | true =>
      refine orderly.move (by simp [place]) nofun done ?_
      intro _ others
      exact guarded place done others
    | false => exact orderly.move (by simp [place]) nofun trivial nofun
  | claiming tail =>
    by_cases succeeds : queue.tail = tail ∧ (!spurious) = true
    · rcases succeeds with ⟨rfl, lucky⟩
      have inside : queue.tail + 1 < 2 ^ 64 := by
        have := (orderly.workerOk place).2
        have := orderly.headLt
        omega
      simp only [lucky, Nat.mod_eq_of_lt inside]
      exact orderly.claim place
    · simp only [succeeds]
      exact orderly.move (by simp [place]) nofun trivial nofun
  | reading tail => exact orderly.take place
  | exited => exact orderly

theorem orderly_queueStep [Nonempty Worker] (orderly : Orderly queue) (event : QueueEvent Worker)
    (guarded : OrderlyStep queue event) : Orderly (queueStep queue event) := by
  cases event with
  | enqueue chunk =>
    simp only [queueStep]
    split
    · rename_i idle
      exact orderly.call idle chunk
    · exact orderly
  | produce => exact orderly.produce guarded
  | setDone =>
    simp only [queueStep]
    split
    · exact orderly.close
    · exact orderly
  | work worker spurious => exact orderly.work guarded

omit [DecidableEq Worker] in
theorem exactlyOnce_of_left (orderly : Orderly queue)
    (gone : ∀ worker, queue.workers worker = .exited) : ExactlyOnce queue := by
  have emptied : queue.tail = queue.enqueued.length := (orderly.left gone).trans orderly.headEq
  have distinct : (queue.processed.map fun taken => (taken.chunk, taken.index)).Nodup := by
    apply List.Nodup.of_map Prod.snd
    rw [map_map]
    exact orderly.nodup
  have numbered : queue.enqueued.zipIdx.Nodup := by
    apply List.Nodup.of_map Prod.snd
    rw [zipIdx_map_snd]
    exact nodup_range'
  refine (perm_ext_iff_of_nodup distinct numbered).mpr ?_
  rintro ⟨chunk, index⟩
  rw [List.mem_zipIdx_iff_getElem?, mem_map]
  constructor
  · rintro ⟨taken, mem, same⟩
    rw [Prod.mk.injEq] at same
    rw [← same.1, ← same.2]
    exact (orderly.processed taken mem).2
  · intro kept
    have inside : index < queue.tail := by
      rw [emptied]
      exact (List.getElem?_eq_some_iff.mp kept).1
    rcases orderly.claimed index inside with mem | ⟨owner, reads⟩
    · rcases List.mem_map.mp mem with ⟨taken, processed, rfl⟩
      have same := (orderly.processed taken processed).2
      rw [kept, Option.some.injEq] at same
      exact ⟨taken, processed, Prod.ext same.symm rfl⟩
    · rw [gone owner] at reads
      cases reads

end Steps

theorem exactly_once_when_left [DecidableEq Worker] [Nonempty Worker]
    {events : List (QueueEvent Worker)} (guarded : Machine.Guarded queueStep OrderlyStep {} events)
    (gone : ∀ worker, (Machine.run queueStep {} events).workers worker = .exited) :
    ExactlyOnce (Machine.run queueStep {} events) := by
  apply exactlyOnce_of_left _ gone
  apply Machine.run_invariant_of_guarded Orderly _ orderly_init guarded
  intro queue event orderlyStep orderly
  exact orderly_queueStep orderly event orderlyStep

def sharedChunkRun : List (QueueEvent (Fin 2)) :=
  [.enqueue ⟨0, 80⟩, .produce, .produce, .produce, .work 0 false, .work 1 false, .work 0 false,
    .work 1 false, .work 0 false, .work 1 false, .setDone, .work 0 false, .work 0 false,
    .work 0 false, .work 0 false, .work 1 false, .work 1 false, .work 1 false]

theorem exactly_once_for_shared_chunk :
    ExactlyOnce (Machine.run queueStep {} sharedChunkRun) := by
  apply exactly_once_when_left
  · decide +kernel
  · decide +kernel

def staleHeadRun : List (QueueEvent (Fin 1)) :=
  [.work 0 false, .work 0 false, .enqueue ⟨0, 80⟩, .produce, .produce, .produce, .setDone,
    .work 0 false]

theorem chunk_lost_at_shutdown :
    (∀ worker, (Machine.run queueStep {} staleHeadRun).workers worker = .exited) ∧
      (Machine.run queueStep {} staleHeadRun).enqueued = [⟨0, 80⟩] ∧
      (Machine.run queueStep {} staleHeadRun).processed = [] := by
  decide +kernel

end LogGuardian
