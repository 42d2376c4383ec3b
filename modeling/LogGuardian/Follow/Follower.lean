import LogGuardian.Bytes
import LogGuardian.Lib.Lines
import LogGuardian.Lib.Machine

/-!
# The log follower

In follow mode the main loop of `main.c` starts at the end of the log.
-/

namespace LogGuardian

open List

/-- `find_newline_avx2`: blocks of 32 bytes and then single bytes. -/
def findNewlineAvx2 : ℕ → Bytes → ℕ
  | 0, text => (text.takeWhile (· ≠ 10)).length
  | fuel + 1, text =>
    if 32 ≤ text.length then
      if 10 ∈ text.take 32 then (text.take 32).idxOf 10 else 32 + findNewlineAvx2 fuel (text.drop 32)
    else (text.takeWhile (· ≠ 10)).length

variable {line text : Bytes} {fuel : ℕ}

theorem takeWhile_append_newline (plain : 10 ∉ line) (rest : Bytes) :
    (line ++ 10 :: rest).takeWhile (· ≠ 10) = line := by
  rw [takeWhile_append_of_pos]
  · simp
  · intro byte mem
    have other : byte ≠ 10 := by
      rintro rfl
      exact plain mem
    simpa using other

theorem takeWhile_of_no_newline (plain : 10 ∉ line) :
    line.takeWhile (· ≠ 10) = line := by
  rw [takeWhile_eq_self_iff]
  intro byte mem
  have other : byte ≠ 10 := by
    rintro rfl
    exact plain mem
  simpa using other

theorem findNewlineAvx2_eq (fuel : ℕ) (text : Bytes) :
    findNewlineAvx2 fuel text = (text.takeWhile (· ≠ 10)).length := by
  induction fuel generalizing text with
  | zero => rfl
  | succ fuel ih =>
    unfold findNewlineAvx2
    split
    · conv_rhs => rw [← take_append_drop 32 text]
      split
      · rename_i inside
        rcases eq_append_cons_of_mem inside with ⟨line, rest, block, plain⟩
        rw [block, append_assoc, cons_append, takeWhile_append_newline plain,
          idxOf_append_of_notMem plain, idxOf_cons_self, Nat.add_zero]
      · rename_i outside
        have blockLength : (text.take 32).length = 32 := by
          rw [length_take]
          omega
        rw [takeWhile_append, takeWhile_of_no_newline outside, if_pos rfl, length_append,
          blockLength, ih]
    · rfl

/-- The loop of `worker_loop` over a chunk, with its length as fuel: the calls of
`parse_log_line`. -/
def chunkLines : ℕ → Bytes → List Bytes
  | 0, _ => []
  | fuel + 1, text =>
    if text = [] then []
    else
      let lineLength := findNewlineAvx2 text.length text
      let rest := chunkLines fuel (text.drop (lineLength + 1))
      if lineLength = 0 then rest else text.take lineLength :: rest

theorem chunkLines_eq_pieces (enough : text.length ≤ fuel) :
    chunkLines fuel text = Lines.pieces 10 text := by
  induction fuel generalizing text with
  | zero =>
    rw [List.length_eq_zero_iff.mp (Nat.le_zero.mp enough)]
    rfl
  | succ fuel ih =>
    unfold chunkLines
    split
    · rename_i empty
      rw [empty]
      rfl
    · rename_i nonempty
      dsimp only
      rw [findNewlineAvx2_eq]
      by_cases hasNewline : 10 ∈ text
      · rcases eq_append_cons_of_mem hasNewline with ⟨line, rest, rfl, plain⟩
        have behind : (line ++ 10 :: rest).drop (line.length + 1) = rest := by
          simp
        have shorter : rest.length ≤ fuel := by
          rw [length_append, length_cons] at enough
          omega
        rw [takeWhile_append_newline plain, behind, ih shorter, Lines.pieces_append_cons,
          Lines.pieces_of_not_mem plain]
        rcases line with _ | ⟨byte, line⟩ <;> simp
      · have behind : text.drop (text.length + 1) = [] := drop_of_length_le (by omega)
        have emptyShort : ([] : Bytes).length ≤ fuel := by
          simp
        rw [takeWhile_of_no_newline hasNewline, behind, ih emptyShort,
          Lines.pieces_of_not_mem hasNewline]
        simp [nonempty, Lines.pieces]

/-- The loop of the main thread for `chunk_end`, as the length of the chunk. -/
def chunkLength (text : Bytes) : ℕ :=
  if text.length ≤ 4096 then text.length
  else
    let scanned := 4096 + ((text.drop 4096).takeWhile (· ≠ 10)).length
    if scanned < text.length then scanned + 1 else scanned

def enqueuedChunks : ℕ → Bytes → List Bytes
  | 0, _ => []
  | fuel + 1, text =>
    if text = [] then []
    else text.take (chunkLength text) :: enqueuedChunks fuel (text.drop (chunkLength text))

theorem chunkLength_cuts (nonempty : text ≠ []) :
    0 < chunkLength text ∧
      (text.drop (chunkLength text) = [] ∨
        ∃ line, text.take (chunkLength text) = line ++ [10]) := by
  have positive := List.length_pos_iff.mpr nonempty
  unfold chunkLength
  split
  · exact ⟨positive, Or.inl (drop_of_length_le (le_refl _))⟩
  · have back : (text.drop 4096).length = text.length - 4096 := length_drop
    by_cases hasNewline : 10 ∈ text.drop 4096
    · rcases eq_append_cons_of_mem hasNewline with ⟨line, rest, split, plain⟩
      have whole : text = text.take 4096 ++ line ++ [10] ++ rest := by
        conv_lhs => rw [← take_append_drop 4096 text, split]
        simp
      have front : (text.take 4096 ++ line ++ [10]).length = 4096 + line.length + 1 := by
        simp
        omega
      rw [split, length_append, length_cons] at back
      rw [split, takeWhile_append_newline plain, if_pos (by omega)]
      refine ⟨by omega, Or.inr ⟨text.take 4096 ++ line, ?_⟩⟩
      conv_lhs => rw [whole]
      rw [← front, take_left]
    · rw [takeWhile_of_no_newline hasNewline, if_neg (by omega)]
      exact ⟨by omega, Or.inl (drop_of_length_le (by omega))⟩

theorem flatMap_enqueuedChunks (enough : text.length ≤ fuel) :
    (enqueuedChunks fuel text).flatMap (fun chunk => chunkLines chunk.length chunk) =
      Lines.pieces 10 text := by
  induction fuel generalizing text with
  | zero =>
    rw [List.length_eq_zero_iff.mp (Nat.le_zero.mp enough)]
    rfl
  | succ fuel ih =>
    unfold enqueuedChunks
    split
    · rename_i empty
      rw [empty]
      rfl
    · rename_i nonempty
      rcases chunkLength_cuts nonempty with ⟨positive, cut⟩
      have shorter : (text.drop (chunkLength text)).length ≤ fuel := by
        rw [length_drop]
        omega
      rw [flatMap_cons, ih shorter, chunkLines_eq_pieces (le_refl _)]
      conv_rhs => rw [← take_append_drop (chunkLength text) text]
      rcases cut with last | ⟨line, behindNewline⟩
      · rw [last, append_nil]
        exact append_nil _
      · rw [behindNewline, append_assoc, singleton_append, Lines.pieces_append_cons,
          Lines.pieces_append_cons]
        simp [Lines.pieces]

/-- The log with the variables of the main loop between two turns: `mf.size`, `processed_bytes` and
the chunks enqueued so far. -/
structure Follower where
  file : Bytes
  mapped : ℕ
  processed : ℕ
  chunks : List Bytes
  mappedInFile : mapped ≤ file.length
  caughtUp : processed = mapped

def Follower.start (content : Bytes) : Follower where
  file := content
  mapped := content.length
  processed := content.length
  chunks := []
  mappedInFile := le_refl _
  caughtUp := rfl

namespace Follower

variable (limit : ℕ) (follower : Follower)

/-- `mf.size` after the look at the size of the file, which is at most `MAX_MMAP_SIZE`. -/
def seenSize : ℕ :=
  if follower.mapped ≤ follower.processed ∧ follower.mapped < follower.file.length ∧
      follower.file.length ≤ limit then follower.file.length
  else follower.mapped

theorem mapped_le_seenSize : follower.mapped ≤ follower.seenSize limit := by
  unfold seenSize
  split
  · exact follower.mappedInFile
  · exact le_refl _

theorem seenSize_le : follower.seenSize limit ≤ follower.file.length := by
  unfold seenSize
  split
  · exact le_refl _
  · exact follower.mappedInFile

/-- The bytes between `p` and the end of the map. -/
def newText : Bytes := (follower.file.take (follower.seenSize limit)).drop follower.processed

theorem length_newText :
    (follower.newText limit).length = follower.seenSize limit - follower.processed := by
  rw [newText, length_drop, length_take_of_le (follower.seenSize_le limit)]

def turn : Follower where
  file := follower.file
  mapped := follower.seenSize limit
  processed := follower.processed + (follower.newText limit).length
  chunks := follower.chunks ++
    enqueuedChunks (follower.newText limit).length (follower.newText limit)
  mappedInFile := follower.seenSize_le limit
  caughtUp := by
    have later := follower.mapped_le_seenSize limit
    have caughtUp := follower.caughtUp
    rw [length_newText]
    omega

def append (bytes : Bytes) : Follower where
  file := follower.file ++ bytes
  mapped := follower.mapped
  processed := follower.processed
  chunks := follower.chunks
  mappedInFile := by
    have inFile := follower.mappedInFile
    rw [List.length_append]
    omega
  caughtUp := follower.caughtUp

def observed : Bytes := follower.file.take follower.processed

/-- The texts passed to `parse_log_line`, chunk after chunk. -/
def delivered : List Bytes :=
  follower.chunks.flatMap fun chunk => chunkLines chunk.length chunk

def DeliversLines : Prop := Lines.Delivered 10 follower.observed follower.delivered

theorem observed_append (bytes : Bytes) : (follower.append bytes).observed = follower.observed := by
  have inside : follower.processed ≤ follower.file.length := by
    rw [follower.caughtUp]
    exact follower.mappedInFile
  exact take_append_of_le_length inside

theorem observed_turn :
    (follower.turn limit).observed = follower.observed ++ follower.newText limit := by
  have later := follower.mapped_le_seenSize limit
  have caughtUp := follower.caughtUp
  have seen : follower.processed + (follower.newText limit).length = follower.seenSize limit := by
    rw [length_newText]
    omega
  have sooner : follower.file.take follower.processed =
      (follower.file.take (follower.seenSize limit)).take follower.processed := by
    rw [take_take, min_eq_left (by omega)]
  show follower.file.take (follower.processed + (follower.newText limit).length) =
    follower.file.take follower.processed ++ follower.newText limit
  rw [seen, sooner, newText, take_append_drop]

theorem delivered_turn :
    (follower.turn limit).delivered =
      follower.delivered ++ Lines.pieces 10 (follower.newText limit) := by
  unfold delivered turn
  rw [flatMap_append, flatMap_enqueuedChunks (le_refl _)]

theorem nil_not_mem_delivered : [] ∉ follower.delivered := by
  intro mem
  rcases List.mem_flatMap.mp mem with ⟨chunk, -, inChunk⟩
  rw [chunkLines_eq_pieces (le_refl _)] at inChunk
  simpa using (List.mem_filter.mp inChunk).2

end Follower

inductive FollowEvent where
  | append (bytes : Bytes)
  | turn
  deriving DecidableEq, Repr

def followStep (limit : ℕ) (follower : Follower) : FollowEvent → Follower
  | .append bytes => follower.append bytes
  | .turn => follower.turn limit

/-- A turn that sees new text tears no line: what it had seen ended with a newline, or the new text
begins with one and the unterminated line had been passed on. -/
def TearsNoLine (limit : ℕ) (follower : Follower) : FollowEvent → Prop
  | .append _ => True
  | .turn =>
    let seen := follower.observed
    let new := follower.newText limit
    new = [] ∨ Lines.tail 10 seen = [] ∨ new.head? = some 10 ∧
      (follower.delivered = Lines.filled 10 seen ++ [Lines.tail 10 seen] ∨
        Lines.pieces 10 new = Lines.tail 10 seen :: Lines.filled 10 new)

theorem deliversLines_followStep_iff {limit : ℕ} {follower : Follower} {event : FollowEvent}
    (delivers : follower.DeliversLines) :
    (followStep limit follower event).DeliversLines ↔ TearsNoLine limit follower event := by
  cases event with
  | append bytes =>
    apply iff_of_true _ trivial
    unfold Follower.DeliversLines followStep
    rw [Follower.observed_append]
    exact delivers
  | turn =>
    unfold followStep Follower.DeliversLines
    rw [Follower.observed_turn, Follower.delivered_turn]
    by_cases nothing : follower.newText limit = []
    · apply iff_of_true _ (Or.inl nothing)
      have none : Lines.pieces 10 ([] : Bytes) = [] := rfl
      rw [nothing, none, append_nil, append_nil]
      exact delivers
    · rw [Lines.delivered_append_pieces_iff follower.nil_not_mem_delivered delivers nothing]
      simp [TearsNoLine, nothing]

end LogGuardian
