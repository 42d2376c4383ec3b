import LogGuardian.Lib.Machine

/-!
# Connections of the tarpit server

The loop of `tarpit_thread` as a step relation: a completion is picked from the sends in flight, so
the events of a list can come in any order and arbitrarily late. `serial` and `inFlight` are history
that the code does not keep: a completion carries only the index of its slot.
-/

namespace LogGuardian

abbrev tarpitMaxConns : ℕ := 8192

/-- `serial` tells the connections of a slot apart. -/
structure TarpitConn where
  fd : ℤ := -1
  nextSendNs : UInt64 := 0
  phase : UInt8 := 0
  bytesSent : UInt64 := 0
  connectedAtNs : UInt64 := 0
  serial : ℕ := 0

/-- `inFlight` holds the submitted sends, each with its slot and its connection. -/
structure TarpitLoop where
  conns : Fin tarpitMaxConns → TarpitConn := fun _ => {}
  statActive : UInt64 := 0
  statTotal : UInt64 := 0
  statBytes : UInt64 := 0
  inFlight : List (Fin tarpitMaxConns × ℕ) := []
  serials : ℕ := 0
  running : Bool := true

namespace TarpitLoop

def allocConnSlot (loop : TarpitLoop) : Option (Fin tarpitMaxConns) :=
  (List.finRange tarpitMaxConns).find? fun slot => (loop.conns slot).fd < 0

def freeConn (loop : TarpitLoop) (slot : Fin tarpitMaxConns) : TarpitLoop :=
  { loop with
    conns := Function.update loop.conns slot { loop.conns slot with fd := -1 }
    statActive := loop.statActive - 1 }

def accept (loop : TarpitLoop) (res : ℤ) (now : UInt64) : TarpitLoop :=
  if 0 ≤ res then
    match loop.allocConnSlot with
    | some slot =>
      { loop with
        conns := Function.update loop.conns slot
          { fd := res, nextSendNs := now + 100 * 1000000, connectedAtNs := now, serial := loop.serials }
        statActive := loop.statActive + 1
        statTotal := loop.statTotal + 1
        serials := loop.serials + 1 }
    | none => loop
  else loop

/-- The turn of a slot in the loop of a timeout. -/
def sendDue (loop : TarpitLoop) (slot : Fin tarpitMaxConns) (now : UInt64) (noSqe : Bool) :
    TarpitLoop :=
  let conn := loop.conns slot
  if conn.fd < 0 ∨ now < conn.nextSendNs then loop
  else if noSqe then loop.freeConn slot
  else
    { loop with
      conns := Function.update loop.conns slot
        { conn with nextSendNs := now + 100 * 1000000, phase := conn.phase + 1 }
      inFlight := loop.inFlight ++ [(slot, conn.serial)] }

def sendDone (loop : TarpitLoop) (index : ℕ) (res : ℤ) : TarpitLoop :=
  match loop.inFlight[index]? with
  | some (slot, _) =>
    let rest := { loop with inFlight := loop.inFlight.eraseIdx index }
    if 0 < res then
      { rest with
        conns := Function.update rest.conns slot
          { rest.conns slot with bytesSent := (rest.conns slot).bytesSent + 1 }
        statBytes := rest.statBytes + 1 }
    else rest.freeConn slot
  | none => loop

/-- `tarpit_server_stop`: once the thread has ended, `free_conn` on every slot. -/
def stop (loop : TarpitLoop) : TarpitLoop :=
  (List.finRange tarpitMaxConns).foldl freeConn { loop with running := false, inFlight := [] }

inductive Event where
  | accept (res : ℤ) (now : UInt64)
  | sendDue (slot : Fin tarpitMaxConns) (now : UInt64) (noSqe : Bool)
  | sendDone (index : ℕ) (res : ℤ)
  | stop

/-- The thread handles no event once it has been stopped. -/
def step (loop : TarpitLoop) : Event → TarpitLoop
  | .accept res now => if loop.running then loop.accept res now else loop
  | .sendDue slot now noSqe => if loop.running then loop.sendDue slot now noSqe else loop
  | .sendDone index res => if loop.running then loop.sendDone index res else loop
  | .stop => loop.stop

def openConns (conns : Fin tarpitMaxConns → TarpitConn) : ℕ :=
  ∑ slot, if 0 ≤ (conns slot).fd then 1 else 0

def Counted (loop : TarpitLoop) : Prop := loop.statActive.toNat = openConns loop.conns

/-- A completion comes while the connection of its send is open, and a stop while every slot is. -/
def InTime (loop : TarpitLoop) : Event → Prop
  | .sendDone index _ => ∀ send ∈ loop.inFlight[index]?,
      0 ≤ (loop.conns send.1).fd ∧ (loop.conns send.1).serial = send.2
  | .stop => ∀ slot, 0 ≤ (loop.conns slot).fd
  | _ => True

/-- A completion changes only the connection of its send. -/
def ChangesOwn (loop : TarpitLoop) (index : ℕ) (res : ℤ) : Prop :=
  ∀ slot, (loop.sendDone index res).conns slot ≠ loop.conns slot →
    loop.inFlight[index]? = some (slot, (loop.conns slot).serial)

section Counter

variable {loop : TarpitLoop} {slot : Fin tarpitMaxConns} {conn : TarpitConn}

theorem openConns_update (conns : Fin tarpitMaxConns → TarpitConn) :
    openConns (Function.update conns slot conn) + (if 0 ≤ (conns slot).fd then 1 else 0) =
      openConns conns + if 0 ≤ conn.fd then 1 else 0 := by
  have moved : (fun other => if 0 ≤ (Function.update conns slot conn other).fd then 1 else 0) =
      Function.update (fun other => if 0 ≤ (conns other).fd then 1 else 0) slot
        (if 0 ≤ conn.fd then 1 else 0) := by
    funext other
    by_cases same : other = slot
    · rw [same, Function.update_self, Function.update_self]
    · rw [Function.update_of_ne same, Function.update_of_ne same]
  rw [openConns, openConns, moved, Finset.sum_update_of_mem (Finset.mem_univ slot),
    ← Finset.add_sum_erase _ (fun other => if 0 ≤ (conns other).fd then 1 else 0)
      (Finset.mem_univ slot), Finset.sdiff_singleton_eq_erase]
  omega

theorem openConns_le (conns : Fin tarpitMaxConns → TarpitConn) : openConns conns ≤ tarpitMaxConns := by
  rw [openConns, ← Finset.card_filter]
  exact (Finset.card_le_univ _).trans (Fintype.card_fin _).le

theorem openConns_eq_max_iff (conns : Fin tarpitMaxConns → TarpitConn) :
    openConns conns = tarpitMaxConns ↔ ∀ slot, 0 ≤ (conns slot).fd := by
  rw [openConns, ← Finset.card_filter]
  have whole := Finset.card_eq_iff_eq_univ (Finset.univ.filter fun slot => 0 ≤ (conns slot).fd)
  rw [Fintype.card_fin] at whole
  rw [whole, Finset.filter_eq_self]
  exact ⟨fun every slot => every slot (Finset.mem_univ slot), fun every slot _ => every slot⟩

theorem openConns_update_of_iff (same : 0 ≤ conn.fd ↔ 0 ≤ (loop.conns slot).fd) :
    openConns (Function.update loop.conns slot conn) = openConns loop.conns := by
  have moved := @openConns_update slot conn loop.conns
  simp only [same] at moved
  omega

theorem Counted.freeConn (counted : loop.Counted) (isOpen : 0 ≤ (loop.conns slot).fd) :
    (loop.freeConn slot).Counted := by
  have moved := @openConns_update slot { loop.conns slot with fd := -1 } loop.conns
  rw [if_pos isOpen, if_neg (by decide : ¬(0 : ℤ) ≤ -1), ← counted] at moved
  rw [Counted, TarpitLoop.freeConn, UInt64.toNat_sub_of_le _ _ (UInt64.le_iff_toNat_le.mpr ?_)]
  · exact Nat.sub_eq_of_eq_add moved.symm
  · change 1 ≤ _
    omega

theorem Counted.opened (counted : loop.Counted) (isFree : ¬0 ≤ (loop.conns slot).fd)
    (isOpen : 0 ≤ conn.fd) :
    (loop.statActive + 1).toNat = openConns (Function.update loop.conns slot conn) := by
  have room := openConns_le (Function.update loop.conns slot conn)
  have moved := @openConns_update slot conn loop.conns
  rw [if_neg isFree, if_pos isOpen, ← counted] at moved
  have size : tarpitMaxConns = 8192 := rfl
  rw [UInt64.toNat_add, Nat.mod_eq_of_lt]
  · change _ + 1 = _
    omega
  · change _ + 1 < _
    omega

theorem Counted.accept (counted : loop.Counted) (res : ℤ) (now : UInt64) :
    (loop.accept res now).Counted := by
  unfold TarpitLoop.accept
  split_ifs with isOpen
  case neg => exact counted
  case pos =>
  split
  case h_2 => exact counted
  case h_1 slot found =>
  have free := List.find?_some found
  exact counted.opened (by simpa using free) isOpen

theorem Counted.sendDue (counted : loop.Counted) (slot : Fin tarpitMaxConns) (now : UInt64)
    (noSqe : Bool) : (loop.sendDue slot now noSqe).Counted := by
  unfold TarpitLoop.sendDue
  dsimp only
  split_ifs with idle full
  · exact counted
  · exact counted.freeConn (by omega)
  · rw [Counted, openConns_update_of_iff]
    · exact counted
    · exact Iff.rfl

theorem Counted.sendDone (counted : loop.Counted) {index : ℕ} {res : ℤ}
    (inTime : loop.InTime (.sendDone index res)) : (loop.sendDone index res).Counted := by
  unfold TarpitLoop.sendDone
  split
  case h_2 => exact counted
  case h_1 slot serial submitted =>
  dsimp only
  split_ifs
  · rw [Counted, openConns_update_of_iff]
    · exact counted
    · exact Iff.rfl
  · have rest : Counted { loop with inFlight := loop.inFlight.eraseIdx index } := counted
    exact rest.freeConn (inTime _ submitted).1

theorem statActive_foldl_freeConn (slots : List (Fin tarpitMaxConns)) :
    (slots.foldl TarpitLoop.freeConn loop).statActive =
      loop.statActive - UInt64.ofNat slots.length := by
  induction slots generalizing loop with
  | nil => simp
  | cons slot slots ih =>
    rw [List.foldl_cons, ih, List.length_cons, TarpitLoop.freeConn, UInt64.ofNat_add]
    grind

theorem fd_foldl_freeConn {slots : List (Fin tarpitMaxConns)} (isIn : slot ∈ slots) :
    ((slots.foldl TarpitLoop.freeConn loop).conns slot).fd = -1 := by
  induction slots using List.reverseRecOn with
  | nil => simp at isIn
  | append_singleton slots last ih =>
    rw [List.foldl_append, List.foldl_cons, List.foldl_nil, TarpitLoop.freeConn]
    by_cases same : slot = last
    · simp [same]
    · simp only [Function.update_of_ne same]
      exact ih (by simpa [same] using isIn)

/-- `free_conn` lowers the counter for every slot, whether or not it was open. -/
theorem Counted.stop_iff (counted : loop.Counted) :
    loop.stop.Counted ↔ ∀ slot, 0 ≤ (loop.conns slot).fd := by
  have closed : openConns loop.stop.conns = 0 := by
    rw [openConns, Finset.sum_eq_zero]
    intro slot _
    rw [TarpitLoop.stop, fd_foldl_freeConn (List.mem_finRange slot)]
    decide
  have lowered : loop.stop.statActive = loop.statActive - UInt64.ofNat tarpitMaxConns := by
    rw [TarpitLoop.stop, statActive_foldl_freeConn, List.length_finRange]
  have isMax : loop.stop.statActive.toNat = 0 ↔ loop.statActive.toNat = tarpitMaxConns := by
    have size : (UInt64.ofNat tarpitMaxConns).toNat = tarpitMaxConns := rfl
    rw [lowered, ← size, UInt64.toNat_inj, ← UInt64.toNat_zero, UInt64.toNat_inj]
    grind
  rw [Counted, closed, isMax, counted, openConns_eq_max_iff]

theorem changesOwn {index : ℕ} {res : ℤ} (inTime : loop.InTime (.sendDone index res)) :
    loop.ChangesOwn index res := by
  intro slot
  unfold TarpitLoop.sendDone
  split
  case h_2 => exact fun changed => absurd rfl changed
  case h_1 sendSlot serial submitted =>
  have own := (inTime _ submitted).2
  intro changed
  have same : slot = sendSlot := by
    by_contra apart
    dsimp only at changed
    split_ifs at changed <;> exact changed (Function.update_of_ne apart _ _)
  rw [submitted, same, own]

end Counter

/-- While no completion outlives its connection and the server is stopped only with every slot in use,
the counter is the number of open slots and a completion changes only the connection of its send.
A stop with a free slot always breaks the count. -/
theorem counted_run (events : List Event) (inTime : Machine.Guarded step InTime {} events) :
    (Machine.run step {} events).Counted ∧
      (∀ index res, (Machine.run step {} events).InTime (.sendDone index res) →
        (Machine.run step {} events).ChangesOwn index res) ∧
      (((Machine.run step {} events).step .stop).Counted ↔
        (Machine.run step {} events).InTime .stop) := by
  have initial : Counted {} := by
    rw [Counted, openConns, Finset.sum_eq_zero fun _ _ => if_neg (by decide : ¬(0 : ℤ) ≤ -1)]
    rfl
  have counted : (Machine.run step {} events).Counted := by
    refine Machine.run_invariant_of_guarded Counted ?_ initial inTime
    intro loop event timely counted
    cases event with
    | accept res now =>
      rw [step]
      split_ifs
      exacts [counted.accept res now, counted]
    | sendDue slot now noSqe =>
      rw [step]
      split_ifs
      exacts [counted.sendDue slot now noSqe, counted]
    | sendDone index res =>
      rw [step]
      split_ifs
      exacts [counted.sendDone timely, counted]
    | stop =>
      rw [step]
      exact counted.stop_iff.mpr timely
  refine ⟨counted, fun _ _ => changesOwn, ?_⟩
  rw [step, InTime]
  exact counted.stop_iff

/-- A connection with one send in flight that fails. -/
theorem counted_one_send :
    Machine.Guarded step InTime {} [.accept 5 0, .sendDue 0 100000000 false, .sendDone 0 (-32)] ∧
      (Machine.run step {} [.accept 5 0, .sendDue 0 100000000 false, .sendDone 0 (-32)]).Counted := by
  have inTime : Machine.Guarded step InTime {}
      [.accept 5 0, .sendDue 0 100000000 false, .sendDone 0 (-32)] := by
    have submitted : (step (step {} (.accept 5 0)) (.sendDue 0 100000000 false)).inFlight[0]? =
        some (0, 0) := by decide +kernel
    refine ⟨trivial, trivial, ?_, trivial⟩
    rw [InTime, submitted]
    rintro _ ⟨⟩
    decide +kernel
  exact ⟨inTime, (counted_run _ inTime).1⟩

def twoSends : TarpitLoop :=
  Machine.run step {} [.accept 5 0, .sendDue 0 100000000 false, .sendDue 0 200000000 false,
    .sendDone 0 (-32), .sendDone 0 (-32)]

/-- The counter is below zero. -/
theorem twoSends_counted_twice : twoSends.statActive = -1 ∧ ¬twoSends.Counted := by
  have below : twoSends.statActive = -1 := by decide +kernel
  refine ⟨below, fun counted => ?_⟩
  have bound := openConns_le twoSends.conns
  rw [← counted, below] at bound
  exact absurd bound (by decide)

end TarpitLoop

end LogGuardian
