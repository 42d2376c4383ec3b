import LogGuardian.Bytes
import LogGuardian.Lib.LinearProbe
import LogGuardian.Lib.Machine
import LogGuardian.Lib.RateWindow

/-!
# The limit of consult calls per client
-/

namespace LogGuardian

open List

abbrev consultIpSlots : ℕ := 64

instance : NeZero consultIpSlots := ⟨by decide⟩

def consultMaxPerIpPerSec : ℕ := 30

/-- `consult_ip_slot_t`. -/
structure ConsultIpSlot extends RateWindow where
  ip : Bytes := []
  deriving DecidableEq, Repr

abbrev ConsultIps := Fin consultIpSlots → ConsultIpSlot

def consultIpHome (client : Bytes) : Fin consultIpSlots :=
  Fin.ofNat consultIpSlots
    (client.foldl (fun hash byte => (hash ^^^ byte.toUInt32) * 16777619)
      (2166136261 : UInt32)).toNat

def slotNames (ips : ConsultIps) (slot : Fin consultIpSlots) : Option Bytes :=
  if (ips slot).ip = [] then none else some (ips slot).ip

structure ConsultCall where
  client : Bytes
  now : ℤ
  deriving DecidableEq, Repr

/-- An empty client is `"0.0.0.0"`. -/
def ConsultCall.name (call : ConsultCall) : Bytes :=
  if call.client = [] then ascii "0.0.0.0" else call.client

def consultIpRateOk (ips : ConsultIps) (call : ConsultCall) : Bool × ConsultIps :=
  match LinearProbe.probe consultIpHome consultIpSlots (slotNames ips) call.name with
  | none => (false, ips)
  | some slot =>
    let held := ips slot
    let ip := if held.ip = [] then copyInto 48 call.name else held.ip
    let counted : ConsultIpSlot := ⟨held.toRateWindow.tick call.now, ip⟩
    (counted.count ≤ consultMaxPerIpPerSec, Function.update ips slot counted)

structure ConsultHistory where
  ips : ConsultIps := fun _ => {}
  log : List (ConsultCall × Bool) := []

def consultRateStep (history : ConsultHistory) (call : ConsultCall) : ConsultHistory :=
  let (ok, ips) := consultIpRateOk history.ips call
  ⟨ips, history.log ++ [(call, ok)]⟩

def consultRateRun (calls : List ConsultCall) : ConsultHistory :=
  Machine.run consultRateStep {} calls

def ConsultCall.key (call : ConsultCall) : Bytes × ℤ := (call.name, call.now)

/-- The first call of a client in a second is allowed, and at most 30 of them are. -/
structure FairLog (log : List (ConsultCall × Bool)) : Prop where
  first : ∀ before call ok after, log = before ++ (call, ok) :: after →
    (∀ earlier ∈ before, earlier.1.key ≠ call.key) → ok = true
  capped : ∀ key : Bytes × ℤ,
    log.countP (fun entry => decide (entry.1.key = key) && entry.2) ≤ consultMaxPerIpPerSec

/-- Histories that the table has room for. -/
structure Roomy (calls : List ConsultCall) : Prop where
  short : ∀ call ∈ calls, call.name.length < 48
  fewClients : (calls.map ConsultCall.name).toFinset.card ≤ consultIpSlots
  fewCalls : ∀ key, calls.countP (fun call => call.key = key) < 2 ^ 31

def timesOf (name : Bytes) (calls : List ConsultCall) : List ℤ :=
  (calls.filter (·.name = name)).map (·.now)

/-- Every client that has called has a counter of its own. -/
structure ServesAll (calls : List ConsultCall) (ips : ConsultIps) : Prop where
  sound : LinearProbe.Sound consultIpHome consultIpSlots (slotNames ips)
  stored : ∀ slot name, slotNames ips slot = some name →
    name ∈ calls.map ConsultCall.name ∧ (ips slot).Tracks (timesOf name calls)
  present : ∀ call ∈ calls, ∃ slot, slotNames ips slot = some call.name
  free : ∀ slot, slotNames ips slot = none → (ips slot).toRateWindow = {}

section Histories

variable {calls : List ConsultCall} {call : ConsultCall} {ips : ConsultIps}

theorem name_ne_nil : call.name ≠ [] := by
  unfold ConsultCall.name
  split
  · decide
  · assumption

theorem count_timesOf : (timesOf call.name calls).count call.now =
    calls.countP (fun other => other.key = call.key) := by
  rw [timesOf, count, countP_map, countP_filter]
  congr 1
  funext other
  simp [ConsultCall.key]
  exact Bool.and_comm _ _

theorem timesOf_append_self : timesOf call.name (calls ++ [call]) =
    timesOf call.name calls ++ [call.now] := by
  simp [timesOf]

variable {name : Bytes} {slot : Fin consultIpSlots}

theorem timesOf_append_of_ne (other : call.name ≠ name) :
    timesOf name (calls ++ [call]) = timesOf name calls := by
  simp [timesOf, other]

theorem timesOf_eq_nil (unseen : name ∉ calls.map ConsultCall.name) :
    timesOf name calls = [] := by
  rw [timesOf, map_eq_nil_iff, filter_eq_nil_iff]
  intro other inCalls same
  exact unseen (List.mem_map.mpr ⟨other, inCalls, of_decide_eq_true same⟩)

theorem latest_timesOf (latest : ∀ other ∈ calls, other.now ≤ call.now) :
    ∀ time ∈ timesOf name calls, time ≤ call.now := by
  intro time inTimes
  rcases List.mem_map.mp inTimes with ⟨other, inFilter, rfl⟩
  exact latest other (mem_of_mem_filter inFilter)

theorem exists_slot (serves : ServesAll calls ips)
    (fewClients : ((calls ++ [call]).map ConsultCall.name).toFinset.card ≤ consultIpSlots) :
    ∃ slot, LinearProbe.probe consultIpHome consultIpSlots (slotNames ips) call.name =
      some slot := by
  apply LinearProbe.exists_probe serves.sound _ _ fewClients
  · intro slot name held
    simp only [mem_toFinset, map_append, mem_append]
    exact .inl (serves.stored slot name held).1
  · simp

theorem slot_of_probe (serves : ServesAll calls ips) (short : call.name.length < 48)
    (found : LinearProbe.probe consultIpHome consultIpSlots (slotNames ips) call.name =
      some slot) :
    (ips slot).Tracks (timesOf call.name calls) ∧
      (if (ips slot).ip = [] then copyInto 48 call.name else (ips slot).ip) =
        call.name := by
  rcases LinearProbe.probe_eq_some_iff.mp found with ⟨_, _, _, isFree | isHeld, _⟩
  · have unseen : call.name ∉ calls.map ConsultCall.name := by
      intro inNames
      rcases List.mem_map.mp inNames with ⟨other, inCalls, same⟩
      rcases serves.present other inCalls with ⟨slot', held⟩
      rw [same] at held
      exact LinearProbe.not_mem_of_probe_free serves.sound found isFree slot' held
    have empty : (ips slot).ip = [] := by
      by_contra nonempty
      rw [slotNames, if_neg nonempty] at isFree
      cases isFree
    rw [serves.free slot isFree, timesOf_eq_nil unseen, if_pos empty, copyInto,
      take_of_length_le (by omega)]
    exact ⟨RateWindow.tracks_nil, rfl⟩
  · have named : (ips slot).ip ≠ [] ∧ (ips slot).ip = call.name := by
      unfold slotNames at isHeld
      split at isHeld
      · cases isHeld
      · rename_i nonempty
        exact ⟨nonempty, Option.some.inj isHeld⟩
    rw [if_neg named.1]
    exact ⟨(serves.stored slot call.name isHeld).2, named.2⟩

theorem consultIpRateOk_eq (serves : ServesAll calls ips)
    (latest : ∀ other ∈ calls, other.now ≤ call.now) (short : call.name.length < 48)
    (fewCalls : calls.countP (fun other => other.key = call.key) + 1 < 2 ^ 31)
    (found : LinearProbe.probe consultIpHome consultIpSlots (slotNames ips) call.name =
      some slot) :
    consultIpRateOk ips call =
      (decide (calls.countP (fun other => other.key = call.key) + 1 ≤ consultMaxPerIpPerSec),
        Function.update ips slot
          ⟨⟨call.now, calls.countP (fun other => other.key = call.key) + 1⟩, call.name⟩) := by
  rcases slot_of_probe serves short found with ⟨tracks, named⟩
  unfold consultIpRateOk
  rw [found]
  dsimp only
  rw [named, tracks.tick_eq (latest_timesOf latest) (by rw [count_timesOf]; exact fewCalls),
    count_timesOf]
  congr 1
  simp

theorem slotNames_update {counter : RateWindow} (nonempty : name ≠ []) :
    slotNames (Function.update ips slot ⟨counter, name⟩) =
      Function.update (slotNames ips) slot (some name) := by
  funext other
  by_cases same : other = slot
  · rw [same, Function.update_self, slotNames, Function.update_self]
    exact if_neg nonempty
  · rw [Function.update_of_ne same, slotNames, Function.update_of_ne same, slotNames]

theorem ServesAll.step (serves : ServesAll calls ips)
    (latest : ∀ other ∈ calls, other.now ≤ call.now) (short : call.name.length < 48)
    (fewClients : ((calls ++ [call]).map ConsultCall.name).toFinset.card ≤ consultIpSlots)
    (fewCalls : calls.countP (fun other => other.key = call.key) + 1 < 2 ^ 31) :
    ServesAll (calls ++ [call]) (consultIpRateOk ips call).2 := by
  rcases exists_slot serves fewClients with ⟨slot, found⟩
  rcases LinearProbe.probe_eq_some_iff.mp found with ⟨distance, near, atSlot, stops, occupied⟩
  rw [consultIpRateOk_eq serves latest short fewCalls found]
  dsimp only
  have others {other : Fin consultIpSlots} {name : Bytes} (elsewhere : other ≠ slot)
      (held : slotNames ips other = some name) : call.name ≠ name := by
    rintro rfl
    have again := LinearProbe.probe_of_mem serves.sound held
    rw [found] at again
    exact elsewhere (Option.some.inj again).symm
  refine ⟨?_, ?_, ?_, ?_⟩
  · rw [slotNames_update name_ne_nil]
    rcases stops with isFree | isHeld
    · exact LinearProbe.sound_store serves.sound
        (LinearProbe.not_mem_of_probe_free serves.sound found isFree) near atSlot
        fun earlier before => (occupied earlier before).1
    · rw [Function.update_eq_self_iff.mpr isHeld.symm]
      exact serves.sound
  · intro other name held
    rw [slotNames_update name_ne_nil] at held
    by_cases same : other = slot
    · rw [same, Function.update_self, Option.some.injEq] at held
      subst held
      refine ⟨by simp, ?_⟩
      rw [same, Function.update_self, timesOf_append_self]
      have counted := RateWindow.tracks_counted
        (show ∀ time ∈ timesOf call.name calls, time ≤ call.now from latest_timesOf latest)
      rw [count_timesOf] at counted
      exact counted
    · rw [Function.update_of_ne same] at held
      have before := serves.stored other name held
      rw [Function.update_of_ne same, timesOf_append_of_ne (others same held)]
      refine ⟨?_, before.2⟩
      rw [map_append]
      exact mem_append_left _ before.1
  · intro other inCalls
    rw [slotNames_update name_ne_nil]
    rcases List.mem_append.mp inCalls with before | isCall
    · rcases serves.present other before with ⟨slot', held⟩
      by_cases same : slot' = slot
      · refine ⟨slot, ?_⟩
        rw [Function.update_self, ← held, same]
        rcases stops with isFree | isHeld
        · rw [same, isFree] at held
          cases held
        · exact isHeld.symm
      · exact ⟨slot', by rw [Function.update_of_ne same, held]⟩
    · rw [List.mem_singleton.mp isCall]
      exact ⟨slot, Function.update_self ..⟩
  · intro other isFree
    rw [slotNames_update name_ne_nil] at isFree
    by_cases same : other = slot
    · rw [same, Function.update_self] at isFree
      cases isFree
    · rw [Function.update_of_ne same] at isFree ⊢
      exact serves.free other isFree

end Histories

theorem fairLog_of_limitsBy {log : List (ConsultCall × Bool)}
    (limits : LimitsBy ConsultCall.key consultMaxPerIpPerSec log) : FairLog log where
  first := by
    intro before call ok after split fresh
    have none : before.countP (fun entry => entry.1.key = call.key) = 0 := by
      rw [countP_eq_zero]
      intro entry inBefore same
      exact fresh entry inBefore (of_decide_eq_true same)
    have verdict := limits before call ok after split
    rw [none] at verdict
    exact verdict
  capped := by
    intro key
    rw [limits.countP_allowed]
    exact min_le_right _ _

variable {calls : List ConsultCall}

theorem Roomy.of_append {rest : List ConsultCall} (roomy : Roomy (calls ++ rest)) :
    Roomy calls where
  short call inCalls := roomy.short call (mem_append_left _ inCalls)
  fewClients := by
    apply le_trans (Finset.card_le_card _) roomy.fewClients
    intro name inNames
    rw [mem_toFinset] at inNames ⊢
    rw [map_append]
    exact mem_append_left _ inNames
  fewCalls key := by
    have whole := roomy.fewCalls key
    rw [countP_append] at whole
    omega

theorem servesAll_initial : ServesAll [] (fun _ => {}) where
  sound := LinearProbe.sound_empty
  stored := by simp [slotNames]
  present := by simp
  free := by simp

theorem log_consultRateStep (history : ConsultHistory) (call : ConsultCall) :
    (consultRateStep history call).log =
      history.log ++ [(call, (consultIpRateOk history.ips call).1)] := rfl

theorem consultRateRun_snoc (calls : List ConsultCall) (call : ConsultCall) :
    consultRateRun (calls ++ [call]) = consultRateStep (consultRateRun calls) call := by
  rw [consultRateRun, Machine.run_append]
  rfl

theorem consultRateRun_limits (ordered : calls.Pairwise fun first second => first.now ≤ second.now)
    (roomy : Roomy calls) :
    ServesAll calls (consultRateRun calls).ips ∧
      (consultRateRun calls).log.map Prod.fst = calls ∧
      LimitsBy ConsultCall.key consultMaxPerIpPerSec (consultRateRun calls).log := by
  induction calls using reverseRecOn with
  | nil => exact ⟨servesAll_initial, rfl, LimitsBy.nil⟩
  | append_singleton calls call ih =>
    rw [pairwise_append] at ordered
    rcases ih ordered.1 roomy.of_append with ⟨serves, logged, limits⟩
    have latest : ∀ other ∈ calls, other.now ≤ call.now := fun other inCalls =>
      ordered.2.2 other inCalls call (List.mem_singleton.mpr rfl)
    have short := roomy.short call (mem_append_right _ (List.mem_singleton.mpr rfl))
    have fewCalls : calls.countP (fun other => other.key = call.key) + 1 < 2 ^ 31 := by
      have whole := roomy.fewCalls call.key
      rw [countP_append, countP_singleton, if_pos (decide_eq_true rfl)] at whole
      exact whole
    have counts : (consultRateRun calls).log.countP (fun entry => entry.1.key = call.key) =
        calls.countP (fun other => other.key = call.key) := by
      have mapped := @countP_map _ _ (fun other => decide (other.key = call.key)) Prod.fst
        (consultRateRun calls).log
      rw [logged] at mapped
      exact mapped.symm
    rcases exists_slot serves roomy.fewClients with ⟨slot, found⟩
    rw [consultRateRun_snoc]
    refine ⟨serves.step latest short roomy.fewClients fewCalls, ?_, ?_⟩
    · simp [consultRateStep, logged]
    · have step := @LimitsBy.snoc _ _ _ _ _ _ call limits
      rw [counts] at step
      rw [consultRateStep, consultIpRateOk_eq serves latest short fewCalls found]
      exact step

theorem refused_of_full {ips : ConsultIps} {call : ConsultCall} (serves : ServesAll calls ips)
    (full : (calls.map ConsultCall.name).toFinset.card = consultIpSlots)
    (unseen : call.name ∉ calls.map ConsultCall.name) : (consultIpRateOk ips call).1 = false := by
  unfold consultIpRateOk
  split
  · rfl
  · rename_i slot found
    exfalso
    rcases LinearProbe.probe_eq_some_iff.mp found with ⟨_, _, _, isFree | isHeld, _⟩
    · -- the slots of the 64 clients are all slots
      have slotOf : ∀ name ∈ (calls.map ConsultCall.name).toFinset,
          ∃ slot, slotNames ips slot = some name := by
        intro name inNames
        rcases List.mem_map.mp (List.mem_toFinset.mp inNames) with ⟨other, inCalls, rfl⟩
        exact serves.present other inCalls
      choose! place held using slotOf
      have injective : Set.InjOn place (calls.map ConsultCall.name).toFinset := by
        intro left inLeft right inRight same
        have heldLeft := held left inLeft
        rw [same, held right inRight] at heldLeft
        exact (Option.some.inj heldLeft).symm
      have everywhere : (calls.map ConsultCall.name).toFinset.image place = Finset.univ := by
        rw [← Finset.card_eq_iff_eq_univ, Finset.card_image_of_injOn injective, full]
        simp
      rcases Finset.mem_image.mp (everywhere ▸ Finset.mem_univ slot) with ⟨name, inNames, rfl⟩
      rw [held name inNames] at isFree
      cases isFree
    · exact unseen (serves.stored slot call.name isHeld).1

theorem exists_overflow (many : consultIpSlots < (calls.map ConsultCall.name).toFinset.card) :
    ∃ before call after, calls = before ++ call :: after ∧
      (before.map ConsultCall.name).toFinset.card = consultIpSlots ∧
      call.name ∉ before.map ConsultCall.name := by
  induction calls using reverseRecOn with
  | nil => simp at many
  | append_singleton calls call ih =>
    by_cases already : consultIpSlots < (calls.map ConsultCall.name).toFinset.card
    · rcases ih already with ⟨before, newcomer, after, rfl, full, unseen⟩
      exact ⟨before, newcomer, after ++ [call], by simp, full, unseen⟩
    · have names : ((calls ++ [call]).map ConsultCall.name).toFinset =
          insert call.name (calls.map ConsultCall.name).toFinset := by
        ext name
        simp
      have unseen : call.name ∉ calls.map ConsultCall.name := by
        intro inNames
        rw [names, Finset.insert_eq_of_mem (List.mem_toFinset.mpr inNames)] at many
        exact already many
      rw [names, Finset.card_insert_of_notMem (by rwa [mem_toFinset])] at many
      exact ⟨calls, call, [], rfl, by omega, unseen⟩

theorem log_consultRateRun_append (before after : List ConsultCall) :
    ∃ rest, (consultRateRun (before ++ after)).log = (consultRateRun before).log ++ rest := by
  induction after using reverseRecOn with
  | nil => exact ⟨[], by simp⟩
  | append_singleton after call ih =>
    rcases ih with ⟨rest, log⟩
    rw [← append_assoc, consultRateRun_snoc, log_consultRateStep, log]
    exact ⟨_, append_assoc ..⟩

/-- Between clients whose names fit a slot the limiter is fair exactly if they are at most as many
as there are slots. -/
theorem consultRateRun_fair_iff {calls : List ConsultCall}
    (ordered : calls.Pairwise fun first second => first.now ≤ second.now)
    (short : ∀ call ∈ calls, call.name.length < 48)
    (fewCalls : ∀ key, calls.countP (fun call => call.key = key) < 2 ^ 31) :
    FairLog (consultRateRun calls).log ↔
      (calls.map ConsultCall.name).toFinset.card ≤ consultIpSlots := by
  constructor
  · intro fair
    by_contra many
    rcases exists_overflow (not_le.mp many) with ⟨before, call, after, rfl, full, unseen⟩
    have roomy : Roomy before := by
      refine ⟨fun other inBefore => short other (mem_append_left _ inBefore), full.le, ?_⟩
      intro key
      have whole := fewCalls key
      rw [countP_append] at whole
      omega
    rcases consultRateRun_limits (List.pairwise_append.mp ordered).1 roomy with
      ⟨serves, logged, _⟩
    rcases log_consultRateRun_append (before ++ [call]) after with ⟨rest, log⟩
    rw [append_assoc, consultRateRun_snoc, log_consultRateStep, append_assoc] at log
    have allowed := fair.first _ _ _ _ log (by
      intro earlier inLog same
      apply unseen
      rw [← logged, map_map]
      exact List.mem_map.mpr ⟨earlier, inLog, congrArg Prod.fst same⟩)
    rw [refused_of_full serves full unseen] at allowed
    exact Bool.noConfusion allowed
  · intro fewClients
    exact fairLog_of_limitsBy (consultRateRun_limits ordered ⟨short, fewClients, fewCalls⟩).2.2

def twoClients : List ConsultCall :=
  [⟨ascii "198.51.100.7", 1000⟩, ⟨[], 1000⟩, ⟨ascii "198.51.100.7", 1000⟩]

theorem consultRateRun_fair_twoClients :
    (twoClients.Pairwise fun first second => first.now ≤ second.now) ∧
      (∀ call ∈ twoClients, call.name.length < 48) ∧ FairLog (consultRateRun twoClients).log := by
  have ordered : twoClients.Pairwise fun first second => first.now ≤ second.now := by decide
  have short : ∀ call ∈ twoClients, call.name.length < 48 := by decide
  refine ⟨ordered, short, (consultRateRun_fair_iff ordered short ?_).mpr (by decide)⟩
  exact fun _ => List.countP_le_length.trans_lt (by decide)

def crowd : List ConsultCall :=
  (List.range 64).map fun i => ⟨ascii ("10.0.0." ++ toString i), 1000⟩

/-- The next client is refused on its first call, an hour later. -/
theorem consultRateRun_crowd_unfair :
    ¬ FairLog (consultRateRun (crowd ++ [⟨ascii "198.51.100.7", 4600⟩])).log := by
  have roomy : Roomy crowd := by
    refine ⟨by decide +kernel, (List.toFinset_card_le _).trans (by simp [crowd, consultIpSlots]), ?_⟩
    exact fun _ => List.countP_le_length.trans_lt (by decide)
  -- the last numbers tell the addresses apart
  have numbers : ((crowd.map ConsultCall.name).map fun name =>
      (name.drop 7).foldl (fun value byte => value * 10 + byte.toNat - 48) 0) = List.range 64 := by
    decide +kernel
  have distinct : (crowd.map ConsultCall.name).Nodup := List.Nodup.of_map _ (numbers ▸ List.nodup_range)
  have full : (crowd.map ConsultCall.name).toFinset.card = consultIpSlots := by
    rw [List.toFinset_card_of_nodup distinct]
    simp [crowd, consultIpSlots]
  rcases consultRateRun_limits (show crowd.Pairwise _ by decide +kernel) roomy with
    ⟨serves, logged, _⟩
  have refused : (consultIpRateOk (consultRateRun crowd).ips ⟨ascii "198.51.100.7", 4600⟩).1 =
      false := refused_of_full serves full (by decide +kernel)
  intro fair
  have allowed := fair.first (consultRateRun crowd).log ⟨ascii "198.51.100.7", 4600⟩ _ []
    (by rw [consultRateRun_snoc, log_consultRateStep]) (by
      intro earlier inLog same
      have inCrowd : earlier.1 ∈ crowd := logged ▸ List.mem_map.mpr ⟨earlier, inLog, rfl⟩
      have others : ∀ call ∈ crowd, call.now = 1000 := by decide +kernel
      have later := congrArg Prod.snd same
      rw [show earlier.1.key.2 = earlier.1.now from rfl, others _ inCrowd] at later
      exact absurd later (by decide))
  rw [refused] at allowed
  exact Bool.noConfusion allowed

end LogGuardian
