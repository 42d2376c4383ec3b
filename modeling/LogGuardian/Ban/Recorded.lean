import LogGuardian.Ban.Pipeline
import LogGuardian.IpMap.Basic

/-!
# Recorded bans

The callers of the pipeline in `main.c` with the books they keep: the flag of the record, the
counters and the rows of the database. Each caller is a function of the layers, so that what it
writes down can be compared with what some layer accepted.
-/

namespace LogGuardian

universe u

inductive AlertLevel where
  | info | warn | crit
  deriving DecidableEq, Repr

structure Alert where
  level : AlertLevel
  message : Bytes
  deriving DecidableEq, Repr

/-- The fields of `Alert` that the stage does not depend on. -/
structure AlertRecord extends Alert where
  ip : Bytes := []
  ts : ℤ := 0
  mitreId : Bytes := []
  mitreTactic : Bytes := []
  incidentId : Bytes := []
  deriving DecidableEq, Repr

/-- The stage that an alert leads to from a stage (`FSM_CLEAN` is 0, `FSM_PERSISTENT` is 4). -/
def siemNextStage (cur : ℕ) (alert : Alert) : ℕ :=
  match alert.level with
  | .crit =>
    if hasLit alert.message (ascii "BEACONING") then
      if cur = 2 ∨ cur = 4 then 4 else 3
    else if hasLit alert.message (ascii "SQL") || hasLit alert.message (ascii "INJECTION") ||
        hasLit alert.message (ascii "PAYLOAD") then
      if cur = 3 ∨ cur = 4 then 4 else 2
    else if cur < 2 then 2 else cur
  | .warn => if cur < 1 then 1 else cur
  | .info => cur

/-- `siem_update`: the record, whose stage never falls, and the TTL of a ban (-1 for ever). -/
def siemUpdate (record : IpRecord) (alert : Alert) (baseBanTtl : ℤ) : IpRecord × ℤ :=
  let next := siemNextStage record.threatStage alert
  ({ record with threatStage := max record.threatStage next },
    match next with
    | 2 => toCInt (baseBanTtl * 2)
    | 3 => toCInt (baseBanTtl * 4)
    | 4 => -1
    | _ => baseBanTtl)

/-- A row that `db_log_ban_event` writes. -/
structure BanRow where
  ip : Bytes
  reason : Bytes
  ts : ℤ
  deriving DecidableEq, Repr

structure BanBooks where
  record : IpRecord
  banAttempts : ℕ := 0
  banSuccess : ℕ := 0
  banFail : ℕ := 0
  rows : List BanRow := []

/-- A ban has been written down: the flag, the counter or a row. -/
def BanBooks.Records (before after : BanBooks) : Prop :=
  (before.record.banned = false ∧ after.record.banned = true) ∨
    before.banSuccess < after.banSuccess ∨ before.rows ≠ after.rows

/-- `INT_MAX`, the end of a permanent ban. -/
def foreverTs : ℤ := 2147483647

structure Banning (State : Type u) where
  books : BanBooks
  log : List (Request × Bool)
  state : State

section Callers

variable {State : Type u} (layers : Layers State) (whitelist : Bytes → Bool)

/-- The worker loop on a critical alert, from its test of `banned` on. -/
def autoBan (allowBan mayBan dbEnabled : Bool) (alert : Alert) (baseBanTtl now : ℤ)
    (books : BanBooks) (state : State) : Banning State :=
  if whitelist books.record.ip ∨ !allowBan ∨ !mayBan ∨ books.record.banned then ⟨books, [], state⟩
  else
    let siem := siemUpdate books.record alert baseBanTtl
    let reason := if alert.message = [] then ascii "auto-alert" else alert.message
    let attempted := { books with record := siem.1, banAttempts := books.banAttempts + 1 }
    let answer := banPipelineBan layers whitelist books.record.ip state
    let after :=
      if answer.rc = 0 then
        { attempted with
          record := { siem.1 with
            banned := true
            banUntilTs := if siem.2 < 0 then foreverTs else now + siem.2 }
          banSuccess := books.banSuccess + 1
          rows := if dbEnabled then books.rows ++ [⟨books.record.ip, reason, now⟩] else books.rows }
      else { attempted with banFail := books.banFail + 1 }
    ⟨after, answer.log, answer.state⟩

def trapBan (dbEnabled : Bool) (ts : ℤ) (books : BanBooks) (state : State) : Banning State :=
  if whitelist books.record.ip ∨ books.record.banned then ⟨books, [], state⟩
  else
    let staged := { books.record with threatStage := 4 }
    let answer := banPipelineBan layers whitelist books.record.ip state
    let after :=
      if answer.rc = 0 then
        { books with
          record := { staged with banned := true, banUntilTs := foreverTs }
          banSuccess := books.banSuccess + 1
          rows :=
            if dbEnabled then books.rows ++ [⟨books.record.ip, ascii "honey-token-trap", ts⟩]
            else books.rows }
      else { books with record := staged }
    ⟨after, answer.log, answer.state⟩

/-- `manual_ban_top_ip` on the record at the top of the heap. -/
def manualBan (allowBan dbEnabled : Bool) (baseBanTtl now : ℤ) (books : BanBooks) (state : State) :
    Banning State :=
  if !allowBan ∨ books.record.ip = [] ∨ books.record.banned then ⟨books, [], state⟩
  else
    let attempted := { books with banAttempts := books.banAttempts + 1 }
    let answer := banPipelineBan layers whitelist books.record.ip state
    let after :=
      if answer.rc = 0 then
        { attempted with
          record := { books.record with banned := true, banUntilTs := now + baseBanTtl }
          banSuccess := books.banSuccess + 1
          rows :=
            if dbEnabled then books.rows ++ [⟨books.record.ip, ascii "manual-tui", now⟩]
            else books.rows }
      else { attempted with banFail := books.banFail + 1 }
    ⟨after, answer.log, answer.state⟩

/-- The branch of `handle_xdp_packet` for a suspicious TLS hello. -/
def xdpTlsBan (baseBanTtl now : ℤ) (books : BanBooks) (state : State) : Banning State :=
  if books.record.banned then ⟨books, [], state⟩
  else
    let answer := banPipelineBan layers whitelist books.record.ip state
    ⟨{ books with
        record := { books.record with banned := true, banUntilTs := now + baseBanTtl }
        banAttempts := books.banAttempts + 1 }, answer.log, answer.state⟩

/-- The branch of `handle_xdp_packet` for a payload that matches a pattern. -/
def xdpPayloadBan (baseBanTtl now : ℤ) (books : BanBooks) (state : State) : Banning State :=
  let counted := { books.record with
    cnt := { books.record.cnt with sqliHits := incrLong books.record.cnt.sqliHits } }
  if books.record.banned then ⟨{ books with record := counted }, [], state⟩
  else
    let answer := banPipelineBan layers whitelist books.record.ip state
    ⟨{ books with
        record := { counted with banned := true, banUntilTs := now + baseBanTtl }
        banAttempts := books.banAttempts + 1
        banSuccess := books.banSuccess + 1 }, answer.log, answer.state⟩

inductive BanCaller where
  | autoBan (allowBan mayBan dbEnabled : Bool) (alert : Alert) (baseBanTtl now : ℤ)
  | trapUrl (dbEnabled : Bool) (ts : ℤ)
  | manual (allowBan dbEnabled : Bool) (baseBanTtl now : ℤ)
  | xdpTls (baseBanTtl now : ℤ)
  | xdpPayload (baseBanTtl now : ℤ)

def BanCaller.readsRc : BanCaller → Bool
  | .xdpTls .. | .xdpPayload .. => false
  | _ => true

def BanCaller.run (books : BanBooks) (state : State) : BanCaller → Banning State
  | .autoBan allowBan mayBan dbEnabled alert baseBanTtl now =>
    LogGuardian.autoBan layers whitelist allowBan mayBan dbEnabled alert baseBanTtl now books state
  | .trapUrl dbEnabled ts => trapBan layers whitelist dbEnabled ts books state
  | .manual allowBan dbEnabled baseBanTtl now =>
    manualBan layers whitelist allowBan dbEnabled baseBanTtl now books state
  | .xdpTls baseBanTtl now => xdpTlsBan layers whitelist baseBanTtl now books state
  | .xdpPayload baseBanTtl now => xdpPayloadBan layers whitelist baseBanTtl now books state

theorem log_run (caller : BanCaller) (books : BanBooks) (state : State) :
    (caller.run layers whitelist books state).log = [] ∨
      (caller.run layers whitelist books state).log =
        (banPipelineBan layers whitelist books.record.ip state).log := by
  cases caller with
  | autoBan allowBan mayBan dbEnabled alert baseBanTtl now =>
    simp only [BanCaller.run, autoBan]
    split_ifs <;> simp
  | trapUrl dbEnabled ts =>
    simp only [BanCaller.run, trapBan]
    split_ifs <;> simp
  | manual allowBan dbEnabled baseBanTtl now =>
    simp only [BanCaller.run, manualBan]
    split_ifs <;> simp
  | xdpTls baseBanTtl now =>
    simp only [BanCaller.run, xdpTlsBan]
    split_ifs <;> simp
  | xdpPayload baseBanTtl now =>
    simp only [BanCaller.run, xdpPayloadBan]
    split_ifs <;> simp

theorem rc_eq_zero_of_records {caller : BanCaller} (reads : caller.readsRc = true)
    {books : BanBooks} {state : State}
    (records : books.Records (caller.run layers whitelist books state).books) :
    (banPipelineBan layers whitelist books.record.ip state).rc = 0 := by
  by_contra refused
  unfold BanBooks.Records at records
  cases caller with
  | autoBan allowBan mayBan dbEnabled alert baseBanTtl now =>
    simp only [BanCaller.run, autoBan, siemUpdate] at records
    split_ifs at records <;> simp_all
  | trapUrl dbEnabled ts =>
    simp only [BanCaller.run, trapBan] at records
    split_ifs at records <;> simp_all
  | manual allowBan dbEnabled baseBanTtl now =>
    simp only [BanCaller.run, manualBan, if_neg refused] at records
    split_ifs at records <;> simp_all
  | xdpTls baseBanTtl now => simp [BanCaller.readsRc] at reads
  | xdpPayload baseBanTtl now => simp [BanCaller.readsRc] at reads

theorem records_of_not_readsRc {caller : BanCaller} (blind : caller.readsRc = false)
    {books : BanBooks} (notBanned : books.record.banned = false) (state : State) :
    books.Records (caller.run layers whitelist books state).books := by
  left
  cases caller with
  | xdpTls baseBanTtl now => simp [BanCaller.run, xdpTlsBan, notBanned]
  | xdpPayload baseBanTtl now => simp [BanCaller.run, xdpPayloadBan, notBanned]
  | _ => simp [BanCaller.readsRc] at blind

theorem not_records_of_banned {caller : BanCaller} (blind : caller.readsRc = false)
    {books : BanBooks} (banned : books.record.banned = true) (state : State) :
    ¬books.Records (caller.run layers whitelist books state).books := by
  unfold BanBooks.Records
  cases caller with
  | xdpTls baseBanTtl now => simp [BanCaller.run, xdpTlsBan, banned]
  | xdpPayload baseBanTtl now => simp [BanCaller.run, xdpPayloadBan, banned]
  | _ => simp [BanCaller.readsRc] at blind

/-- A ban that returns 0, and a ban that a caller writes down, is one that a layer accepted, exactly
if the address is not protected and the caller reads the return code, has nothing to write or the
layers accept the address when they are asked for it in turn. -/
theorem recorded_ban_accepted_iff (books : BanBooks) (state : State) (caller : BanCaller) :
    (((banPipelineBan layers whitelist books.record.ip state).rc = 0 →
        Attempt.Accepted (banPipelineBan layers whitelist books.record.ip state).log) ∧
      (books.Records (caller.run layers whitelist books state).books →
        Attempt.Accepted (banPipelineBan layers whitelist books.record.ip state).log)) ↔
      ¬(isValidIp books.record.ip = true ∧
          (whitelist books.record.ip = true ∨ isReservedBanTarget books.record.ip = true)) ∧
        (caller.readsRc = true ∨ books.record.banned = true ∨
          isValidIp books.record.ip = true ∧
            Attempt.Accepted (tryLayers layers books.record.ip state).log) := by
  have unasked : ¬Attempt.Accepted ([] : List (Request × Bool)) := by simp [Attempt.Accepted]
  -- An address that is not protected: the caller is right if it reads the code or a layer accepts.
  have callerRight (honest : (banPipelineBan layers whitelist books.record.ip state).rc = 0 →
        Attempt.Accepted (banPipelineBan layers whitelist books.record.ip state).log) :
      (books.Records (caller.run layers whitelist books state).books →
        Attempt.Accepted (banPipelineBan layers whitelist books.record.ip state).log) ↔
      (caller.readsRc = true ∨ books.record.banned = true ∨
        Attempt.Accepted (banPipelineBan layers whitelist books.record.ip state).log) := by
    rcases reads : caller.readsRc with _ | _
    · rcases banned : books.record.banned with _ | _
      · simp [records_of_not_readsRc layers whitelist reads banned state]
      · simp [not_records_of_banned layers whitelist reads banned state]
    · simp only [true_or, iff_true]
      exact fun records => honest (rc_eq_zero_of_records layers whitelist reads records)
  rcases banPipelineBan_eq layers whitelist books.record.ip state with
    ⟨invalid, refused⟩ | ⟨valid, isProtected, skipped⟩ | ⟨valid, notListed, notReserved, log, rc⟩
  · have honest : (banPipelineBan layers whitelist books.record.ip state).rc = 0 →
        Attempt.Accepted (banPipelineBan layers whitelist books.record.ip state).log := by
      simp [refused]
    rw [callerRight honest, refused]
    simp [invalid, unasked]
  · simp only [valid, isProtected, and_self, not_true_eq_false, false_and, iff_false]
    exact fun right => unasked (by simpa [skipped] using right.1 (by rw [skipped]))
  · have honest : (banPipelineBan layers whitelist books.record.ip state).rc = 0 →
        Attempt.Accepted (banPipelineBan layers whitelist books.record.ip state).log := by
      rw [log]
      exact fun success => (honest_tryLayers layers _ state).mp (rc.mp success)
    rw [callerRight honest, log]
    simp only [valid, notListed, notReserved, Bool.false_eq_true, or_self, and_false, true_and,
      not_false_eq_true, and_iff_right_iff_imp]
    rw [← log]
    exact fun _ => honest

end Callers

def constantLayers (answer : Bool) : Layers Unit where
  ipcFd _ := false
  xdpActive _ := false
  xdpMapV4 _ := false
  xdpMapV6 _ := false
  send _ _ := (answer, ())

def newBooks (ip : Bytes) : BanBooks := { record := { ip := ip, state := .ready } }

/-- For a private address the pipeline returns 0 although every layer would refuse, and no layer
is asked; the manual ban writes it down all the same. A payload match writes down a ban that every
layer refuses. -/
theorem refused_bans_recorded :
    (banPipelineBan (constantLayers false) (fun _ => false) (ascii "10.0.0.5") ()).rc = 0 ∧
      (banPipelineBan (constantLayers false) (fun _ => false) (ascii "10.0.0.5") ()).log = [] ∧
      ((BanCaller.manual true true 3600 1000).run (constantLayers false) (fun _ => false)
          (newBooks (ascii "10.0.0.5")) ()).books.record.banned = true ∧
      ((BanCaller.manual true true 3600 1000).run (constantLayers false) (fun _ => false)
          (newBooks (ascii "10.0.0.5")) ()).books.rows =
        [⟨ascii "10.0.0.5", ascii "manual-tui", 1000⟩] ∧
      (banPipelineBan (constantLayers false) (fun _ => false) (ascii "203.0.113.9") ()).rc = -1 ∧
      ((BanCaller.xdpPayload 3600 1000).run (constantLayers false) (fun _ => false)
          (newBooks (ascii "203.0.113.9")) ()).books.banSuccess = 1 := by
  decide

end LogGuardian
