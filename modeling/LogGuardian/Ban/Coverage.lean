import LogGuardian.Ban.Pipeline
import LogGuardian.Firewall.Block

/-!
# What a ban request covers

The block that a request asks a layer to drop.
-/

namespace LogGuardian

universe u

def IpcMessage.banBlock (message : IpcMessage) : Option Block :=
  match message.cmd with
  | .banV4 => (inetPton4 message.ip).map fun bits => .v4 bits message.plen
  | .banV6 => (inetPton6 message.ip).map .v6
  | _ => none

/-- The block that a request bans; `none` for other requests. -/
def Request.banBlock : Request → Option Block
  | .ipcFd message => message.banBlock
  | .ipc message => message.banBlock
  | .xdpUpdateV4 plen address => some (.v4 address plen)
  | .xdpUpdateV6 address => some (.v6 address)
  | .ipset .add v6 ip =>
    if v6 then (inetPton6 ip).map .v6 else (inetPton4 ip).map fun bits => .v4 bits 32
  | _ => none

variable {ip : Bytes} {address : BitVec 32}

theorem copyInto_of_isValidIp {capacity : ℕ} (valid : isValidIp ip = true) (large : 46 ≤ capacity) :
    copyInto capacity ip = ip := by
  apply copyInto_of_length_lt
  have short := length_le_of_isValidIp valid
  omega

theorem slash_not_mem_of_inetPton4 (parsed : inetPton4 ip = some address) : chr '/' ∉ ip := by
  intro slash
  rcases mem_of_inetPton4 parsed slash with digit | dot
  · exact absurd digit (by decide)
  · exact absurd dot (by decide)

theorem ipcSplitCidr_of_inetPton4 (parsed : inetPton4 ip = some address) :
    ipcSplitCidr ip = (ip, 32) := by
  have valid : isValidIp ip = true := by simp [isValidIp, parsed]
  unfold ipcSplitCidr
  rw [copyInto_of_isValidIp valid le_rfl]
  simp [slash_not_mem_of_inetPton4 parsed]

theorem xdpKeyV4_of_inetPton4 (parsed : inetPton4 ip = some address) :
    xdpKeyV4 ip = some (32, address) := by
  have valid : isValidIp ip = true := by simp [isValidIp, parsed]
  have noSlash := slash_not_mem_of_inetPton4 parsed
  have whole : ip.takeWhile (· ≠ chr '/') = ip := by
    rw [List.takeWhile_eq_self_iff]
    intro byte mem
    have other : byte ≠ chr '/' := fun slash => noSlash (slash ▸ mem)
    simpa using other
  unfold xdpKeyV4
  rw [copyInto_of_isValidIp valid (by omega)]
  dsimp only
  rw [whole]
  simp [noSlash, parsed]

section Pipeline

variable {State : Type u} (layers : Layers State)

theorem banBlock_tryLayers {ip : Bytes} (valid : isValidIp ip = true) (state : State) :
    ∀ entry ∈ (tryLayers layers ip state).log, entry.1.banBlock = hostBlock ip := by
  have whole : copyInto 46 ip = ip := copyInto_of_isValidIp valid le_rfl
  let Good : Request → Prop := fun request => request.banBlock = hostBlock ip
  have goodFd : Good (.ipcFd
      (if isIpv6Addr ip then ipcMessage .banV6 ip 128 else ipcMessage .banV4 ip 32)) := by
    rcases family : isIpv6Addr ip with _ | _ <;>
      simp [Good, Request.banBlock, IpcMessage.banBlock, ipcMessage, whole, hostBlock, family]
  have goodIpc : Good (.ipc (if isIpv6Addr ip then daemonIpcBanIpv6 ip else daemonIpcBanIpv4 ip)) := by
    rcases family : isIpv6Addr ip with _ | _
    · rcases inetPton4_of_valid valid family with ⟨address, parsed⟩
      simp [Good, Request.banBlock, IpcMessage.banBlock, daemonIpcBanIpv4, ipcMessage,
        ipcSplitCidr_of_inetPton4 parsed, whole, hostBlock, family]
    · simp [Good, Request.banBlock, IpcMessage.banBlock, daemonIpcBanIpv6, ipcMessage, whole,
        hostBlock, family]
  have goodXdp : ∀ state, ∀ entry ∈ (tryXdpBan layers ip state).log, Good entry.1 := by
    intro state
    unfold tryXdpBan
    split
    · rcases family : isIpv6Addr ip with _ | _
      · rcases inetPton4_of_valid valid family with ⟨address, parsed⟩
        simp only [Bool.false_eq_true, if_false, xdpBanIpv4, xdpKeyV4_of_inetPton4 parsed]
        split
        · apply Attempt.forall_log_once Good
          simp [Good, Request.banBlock, hostBlock, family, parsed]
        · simp [Attempt.fail]
      · rcases inetPton6_of_valid valid family with ⟨address, parsed⟩
        simp only [if_true, xdpBanIpv6, parsed]
        split
        · apply Attempt.forall_log_once Good
          simp [Good, Request.banBlock, hostBlock, family, parsed]
        · simp [Attempt.fail]
    · simp [Attempt.fail]
  have goodIpset : Good (.ipset .add (isIpv6Addr ip) ip) := by
    simp [Good, Request.banBlock, hostBlock]
  apply Attempt.forall_log_orElse Good
  · apply Attempt.forall_log_orElse Good
    · apply Attempt.forall_log_orElse Good
      · split
        · exact Attempt.forall_log_once Good goodFd state
        · simp [Attempt.fail]
      · exact Attempt.forall_log_retry Good goodIpc 5
    · exact goodXdp
  · exact Attempt.forall_log_once Good goodIpset

theorem banBlock_banPipelineBan {whitelist : Bytes → Bool} {ip : Bytes} {state : State}
    {entry : Request × Bool} (sent : entry ∈ (banPipelineBan layers whitelist ip state).log) :
    isValidIp ip = true ∧ whitelist ip = false ∧ entry.1.banBlock = hostBlock ip := by
  rcases banPipelineBan_eq layers whitelist ip state with
    ⟨-, refused⟩ | ⟨-, -, skipped⟩ | ⟨valid, notListed, -, log, -⟩
  · simp [refused] at sent
  · simp [skipped] at sent
  · rw [log] at sent
    exact ⟨valid, notListed, banBlock_tryLayers layers valid state entry sent⟩

end Pipeline

end LogGuardian
