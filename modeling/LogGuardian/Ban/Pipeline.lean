import LogGuardian.Lib.Attempt
import LogGuardian.Firewall.Targets

/-!
# The ban pipeline

`ban_pipeline.c` with the client side of `daemon_ipc.c` and `xdp_loader.c`.
-/

namespace LogGuardian

universe u

inductive IpcCmd where
  | banV4 | banV6 | unbanV4 | unbanV6 | ping | shutdown | tarpitV4 | tarpitV6 | rceAlert
  | tarpitStart | tarpitStop
  deriving DecidableEq, Repr

/-- `IpcMessage`, as far as commands on addresses use it. -/
structure IpcMessage where
  cmd : IpcCmd
  plen : ℕ
  ip : Bytes
  prob : ℕ := 0
  deriving DecidableEq, Repr

inductive IpsetOp where
  | add | del | test
  deriving DecidableEq, Repr

/-- What the analyzer asks of an enforcement layer: a message over the standing connection or
over one of its own, an operation on a local XDP map, or a run of `ipset`. -/
inductive Request where
  | ipcFd (message : IpcMessage)
  | ipc (message : IpcMessage)
  | xdpUpdateV4 (plen : ℕ) (address : BitVec 32)
  | xdpUpdateV6 (address : Bytes)
  | xdpDeleteV4 (plen : ℕ) (address : BitVec 32)
  | xdpDeleteV6 (address : Bytes)
  | ipset (op : IpsetOp) (v6 : Bool) (ip : Bytes)
  deriving DecidableEq, Repr

structure Layers (State : Type u) where
  ipcFd : State → Bool
  xdpActive : State → Bool
  xdpMapV4 : State → Bool
  xdpMapV6 : State → Bool
  send : Request → State → Bool × State

/-- The message of `_ipc_one_shot`, with the text cut to the field of 46 bytes. -/
def ipcMessage (cmd : IpcCmd) (ip : Bytes) (plen : ℕ) : IpcMessage := ⟨cmd, plen, copyInto 46 ip, 0⟩

/-- The address and the prefix length that the IPv4 calls of `daemon_ipc.c` read from a text. -/
def ipcSplitCidr (ipCidr : Bytes) : Bytes × ℕ :=
  let buf := copyInto 46 ipCidr
  if chr '/' ∈ buf then
    let ip := buf.takeWhile (· ≠ chr '/')
    let p := strtol (buf.drop (ip.length + 1))
    (ip, if 0 < p ∧ p ≤ 32 then p.toNat else 32)
  else (buf, 32)

def daemonIpcBanIpv4 (ipCidr : Bytes) : IpcMessage :=
  ipcMessage .banV4 (ipcSplitCidr ipCidr).1 (ipcSplitCidr ipCidr).2

def daemonIpcBanIpv6 (ip : Bytes) : IpcMessage := ipcMessage .banV6 ip 128

def daemonIpcUnbanIpv4 (ipCidr : Bytes) : IpcMessage :=
  ipcMessage .unbanV4 (ipcSplitCidr ipCidr).1 (ipcSplitCidr ipCidr).2

def daemonIpcUnbanIpv6 (ip : Bytes) : IpcMessage := ipcMessage .unbanV6 ip 128

def daemonIpcTarpitIpv4 (ipCidr : Bytes) (probability : ℕ) : IpcMessage :=
  { ipcMessage .tarpitV4 (ipcSplitCidr ipCidr).1 (ipcSplitCidr ipCidr).2 with prob := probability }

def daemonIpcTarpitIpv6 (ip : Bytes) (probability : ℕ) : IpcMessage :=
  { ipcMessage .tarpitV6 ip 128 with prob := probability }

/-- The key that `xdp_ban_ipv4` and `xdp_unban_ipv4` make of a text. -/
def xdpKeyV4 (ipStr : Bytes) : Option (ℕ × BitVec 32) :=
  let buf := copyInto 64 ipStr
  let ip := buf.takeWhile (· ≠ chr '/')
  let plen : ℕ :=
    if chr '/' ∈ buf then min ((atoi (buf.drop (ip.length + 1))) % 2 ^ 32).toNat 32 else 32
  (inetPton4 ip).map fun address => (plen, address)

section Pipeline

variable {State : Type u} (layers : Layers State)

def tryIpcBan (ip : Bytes) (state : State) : Attempt Request State :=
  let standing :=
    if layers.ipcFd state then
      Attempt.once layers.send
        (.ipcFd (if isIpv6Addr ip then ipcMessage .banV6 ip 128 else ipcMessage .banV4 ip 32)) state
    else .fail state
  standing.orElse
    (Attempt.retry layers.send
      (.ipc (if isIpv6Addr ip then daemonIpcBanIpv6 ip else daemonIpcBanIpv4 ip)) 5)

def xdpBanIpv4 (ip : Bytes) (state : State) : Attempt Request State :=
  match xdpKeyV4 ip with
  | some (plen, address) =>
    if layers.xdpMapV4 state then
      Attempt.once layers.send (.xdpUpdateV4 plen address) state
    else .fail state
  | none => .fail state

def xdpBanIpv6 (ip : Bytes) (state : State) : Attempt Request State :=
  match inetPton6 ip with
  | some address =>
    if layers.xdpMapV6 state then Attempt.once layers.send (.xdpUpdateV6 address) state
    else .fail state
  | none => .fail state

def tryXdpBan (ip : Bytes) (state : State) : Attempt Request State :=
  if layers.xdpActive state then
    if isIpv6Addr ip then xdpBanIpv6 layers ip state else xdpBanIpv4 layers ip state
  else .fail state

def tryIpsetBan (ip : Bytes) (state : State) : Attempt Request State :=
  Attempt.once layers.send (.ipset .add (isIpv6Addr ip) ip) state

inductive BanPath where
  | whitelistSkip | invalidIp | ipcXdp | xdpDirect | ipset | failed
  deriving DecidableEq, Repr

/-- The return code, `path_out` and the requests of a call. -/
structure BanResult (State : Type u) where
  rc : ℤ
  path : BanPath
  log : List (Request × Bool)
  state : State

/-- `ban_pipeline_ban`. -/
def banPipelineBan (whitelist : Bytes → Bool) (ip : Bytes) (state : State) : BanResult State :=
  if !isValidIp ip then ⟨-1, .invalidIp, [], state⟩
  else if whitelist ip then ⟨0, .whitelistSkip, [], state⟩
  else if isReservedBanTarget ip then ⟨0, .whitelistSkip, [], state⟩
  else
    let ipc := tryIpcBan layers ip state
    if ipc.ok then ⟨0, .ipcXdp, ipc.log, ipc.state⟩
    else
      let xdp := tryXdpBan layers ip ipc.state
      if xdp.ok then ⟨0, .xdpDirect, ipc.log ++ xdp.log, xdp.state⟩
      else
        let ipset := tryIpsetBan layers ip xdp.state
        if ipset.ok then ⟨0, .ipset, ipc.log ++ xdp.log ++ ipset.log, ipset.state⟩
        else ⟨-1, .failed, ipc.log ++ xdp.log ++ ipset.log, ipset.state⟩

def tryLayers (ip : Bytes) (state : State) : Attempt Request State :=
  ((tryIpcBan layers ip state).orElse (tryXdpBan layers ip)).orElse (tryIpsetBan layers ip)

theorem banPipelineBan_eq (whitelist : Bytes → Bool) (ip : Bytes) (state : State) :
    (isValidIp ip = false ∧ banPipelineBan layers whitelist ip state = ⟨-1, .invalidIp, [], state⟩) ∨
      (isValidIp ip = true ∧ (whitelist ip = true ∨ isReservedBanTarget ip = true) ∧
        banPipelineBan layers whitelist ip state = ⟨0, .whitelistSkip, [], state⟩) ∨
      (isValidIp ip = true ∧ whitelist ip = false ∧ isReservedBanTarget ip = false ∧
        (banPipelineBan layers whitelist ip state).log = (tryLayers layers ip state).log ∧
        ((banPipelineBan layers whitelist ip state).rc = 0 ↔
          (tryLayers layers ip state).ok = true)) := by
  rcases valid : isValidIp ip with _ | _
  · left
    simp [banPipelineBan, valid]
  rcases listed : whitelist ip with _ | _
  · rcases reserved : isReservedBanTarget ip with _ | _
    · right
      right
      unfold banPipelineBan tryLayers Attempt.orElse
      simp only [valid, listed, reserved, Bool.false_eq_true, if_false]
      split_ifs <;> simp_all
    · right
      left
      simp [banPipelineBan, valid, listed, reserved]
  · right
    left
    simp [banPipelineBan, valid, listed]

theorem honest_tryIpcBan (ip : Bytes) (state : State) : (tryIpcBan layers ip state).Honest := by
  apply Attempt.honest_orElse
  · split
    · exact Attempt.honest_once _ _ _
    · exact Attempt.honest_fail _
  · exact Attempt.honest_retry _ _ _

theorem honest_tryXdpBan (ip : Bytes) (state : State) : (tryXdpBan layers ip state).Honest := by
  unfold tryXdpBan xdpBanIpv6 xdpBanIpv4
  repeat' split
  all_goals first | exact Attempt.honest_once _ _ _ | exact Attempt.honest_fail _

theorem honest_tryLayers (ip : Bytes) (state : State) : (tryLayers layers ip state).Honest := by
  apply Attempt.honest_orElse
  · apply Attempt.honest_orElse
    · exact honest_tryIpcBan layers ip state
    · exact honest_tryXdpBan layers ip
  · exact fun _ => Attempt.honest_once _ _ _

end Pipeline

end LogGuardian
