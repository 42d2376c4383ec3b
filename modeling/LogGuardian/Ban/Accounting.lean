import LogGuardian.Ban.Pipeline
import LogGuardian.Lib.Machine

/-!
# The books of the ban pipeline

`ban_pipeline_ban` with its counters.
-/

namespace LogGuardian

open List

universe u

/-- The counters of `ban_pipeline_ban`. -/
structure BanPipelineStats where
  viaIpc : UInt64 := 0
  viaXdp : UInt64 := 0
  viaIpset : UInt64 := 0
  skippedWhitelist : UInt64 := 0
  failed : UInt64 := 0
  deriving DecidableEq, Repr

/-- The arguments of a call, either of which may be `NULL`. -/
structure BanCall where
  ip : Option Bytes
  whitelistFn : Option (Bytes → Bool)

def BanCall.whitelisted (call : BanCall) (ip : Bytes) : Bool :=
  match call.whitelistFn with
  | none => false
  | some whitelistFn => whitelistFn ip

section Pipeline

variable {State : Type u} (layers : Layers State)

def banPipelineBanCounted (call : BanCall) (stats : BanPipelineStats) (state : State) :
    BanResult State × BanPipelineStats :=
  match call.ip with
  | none => (⟨-1, .invalidIp, [], state⟩, { stats with failed := stats.failed + 1 })
  | some ip =>
    if !isValidIp ip then
      (⟨-1, .invalidIp, [], state⟩, { stats with failed := stats.failed + 1 })
    else if call.whitelisted ip then
      (⟨0, .whitelistSkip, [], state⟩,
        { stats with skippedWhitelist := stats.skippedWhitelist + 1 })
    else if isReservedBanTarget ip then
      (⟨0, .whitelistSkip, [], state⟩,
        { stats with skippedWhitelist := stats.skippedWhitelist + 1 })
    else
      let ipc := tryIpcBan layers ip state
      if ipc.ok then
        (⟨0, .ipcXdp, ipc.log, ipc.state⟩, { stats with viaIpc := stats.viaIpc + 1 })
      else
        let xdp := tryXdpBan layers ip ipc.state
        if xdp.ok then
          (⟨0, .xdpDirect, ipc.log ++ xdp.log, xdp.state⟩, { stats with viaXdp := stats.viaXdp + 1 })
        else
          let ipset := tryIpsetBan layers ip xdp.state
          if ipset.ok then
            (⟨0, .ipset, ipc.log ++ xdp.log ++ ipset.log, ipset.state⟩,
              { stats with viaIpset := stats.viaIpset + 1 })
          else
            (⟨-1, .failed, ipc.log ++ xdp.log ++ ipset.log, ipset.state⟩,
              { stats with failed := stats.failed + 1 })

structure PipelineRun (State : Type u) where
  stats : BanPipelineStats
  state : State
  results : List (BanResult State)

def banPipelineStep (run : PipelineRun State) (call : BanCall) : PipelineRun State :=
  let (result, stats) := banPipelineBanCounted layers call run.stats run.state
  ⟨stats, result.state, run.results ++ [result]⟩

def banPipelineRun (state : State) (calls : List BanCall) : PipelineRun State :=
  Machine.run (banPipelineStep layers) ⟨{}, state, []⟩ calls

end Pipeline

namespace BanPipelineStats

def add (stats : BanPipelineStats) : BanPath → BanPipelineStats
  | .ipcXdp => { stats with viaIpc := stats.viaIpc + 1 }
  | .xdpDirect => { stats with viaXdp := stats.viaXdp + 1 }
  | .ipset => { stats with viaIpset := stats.viaIpset + 1 }
  | .whitelistSkip => { stats with skippedWhitelist := stats.skippedWhitelist + 1 }
  | .invalidIp | .failed => { stats with failed := stats.failed + 1 }

def ofPaths (paths : List BanPath) : BanPipelineStats where
  viaIpc := UInt64.ofNat (paths.count .ipcXdp)
  viaXdp := UInt64.ofNat (paths.count .xdpDirect)
  viaIpset := UInt64.ofNat (paths.count .ipset)
  skippedWhitelist := UInt64.ofNat (paths.count .whitelistSkip)
  failed := UInt64.ofNat (paths.count .invalidIp + paths.count .failed)

def total (stats : BanPipelineStats) : ℕ :=
  stats.viaIpc.toNat + stats.viaXdp.toNat + stats.viaIpset.toNat + stats.skippedWhitelist.toNat +
    stats.failed.toNat

theorem ofPaths_append (paths : List BanPath) (path : BanPath) :
    ofPaths (paths ++ [path]) = (ofPaths paths).add path := by
  cases path <;>
    simp [ofPaths, add, add_comm, add_left_comm]

theorem count_paths (paths : List BanPath) :
    paths.count .ipcXdp + paths.count .xdpDirect + paths.count .ipset +
      paths.count .whitelistSkip + (paths.count .invalidIp + paths.count .failed) =
        paths.length := by
  induction paths with
  | nil => rfl
  | cons path rest ih =>
    cases path <;> simp <;> omega

theorem total_ofPaths_mod (paths : List BanPath) :
    (ofPaths paths).total % 2 ^ 64 = paths.length % 2 ^ 64 := by
  rw [← count_paths paths]
  simp only [total, ofPaths, UInt64.toNat_ofNat']
  omega

theorem total_ofPaths {paths : List BanPath} (few : paths.length < 2 ^ 64) :
    (ofPaths paths).total = paths.length := by
  have parts := count_paths paths
  simp only [total, ofPaths, UInt64.toNat_ofNat']
  omega

end BanPipelineStats

inductive Backend where
  | daemon | xdp | ipset
  deriving DecidableEq, Repr

namespace Backend

def turn : Backend → ℕ
  | daemon => 0
  | xdp => 1
  | ipset => 2

def path : Backend → BanPath
  | daemon => .ipcXdp
  | xdp => .xdpDirect
  | ipset => .ipset

end Backend

def Request.backend : Request → Backend
  | .ipcFd _ | .ipc _ => .daemon
  | .xdpUpdateV4 .. | .xdpUpdateV6 _ | .xdpDeleteV4 .. | .xdpDeleteV6 _ => .xdp
  | .ipset .. => .ipset

/-- What is to be said of one call: its counter, who is contacted and for whom. -/
structure Accounted {State : Type u} (call : BanCall) (before after : BanPipelineStats)
    (result : BanResult State) : Prop where
  counted : after = before.add result.path
  permitted : result.log ≠ [] → ∃ ip, call.ip = some ip ∧ isValidIp ip = true ∧
    call.whitelisted ip = false ∧ isReservedBanTarget ip = false
  inTurn : result.log.Pairwise fun early late => early.1.backend.turn ≤ late.1.backend.turn
  stops : ∀ front entry back, result.log = front ++ entry :: back → entry.2 = true → back = []
  reported : ∀ backend, result.path = backend.path ↔
    ∃ request, (request, true) ∈ result.log ∧ request.backend = backend

section Layers

variable {State : Type u} (layers : Layers State) (ip : Bytes) (state : State)

theorem settled_tryIpcBan : (tryIpcBan layers ip state).Settled := by
  apply Attempt.settled_orElse
  · split
    · exact Attempt.settled_once _ _ _
    · exact Attempt.settled_fail _
  · exact Attempt.settled_retry _ _ _

theorem settled_tryXdpBan : (tryXdpBan layers ip state).Settled := by
  unfold tryXdpBan xdpBanIpv6 xdpBanIpv4
  repeat' split
  all_goals first | exact Attempt.settled_once _ _ _ | exact Attempt.settled_fail _

theorem settled_tryLayers : (tryLayers layers ip state).Settled := by
  apply Attempt.settled_orElse
  · apply Attempt.settled_orElse
    · exact settled_tryIpcBan layers ip state
    · exact settled_tryXdpBan layers ip
  · exact fun _ => Attempt.settled_once _ _ _

theorem backend_tryIpcBan :
    ∀ entry ∈ (tryIpcBan layers ip state).log, entry.1.backend = .daemon := by
  apply Attempt.forall_log_orElse (fun request : Request => request.backend = .daemon)
  · split
    · exact Attempt.forall_log_once (fun request : Request => request.backend = .daemon) rfl _
    · simp [Attempt.fail]
  · exact Attempt.forall_log_retry (fun request : Request => request.backend = .daemon) rfl _

theorem backend_tryXdpBan : ∀ entry ∈ (tryXdpBan layers ip state).log, entry.1.backend = .xdp := by
  unfold tryXdpBan xdpBanIpv6 xdpBanIpv4
  repeat' split
  all_goals
    first
    | exact Attempt.forall_log_once (fun request : Request => request.backend = .xdp) rfl _
    | simp [Attempt.fail]

theorem backend_tryIpsetBan :
    ∀ entry ∈ (tryIpsetBan layers ip state).log, entry.1.backend = .ipset :=
  Attempt.forall_log_once (fun request : Request => request.backend = .ipset) rfl _

theorem pairwise_of_backend {log : List (Request × Bool)} {backend : Backend}
    (all : ∀ entry ∈ log, entry.1.backend = backend) :
    log.Pairwise fun early late => early.1.backend.turn ≤ late.1.backend.turn := by
  apply pairwise_of_forall_mem_list
  intro early inLog late alsoInLog
  rw [all early inLog, all late alsoInLog]

theorem inTurn_tryLayers : (tryLayers layers ip state).log.Pairwise
    fun early late => early.1.backend.turn ≤ late.1.backend.turn := by
  have early : ∀ entry ∈ ((tryIpcBan layers ip state).orElse (tryXdpBan layers ip)).log,
      entry.1.backend.turn ≤ 1 := by
    apply Attempt.forall_log_orElse (fun request : Request => request.backend.turn ≤ 1)
    · intro entry inLog
      rw [backend_tryIpcBan layers ip state entry inLog]
      decide
    · intro state entry inLog
      rw [backend_tryXdpBan layers ip state entry inLog]
      decide
  apply Attempt.pairwise_log_orElse
  · apply Attempt.pairwise_log_orElse
    · exact pairwise_of_backend (backend_tryIpcBan layers ip state)
    · exact fun state => pairwise_of_backend (backend_tryXdpBan layers ip state)
    · intro first inFirst state second _
      rw [backend_tryIpcBan layers ip _ first inFirst]
      exact Nat.zero_le _
  · exact fun state => pairwise_of_backend (backend_tryIpsetBan layers ip state)
  · intro first inFirst state second inSecond
    rw [backend_tryIpsetBan layers ip state second inSecond]
    exact (early first inFirst).trans (by decide)

end Layers

section Calls

variable {State : Type u} {layers : Layers State} {call : BanCall} {stats : BanPipelineStats}
  {state : State}

theorem banPipelineBanCounted_eq {ip : Bytes} (given : call.ip = some ip) :
    banPipelineBanCounted layers call stats state =
      (banPipelineBan layers call.whitelisted ip state,
        stats.add (banPipelineBan layers call.whitelisted ip state).path) := by
  unfold banPipelineBanCounted banPipelineBan
  rw [given]
  dsimp only
  split_ifs <;> rfl

theorem exists_accepted_iff {log : List (Request × Bool)} {backend asked : Backend}
    (all : ∀ entry ∈ log, entry.1.backend = backend) :
    (∃ request, (request, true) ∈ log ∧ request.backend = asked) ↔
      Attempt.Accepted log ∧ asked = backend := by
  constructor
  · rintro ⟨request, accepted, isFor⟩
    exact ⟨⟨request, accepted⟩, isFor.symm.trans (all _ accepted)⟩
  · rintro ⟨⟨request, accepted⟩, rfl⟩
    exact ⟨request, accepted, all _ accepted⟩

theorem exists_accepted_append {early late : List (Request × Bool)} {asked : Backend} :
    (∃ request, (request, true) ∈ early ++ late ∧ request.backend = asked) ↔
      (∃ request, (request, true) ∈ early ∧ request.backend = asked) ∨
        ∃ request, (request, true) ∈ late ∧ request.backend = asked := by
  simp [or_and_right, exists_or]

theorem reported_banPipelineBan (whitelist : Bytes → Bool) (ip : Bytes) (backend : Backend) :
    (banPipelineBan layers whitelist ip state).path = backend.path ↔
      ∃ request, (request, true) ∈ (banPipelineBan layers whitelist ip state).log ∧
        request.backend = backend := by
  have ofDaemon := backend_tryIpcBan layers ip state
  have ofXdp := backend_tryXdpBan layers ip (tryIpcBan layers ip state).state
  have ofIpset := backend_tryIpsetBan layers ip
    (tryXdpBan layers ip (tryIpcBan layers ip state).state).state
  have daemonHonest := honest_tryIpcBan layers ip state
  have xdpHonest := honest_tryXdpBan layers ip (tryIpcBan layers ip state).state
  have ipsetHonest : (tryIpsetBan layers ip
      (tryXdpBan layers ip (tryIpcBan layers ip state).state).state).Honest :=
    Attempt.honest_once _ _ _
  rw [Attempt.Honest] at daemonHonest xdpHonest ipsetHonest
  unfold banPipelineBan
  dsimp only
  split_ifs with invalid listed reserved ipc xdp ipset
  · cases backend <;> simp [Backend.path]
  · cases backend <;> simp [Backend.path]
  · cases backend <;> simp [Backend.path]
  · rw [exists_accepted_iff ofDaemon, ← daemonHonest, ipc]
    cases backend <;> simp [Backend.path]
  · rw [exists_accepted_append, exists_accepted_iff ofDaemon, exists_accepted_iff ofXdp,
      ← daemonHonest, ← xdpHonest, xdp]
    cases backend <;> simp [Backend.path, ipc]
  · rw [exists_accepted_append, exists_accepted_append, exists_accepted_iff ofDaemon,
      exists_accepted_iff ofXdp, exists_accepted_iff ofIpset, ← daemonHonest, ← xdpHonest,
      ← ipsetHonest, ipset]
    cases backend <;> simp [Backend.path, ipc, xdp]
  · rw [exists_accepted_append, exists_accepted_append, exists_accepted_iff ofDaemon,
      exists_accepted_iff ofXdp, exists_accepted_iff ofIpset, ← daemonHonest, ← xdpHonest,
      ← ipsetHonest]
    cases backend <;> simp [Backend.path, ipc, xdp, ipset]

theorem banPipelineBanCounted_accounted :
    Accounted call stats (banPipelineBanCounted layers call stats state).2
      (banPipelineBanCounted layers call stats state).1 := by
  rcases given : call.ip with _ | ip
  · unfold banPipelineBanCounted
    rw [given]
    refine ⟨rfl, by simp, by simp, by simp, ?_⟩
    intro backend
    cases backend <;> simp [Backend.path]
  rw [banPipelineBanCounted_eq given]
  have reported := @reported_banPipelineBan State layers state call.whitelisted ip
  rcases banPipelineBan_eq layers call.whitelisted ip state with
    ⟨_, refuses⟩ | ⟨_, _, skips⟩ | ⟨valid, unlisted, free, log, _⟩
  · refine ⟨rfl, ?_, ?_, ?_, reported⟩ <;> rw [refuses] <;> simp
  · refine ⟨rfl, ?_, ?_, ?_, reported⟩ <;> rw [skips] <;> simp
  · refine ⟨rfl, fun _ => ⟨ip, given, valid, unlisted, free⟩, ?_, ?_, reported⟩
    · rw [log]
      exact inTurn_tryLayers layers ip state
    · rw [log]
      intro front entry back split accepted
      exact (settled_tryLayers layers ip state).eq_nil_of_accepted split accepted

end Calls

section Runs

variable {State : Type u} (layers : Layers State) (state : State)

theorem banPipelineRun_snoc (calls : List BanCall) (call : BanCall) :
    banPipelineRun layers state (calls ++ [call]) =
      banPipelineStep layers (banPipelineRun layers state calls) call := by
  rw [banPipelineRun, Machine.run_append]
  rfl

theorem stats_banPipelineRun (calls : List BanCall) :
    (banPipelineRun layers state calls).stats =
        .ofPaths ((banPipelineRun layers state calls).results.map BanResult.path) ∧
      (banPipelineRun layers state calls).results.length = calls.length := by
  induction calls using reverseRecOn with
  | nil => exact ⟨rfl, rfl⟩
  | append_singleton calls call ih =>
    rw [banPipelineRun_snoc, banPipelineStep]
    dsimp only
    constructor
    · rw [banPipelineBanCounted_accounted.counted, map_append, map_singleton,
        BanPipelineStats.ofPaths_append, ← ih.1]
    · rw [length_append, length_append, ih.2, length_singleton,
        length_singleton]

/-- The calls of a run are accounted for: the counters add up to their number, and the next call adds
to the counter of its path and contacts the backends in turn, for an address that may be banned. -/
theorem banPipelineRun_accounted (calls : List BanCall) :
    (banPipelineRun layers state calls).stats.total % 2 ^ 64 = calls.length % 2 ^ 64 ∧
      (calls.length < 2 ^ 64 →
        (banPipelineRun layers state calls).stats.total = calls.length) ∧
      ∀ call, Accounted call (banPipelineRun layers state calls).stats
        (banPipelineRun layers state (calls ++ [call])).stats
        (banPipelineBanCounted layers call (banPipelineRun layers state calls).stats
          (banPipelineRun layers state calls).state).1 := by
  rcases stats_banPipelineRun layers state calls with ⟨stats, length⟩
  refine ⟨?_, ?_, ?_⟩
  · rw [stats, BanPipelineStats.total_ofPaths_mod, length_map, length]
  · intro few
    rw [stats, BanPipelineStats.total_ofPaths (by rwa [length_map, length]), length_map,
      length]
  · intro call
    rw [banPipelineRun_snoc]
    exact banPipelineBanCounted_accounted

end Runs

end LogGuardian
