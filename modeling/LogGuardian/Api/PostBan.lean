import LogGuardian.Api.Query
import LogGuardian.Ban.Unban

/-!
# `POST /api/v1/ban` and `POST /api/v1/unban`

`handle_post_ban` with its replies and its audit record.
-/

namespace LogGuardian

universe u

def httpHeaders (status : String) : Bytes :=
  ascii ("HTTP/1.1 " ++ status ++ "\r\nContent-Type: application/json\r\n" ++
    "Access-Control-Allow-Origin: *\r\nConnection: close\r\n\r\n")

def http200Ok : Bytes := httpHeaders "200 OK"

def http400Bad : Bytes := httpHeaders "400 Bad Request"

def http403Forbidden : Bytes := httpHeaders "403 Forbidden"

def http429TooMany : Bytes := httpHeaders "429 Too Many Requests"

def http502BadGateway : Bytes := httpHeaders "502 Bad Gateway"

structure MutationGate where
  mutationAuth : Bool
  peerStrict : Bool
  banRateOk : Bool

/-- What `api_mutation_audit_log` is called with. -/
structure MutationAudit where
  ip : Bytes
  unban : Bool
  rc : ℤ
  reason : Bytes
  pathLabel : Bytes
  deriving DecidableEq, Repr

structure PostBanOutcome (State : Type u) where
  reply : Bytes
  audit : Option MutationAudit := none
  bans : List (Request × Bool) := []
  state : State

def BanPath.apiLabel : BanPath → Bytes
  | .ipcXdp => ascii "ipc-xdp"
  | .xdpDirect => ascii "xdp"
  | .ipset => ascii "ipset"
  | .whitelistSkip => ascii "whitelist-skip"
  | _ => ascii "failed"

def mutationReply (rc : ℤ) (ip action pathLabel : Bytes) : Bytes :=
  if rc = 0 then
    http200Ok ++ ascii "\x7b\"success\":true,\"ip\":\"" ++ ip ++ ascii "\",\"action\":\"" ++ action ++
      ascii "\",\"path\":\"" ++ pathLabel ++ ascii "\"\x7d"
  else
    http502BadGateway ++ ascii "\x7b\"success\":false,\"ip\":\"" ++ ip ++
      ascii "\",\"error\":\"ban pipeline failed\"\x7d"

section Handler

variable {State : Type u} (layers : Layers State) (whitelist : Bytes → Bool)

def handlePostBan (gate : MutationGate) (unban : Bool) (req : Bytes) (state : State) :
    PostBanOutcome State :=
  let invalid : PostBanOutcome State :=
    { reply := http400Bad ++ ascii "\x7b\"success\":false,\"error\":\"invalid or missing ip\"\x7d"
      state }
  if !gate.mutationAuth || !gate.peerStrict then
    { reply := http403Forbidden ++ ascii "\x7b\"success\":false,\"error\":\"unauthorized\"\x7d", state }
  else if !gate.banRateOk then
    { reply := http429TooMany ++ ascii "\x7b\"success\":false,\"error\":\"rate limit\"\x7d", state }
  else
    let reasonRaw := (parseQueryParam req (ascii "reason") 256).getD (ascii "dashboard-api")
    let reason := decodeQueryField reasonRaw 256
    match queryParamValue req (ascii "ip") 64 with
    | none => invalid
    | some ipRaw =>
      let ip := decodeQueryField ipRaw 64
      if !isValidIp ip then invalid
      else if unban then
        let lifted := banPipelineUnban layers ip state
        let pathLabel := if lifted.1 = 0 then ascii "ipset" else ascii "failed"
        { reply := mutationReply lifted.1 ip (ascii "unban") pathLabel
          audit := some ⟨ip, true, lifted.1, reason, pathLabel⟩
          state := lifted.2 }
      else
        let banned := banPipelineBan layers whitelist ip state
        { reply := mutationReply banned.rc ip (ascii "ban") banned.path.apiLabel
          audit := some ⟨ip, false, banned.rc, reason, banned.path.apiLabel⟩
          bans := banned.log
          state := banned.state }

theorem banBlock_handlePostBan {gate : MutationGate} {unban : Bool} {req : Bytes} {state : State}
    {entry : Request × Bool}
    (sent : entry ∈ (handlePostBan layers whitelist gate unban req state).bans) :
    ∃ raw, queryParamValue req (ascii "ip") 64 = some raw ∧
      entry.1.banBlock = hostBlock (decodeQueryField raw 64) := by
  unfold handlePostBan at sent
  dsimp only at sent
  split at sent
  · cases sent
  split at sent
  · cases sent
  split at sent
  · cases sent
  rename_i raw read
  split at sent
  · cases sent
  split at sent
  · cases sent
  exact ⟨raw, read, (banBlock_banPipelineBan layers sent).2.2⟩

/-- `parse_query_param` returns the parameter of the query string exactly under the condition of
`ReadsParameter`, and under that condition the handler bans only the address given as `ip`. -/
theorem query_param_exact_iff (req key : Bytes) {outsz : ℕ} (room : 2 ≤ outsz) (gate : MutationGate)
    (state : State) :
    (queryParamValue req key outsz = namedParam req key ↔ ReadsParameter req key outsz) ∧
      (ReadsParameter req (ascii "ip") 64 →
        ∀ entry ∈ (handlePostBan layers whitelist gate false req state).bans,
          ∃ raw, namedParam req (ascii "ip") = some raw ∧
            entry.1.banBlock = hostBlock (decodeQueryField raw 64)) := by
  refine ⟨queryParamValue_eq_iff room, ?_⟩
  intro reads entry sent
  rcases banBlock_handlePostBan layers whitelist sent with ⟨raw, read, covers⟩
  rw [(queryParamValue_eq_iff (by omega)).mpr reads] at read
  exact ⟨raw, read, covers⟩

end Handler

def plainBanRequest : Bytes := ascii "POST /api/v1/ban?ip=198.51.100.7 HTTP/1.1\r\n\r\n"

theorem query_param_exact_for_plain_request :
    ReadsParameter plainBanRequest (ascii "ip") 64 ∧
      ∀ entry ∈ (handlePostBan worldLayers (fun _ => false) ⟨true, true, true⟩ false plainBanRequest
          {}).bans,
        ∃ raw, namedParam plainBanRequest (ascii "ip") = some raw ∧
          entry.1.banBlock = hostBlock (decodeQueryField raw 64) := by
  have exactly := query_param_exact_iff worldLayers (fun _ => false) plainBanRequest (ascii "ip")
    (show 2 ≤ 64 by decide) ⟨true, true, true⟩ {}
  have reads := exactly.1.mp (by decide +kernel)
  exact ⟨reads, exactly.2 reads⟩

/-- A request whose parameter `ip` comes after one called `zip`. -/
def zippedBanRequest : Bytes :=
  ascii "POST /api/v1/ban?zip=203.0.113.9&ip=198.51.100.7 HTTP/1.1\r\n\r\n"

/-- The value of `zip` is read for `ip`, and its address is banned. -/
theorem zip_parameter_banned :
    namedParam zippedBanRequest (ascii "ip") = some (ascii "198.51.100.7") ∧
      queryParamValue zippedBanRequest (ascii "ip") 64 = some (ascii "203.0.113.9") ∧
      (handlePostBan worldLayers (fun _ => false) ⟨true, true, true⟩ false zippedBanRequest {}).bans =
        [(.ipc ⟨.banV4, 32, ascii "203.0.113.9", 0⟩, true)] := by
  decide +kernel

end LogGuardian
