import LogGuardian.Ban.World

/-!
# Clients of the daemon
-/

namespace LogGuardian

open List

/-- `IpcMessage` as received; `pid` and `cmdline` are only logged. -/
structure ClientMessage where
  cmd : UInt8
  plen : UInt8
  ip : Bytes
  prob : UInt8
  authToken : UInt64
  deriving DecidableEq, Repr

def littleEndian (bytes : Bytes) : ℕ := bytes.foldr (fun byte rest => byte.toNat + 256 * rest) 0

/-- `recv` of a packed `IpcMessage`, which has 125 bytes. -/
def recvMessage (bytes : Bytes) : Option ClientMessage :=
  if bytes.length < 125 then none
  else
    some
      { cmd := byteAt bytes 0
        plen := byteAt bytes 1
        ip := ((bytes.drop 2).take 45).takeWhile (· ≠ 0)
        prob := byteAt bytes 48
        authToken := UInt64.ofNat (littleEndian ((bytes.drop 49).take 8)) }

def littleEndianBytes : ℕ → ℕ → Bytes
  | 0, _ => []
  | count + 1, value => UInt8.ofNat value :: littleEndianBytes count (value / 256)

/-- The packed `IpcMessage`, with zeros for `pid` and `cmdline`. -/
def ClientMessage.bytes (message : ClientMessage) : Bytes :=
  message.cmd :: message.plen :: ((message.ip ++ List.replicate (46 - message.ip.length) 0) ++
    message.prob :: (littleEndianBytes 8 message.authToken.toNat ++ List.replicate 68 0))

theorem length_littleEndianBytes (count value : ℕ) :
    (littleEndianBytes count value).length = count := by
  induction count generalizing value with
  | zero => rfl
  | succ count ih => rw [littleEndianBytes, length_cons, ih]

theorem littleEndian_littleEndianBytes {count value : ℕ} (fits : value < 256 ^ count) :
    littleEndian (littleEndianBytes count value) = value := by
  induction count generalizing value with
  | zero =>
    have zero : value = 0 := by
      simpa using fits
    rw [zero]
    rfl
  | succ count ih =>
    have smaller : value / 256 < 256 ^ count := by
      exact Nat.div_lt_of_lt_mul (by omega)
    have step : littleEndian (littleEndianBytes (count + 1) value) =
        (UInt8.ofNat value).toNat + 256 * littleEndian (littleEndianBytes count (value / 256)) := rfl
    rw [step, ih smaller, UInt8.toNat_ofNat']
    omega

theorem recvMessage_bytes {message : ClientMessage} (short : message.ip.length ≤ 45)
    (noNul : 0 ∉ message.ip) : recvMessage message.bytes = some message := by
  let field := message.ip ++ replicate (46 - message.ip.length) 0
  let token := littleEndianBytes 8 message.authToken.toNat
  have fieldLength : field.length = 46 := by
    simp only [field, length_append, length_replicate]
    omega
  have tokenLength : token.length = 8 := length_littleEndianBytes 8 _
  have whole : message.bytes = message.cmd :: message.plen ::
      (field ++ message.prob :: (token ++ replicate 68 0)) := rfl
  have full : ¬message.bytes.length < 125 := by
    rw [whole]
    simp only [length_cons, length_append, length_replicate]
    omega
  have ip : ((message.bytes.drop 2).take 45).takeWhile (· ≠ 0) = message.ip := by
    have padding : 45 - message.ip.length + 1 = 46 - message.ip.length := by
      omega
    have front : (message.bytes.drop 2).take 45 =
        message.ip ++ replicate (45 - message.ip.length) 0 := by
      have split : message.bytes.drop 2 = (message.ip ++ replicate (45 - message.ip.length) 0) ++
          (0 :: message.prob :: (token ++ replicate 68 0)) := by
        rw [whole]
        simp only [field, ← padding, replicate_succ']
        simp
      rw [split, take_left']
      simp only [length_append, length_replicate]
      omega
    rw [front, takeWhile_append_of_pos]
    · simp
    · intro byte mem
      have other : byte ≠ 0 := by
        rintro rfl
        exact noNul mem
      simpa using other
  have prob : byteAt message.bytes 48 = message.prob := by
    have position : (message.cmd :: message.plen :: field).length = 48 := by
      simp [fieldLength]
    have split : message.bytes = (message.cmd :: message.plen :: field) ++
        message.prob :: (token ++ replicate 68 0) := whole
    rw [byteAt, split, getD_append_right _ _ _ _ (by omega), position]
    rfl
  have value : UInt64.ofNat (littleEndian ((message.bytes.drop 49).take 8)) = message.authToken := by
    have position : (message.cmd :: message.plen :: (field ++ [message.prob])).length = 49 := by
      simp [fieldLength]
    have split : message.bytes = (message.cmd :: message.plen :: (field ++ [message.prob])) ++
        (token ++ replicate 68 0) := by
      rw [whole]
      simp
    have fits : message.authToken.toNat < 256 ^ 8 := message.authToken.toNat_lt
    rw [split, drop_left' position, take_left' tokenLength,
      littleEndian_littleEndianBytes fits, UInt64.ofNat_toNat]
  unfold recvMessage
  rw [if_neg full, ip, prob, value]
  rfl

def IpcCmd.code : IpcCmd → UInt8
  | .banV4 => 1
  | .banV6 => 2
  | .unbanV4 => 3
  | .unbanV6 => 4
  | .ping => 5
  | .shutdown => 6
  | .tarpitV4 => 7
  | .tarpitV6 => 8
  | .rceAlert => 9
  | .tarpitStart => 10
  | .tarpitStop => 11

def IpcCmd.all : List IpcCmd :=
  [.banV4, .banV6, .unbanV4, .unbanV6, .ping, .shutdown, .tarpitV4, .tarpitV6, .rceAlert,
    .tarpitStart, .tarpitStop]

/-- The case of the switch, `none` for `default`. -/
def IpcCmd.ofCode (code : UInt8) : Option IpcCmd := IpcCmd.all.find? (·.code = code)

theorem IpcCmd.code_of_ofCode {code : UInt8} {cmd : IpcCmd} (found : IpcCmd.ofCode code = some cmd) :
    code = cmd.code := by
  have same : cmd.code = code := by
    simpa using List.find?_some found
  exact same.symm

/-- `v4_prefix` before validation. -/
def ClientMessage.v4Prefix (message : ClientMessage) : ℕ :=
  if message.plen = 0 then 32 else message.plen.toNat

/-- What `ipc_auth.c` reads: two environment variables, the first eight bytes of SHA-256, and the
group database. -/
structure IpcAuth where
  prod : Option Bytes
  token : Option Bytes
  sha : Bytes → UInt64
  inGroup : UInt32 → UInt32 → Bool

/-- `g_ipc_token_digest`. -/
def IpcAuth.digest (auth : IpcAuth) : UInt64 :=
  if auth.token.getD [] = [] then 0 else auth.sha (auth.token.getD [])

def digestEquals (first second : UInt64) : Bool := first ^^^ second = 0 && first ≠ 0

def IpcAuth.required (auth : IpcAuth) : Bool :=
  ((auth.prod.getD []).head?.any fun first =>
    first = chr '1' || first = chr 'y' || first = chr 'Y') || auth.digest ≠ 0

def IpcAuth.validateMessage (auth : IpcAuth) (token : UInt64) : Bool :=
  if !auth.required then true else digestEquals token auth.digest

def IpcAuth.peerAllowed (auth : IpcAuth) (uid gid : UInt32) : Bool :=
  uid = 0 || auth.inGroup uid gid

def IpcAuth.shutdownAllowed (auth : IpcAuth) (uid : UInt32) (token : UInt64) : Bool :=
  uid = 0 && auth.validateMessage token

theorem IpcAuth.token_eq_digest {auth : IpcAuth} (required : auth.required = true)
    {token : UInt64} (valid : auth.validateMessage token = true) :
    token = auth.digest ∧ auth.digest ≠ 0 := by
  simp only [validateMessage, required, Bool.not_true, Bool.false_eq_true, if_false, digestEquals,
    Bool.and_eq_true, decide_eq_true_eq] at valid
  have same := UInt64.xor_eq_zero_iff.mp valid.1
  exact ⟨same, same ▸ valid.2⟩

structure Daemon where
  world : World := {}
  tarpitV4 : List (Block × UInt8) := []
  tarpitV6 : List (Block × UInt8) := []
  tarpitV4Loaded : Bool := true
  tarpitV6Loaded : Bool := true
  bansJsonDirty : Bool := false
  deriving DecidableEq, Repr

/-- `bpf_map_update_elem` with `BPF_ANY` on a map of 65536 entries. -/
def tarpitUpdate (key : Block) (prob : UInt8) (entries : List (Block × UInt8)) :
    Bool × List (Block × UInt8) :=
  if key ∈ entries.map Prod.fst then
    (true, entries.map fun entry => if entry.1 = key then (key, prob) else entry)
  else if 65536 ≤ entries.length then (false, entries)
  else (true, (key, prob) :: entries)

namespace Daemon

def onWorld (operation : World → Bool × World) (daemon : Daemon) : Bool × Daemon :=
  ((operation daemon.world).1, { daemon with world := (operation daemon.world).2 })

def doTarpitV4 (ip : Bytes) (prob : UInt8) (plen : ℕ) (daemon : Daemon) : Bool × Daemon :=
  match daemon.tarpitV4Loaded, inetPton4 ip with
  | true, some address =>
    let map := tarpitUpdate (lpmKey plen address) prob daemon.tarpitV4
    (map.1, { daemon with tarpitV4 := map.2 })
  | _, _ => (false, daemon)

def doTarpitV6 (ip : Bytes) (prob : UInt8) (daemon : Daemon) : Bool × Daemon :=
  match daemon.tarpitV6Loaded, inetPton6 ip with
  | true, some address =>
    let map := tarpitUpdate (.v6 address) prob daemon.tarpitV6
    (map.1, { daemon with tarpitV6 := map.2 })
  | _, _ => (false, daemon)

/-- What the switch leaves behind: whether `rc` is 0, `resp.errmsg` and the daemon. -/
structure Outcome where
  ok : Bool
  errmsg : Bytes
  daemon : Daemon

/-- An operation on an address that `ipc_validate_ban_ipv4` accepts. -/
def onValidV4 (errmsg : Bytes) (message : ClientMessage) (operation : ℕ → Daemon → Bool × Daemon)
    (daemon : Daemon) : Outcome :=
  match ipcValidateBanIpv4 message.ip message.v4Prefix with
  | none => ⟨false, errmsg, daemon⟩
  | some plen => ⟨(operation plen daemon).1, [], (operation plen daemon).2⟩

/-- An operation on an address that `ipc_validate_ban_ipv6` accepts. -/
def onValidV6 (errmsg : Bytes) (message : ClientMessage) (operation : Daemon → Bool × Daemon)
    (daemon : Daemon) : Outcome :=
  if ipcValidateBanIpv6 message.ip then ⟨(operation daemon).1, [], (operation daemon).2⟩
  else ⟨false, errmsg, daemon⟩

/-- The switch of `handle_client`. -/
def runCommand (auth : IpcAuth) (uid : UInt32) (message : ClientMessage) (daemon : Daemon) :
    Outcome :=
  match IpcCmd.ofCode message.cmd with
  | some .banV4 =>
    onValidV4 (ascii "invalid ban v4") message (fun plen => onWorld (doBanV4 message.ip plen))
      daemon
  | some .banV6 =>
    onValidV6 (ascii "invalid ban v6") message (onWorld (doBanV6 message.ip)) daemon
  | some .unbanV4 =>
    onValidV4 (ascii "invalid unban v4") message
      (fun plen => onWorld (doUnbanV4 message.ip plen)) daemon
  | some .unbanV6 =>
    onValidV6 (ascii "invalid unban v6") message (onWorld (doUnbanV6 message.ip)) daemon
  | some .ping => ⟨true, [], daemon⟩
  | some .tarpitV4 =>
    onValidV4 (ascii "invalid tarpit v4") message (doTarpitV4 message.ip message.prob) daemon
  | some .tarpitV6 =>
    onValidV6 (ascii "invalid tarpit v6") message (doTarpitV6 message.ip message.prob) daemon
  | some .shutdown =>
    if auth.shutdownAllowed uid message.authToken then
      ⟨true, [],
        { daemon with
          world := { daemon.world with env := { daemon.world.env with daemonUp := false } } }⟩
    else ⟨false, ascii "shutdown denied", daemon⟩
  | some .rceAlert =>
    if message.ip = [] then ⟨true, [], daemon⟩
    else onValidV4 [] message (fun plen => onWorld (doBanV4 message.ip plen)) daemon
  | some .tarpitStart =>
    onValidV4 (ascii "invalid tarpit start") message (doTarpitV4 message.ip message.prob) daemon
  -- The source lifts a ban here; the tarpit map is not touched.
  | some .tarpitStop =>
    onValidV4 (ascii "invalid tarpit stop") message
      (fun plen => onWorld (doUnbanV4 message.ip plen)) daemon
  | none => ⟨false, ascii "Bilinmeyen komut", daemon⟩

/-- `IpcResponse`. -/
structure Response where
  ok : Bool
  errmsg : Bytes
  deriving DecidableEq, Repr

/-- The commands after which `active_bans.json` is written again. -/
def marksBansDirty (cmd : UInt8) : Bool :=
  cmd = IpcCmd.code .banV4 || cmd = IpcCmd.code .unbanV4 || cmd = IpcCmd.code .banV6 ||
    cmd = IpcCmd.code .unbanV6

/-- A connection: what `SO_PEERCRED` says of the peer, the bytes it sent, and the text of `errno`
at the end. -/
structure Client where
  credentials : Option (UInt32 × UInt32)
  bytes : Bytes
  errnoText : Bytes := []
  deriving DecidableEq, Repr

/-- `peer_uid`, which is -1 where the peer is unknown. -/
def Client.uid (client : Client) : UInt32 := client.credentials.elim (-1) Prod.fst

def Client.gid (client : Client) : UInt32 := client.credentials.elim (-1) Prod.snd

def authRefusal (auth : IpcAuth) (client : Client) (message : ClientMessage) : Option Bytes :=
  let peerOk := client.uid ≠ -1 && auth.peerAllowed client.uid client.gid
  let tokenOk := auth.validateMessage message.authToken
  if message.cmd ≠ IpcCmd.code .ping ∧ auth.required = true then
    if !peerOk && !tokenOk then some (ascii "IPC auth denied")
    else if !tokenOk then some (ascii "IPC token invalid")
    else none
  else none

def Outcome.response (outcome : Outcome) (errnoText : Bytes) : Response where
  ok := outcome.ok
  errmsg :=
    if !outcome.ok && outcome.errmsg = [] then
      copyInto 63 (ascii "Ban/ipset hatasi: " ++ errnoText)
    else outcome.errmsg

/-- `handle_client`: the reply, `none` where the connection is closed without one. -/
def handleClient (auth : IpcAuth) (client : Client) (daemon : Daemon) : Option Response × Daemon :=
  match recvMessage client.bytes with
  | none => (none, daemon)
  | some message =>
    match authRefusal auth client message with
    | some errmsg => (some ⟨false, errmsg⟩, daemon)
    | none =>
      let outcome := runCommand auth client.uid message daemon
      (some (outcome.response client.errnoText),
        { outcome.daemon with
          bansJsonDirty :=
            outcome.daemon.bansJsonDirty || (outcome.ok && marksBansDirty message.cmd) })

theorem authRefusal_eq_none_iff {auth : IpcAuth} {client : Client} {message : ClientMessage} :
    authRefusal auth client message = none ↔
      message.cmd = IpcCmd.code .ping ∨ auth.validateMessage message.authToken = true := by
  unfold authRefusal
  by_cases ping : message.cmd = IpcCmd.code .ping
  · simp [ping]
  · rcases required : auth.required with _ | _
    · simp [IpcAuth.validateMessage, required]
    · rcases auth.validateMessage message.authToken with _ | _
      · simp [ping]
        split <;> simp
      · simp

section Effect

variable (auth : IpcAuth) (uid : UInt32) (message : ClientMessage) (daemon : Daemon)

inductive Effect : Daemon → Prop
  | none : Effect daemon
  | banV4 {plen : ℕ} (accepted : ipcValidateBanIpv4 message.ip message.v4Prefix = some plen) :
      Effect (onWorld (doBanV4 message.ip plen) daemon).2
  | banV6 (accepted : ipcValidateBanIpv6 message.ip = true) :
      Effect (onWorld (doBanV6 message.ip) daemon).2
  | unbanV4 {plen : ℕ} (accepted : ipcValidateBanIpv4 message.ip message.v4Prefix = some plen) :
      Effect (onWorld (doUnbanV4 message.ip plen) daemon).2
  | unbanV6 (accepted : ipcValidateBanIpv6 message.ip = true) :
      Effect (onWorld (doUnbanV6 message.ip) daemon).2
  | tarpitV4 {plen : ℕ} (accepted : ipcValidateBanIpv4 message.ip message.v4Prefix = some plen) :
      Effect (doTarpitV4 message.ip message.prob plen daemon).2
  | tarpitV6 (accepted : ipcValidateBanIpv6 message.ip = true) :
      Effect (doTarpitV6 message.ip message.prob daemon).2
  | shutdown (cmd : message.cmd = IpcCmd.code .shutdown)
      (allowed : auth.shutdownAllowed uid message.authToken = true) :
      Effect
        { daemon with
          world := { daemon.world with env := { daemon.world.env with daemonUp := false } } }

variable {auth uid message daemon}

theorem effect_onValidV4 {errmsg : Bytes} {operation : ℕ → Daemon → Bool × Daemon}
    (effect : ∀ plen, ipcValidateBanIpv4 message.ip message.v4Prefix = some plen →
      Effect auth uid message daemon (operation plen daemon).2) :
    Effect auth uid message daemon (onValidV4 errmsg message operation daemon).daemon := by
  unfold onValidV4
  split
  · exact .none
  · rename_i plen accepted
    exact effect plen accepted

theorem effect_onValidV6 {errmsg : Bytes} {operation : Daemon → Bool × Daemon}
    (effect : ipcValidateBanIpv6 message.ip = true →
      Effect auth uid message daemon (operation daemon).2) :
    Effect auth uid message daemon (onValidV6 errmsg message operation daemon).daemon := by
  unfold onValidV6
  split
  · rename_i accepted
    exact effect accepted
  · exact .none

theorem effect_runCommand :
    Effect auth uid message daemon (runCommand auth uid message daemon).daemon := by
  unfold runCommand
  split
  · exact effect_onValidV4 fun plen accepted => .banV4 accepted
  · exact effect_onValidV6 fun accepted => .banV6 accepted
  · exact effect_onValidV4 fun plen accepted => .unbanV4 accepted
  · exact effect_onValidV6 fun accepted => .unbanV6 accepted
  · exact .none
  · exact effect_onValidV4 fun plen accepted => .tarpitV4 accepted
  · exact effect_onValidV6 fun accepted => .tarpitV6 accepted
  · rename_i isShutdown
    split
    · rename_i allowed
      exact .shutdown (IpcCmd.code_of_ofCode isShutdown) allowed
    · exact .none
  · split
    · exact .none
    · exact effect_onValidV4 fun plen accepted => .banV4 accepted
  · exact effect_onValidV4 fun plen accepted => .tarpitV4 accepted
  · exact effect_onValidV4 fun plen accepted => .unbanV4 accepted
  · exact .none

theorem handleClient_of_valid {client : Client} (received : recvMessage client.bytes = some message)
    (valid : auth.validateMessage message.authToken = true) (daemon : Daemon) :
    ∃ dirty, (handleClient auth client daemon).2 =
      { (runCommand auth client.uid message daemon).daemon with bansJsonDirty := dirty } := by
  unfold handleClient
  rw [received]
  dsimp only
  rw [authRefusal_eq_none_iff.mpr (Or.inr valid)]
  exact ⟨_, rfl⟩

theorem handleClient_cases (auth : IpcAuth) (client : Client) (daemon : Daemon) :
    (handleClient auth client daemon).2 = daemon ∨
      ∃ message dirty, recvMessage client.bytes = some message ∧
        (message.cmd = IpcCmd.code .ping ∨ auth.validateMessage message.authToken = true) ∧
        (handleClient auth client daemon).2 =
          { (runCommand auth client.uid message daemon).daemon with bansJsonDirty := dirty } := by
  unfold handleClient
  split
  · exact Or.inl rfl
  · rename_i message received
    split
    · exact Or.inl rfl
    · rename_i passed
      exact Or.inr ⟨message, _, received, authRefusal_eq_none_iff.mp passed, rfl⟩

end Effect

theorem ipcValidateBanIpv4_v4Prefix (message : ClientMessage) :
    ipcValidateBanIpv4 message.ip message.v4Prefix =
      ipcValidateBanIpv4 message.ip message.plen.toNat := by
  have same : ipcClampV4Prefix message.v4Prefix = ipcClampV4Prefix message.plen.toNat := by
    unfold ClientMessage.v4Prefix
    split
    · rename_i zero
      rw [zero]
      decide
    · rfl
  unfold ipcValidateBanIpv4
  rw [same]

theorem daemon_onValidV4 {message : ClientMessage} {plen : ℕ}
    (accepted : ipcValidateBanIpv4 message.ip message.plen.toNat = some plen) (errmsg : Bytes)
    (operation : ℕ → Daemon → Bool × Daemon) (daemon : Daemon) :
    (onValidV4 errmsg message operation daemon).daemon = (operation plen daemon).2 := by
  unfold onValidV4
  rw [ipcValidateBanIpv4_v4Prefix, accepted]

end Daemon

end LogGuardian
