import LogGuardian.Lib.CoverStore
import LogGuardian.Lib.Machine
import LogGuardian.Ban.Coverage

/-!
# The enforcement layers
-/

namespace LogGuardian

structure Environment where
  daemonUp : Bool := true
  authorized : Bool := true
  daemonV4 : Bool := true
  daemonV6 : Bool := true
  daemonTarpit : Bool := true
  daemonIpset : Bool := true
  shutdownAllowed : Bool := true
  ipcFd : Bool := false
  ipcFdOpen : Bool := false
  xdpActive : Bool := false
  localV4 : Bool := false
  localV6 : Bool := false
  ipset : Bool := true
  deriving DecidableEq, Repr

structure World where
  env : Environment := {}
  daemonMaps : List Block := []
  localMaps : List Block := []
  ipset : List Block := []
  deriving DecidableEq, Repr

def Block.isV6 : Block → Bool
  | .v4 .. => false
  | .v6 .. => true

def lpmKey (plen : ℕ) (address : BitVec 32) : Block := .v4 (address &&& netmask plen) plen

/-- `max_entries` of `xdp_blacklist_v4` and `xdp_blacklist_v6`. -/
def xdpMapFull (v6 : Bool) (maps : List Block) : Bool :=
  (if v6 then 16384 else 65536) ≤ (maps.filter (·.isV6 = v6)).length

/-- `maxelem` of the sets. -/
def ipsetFull (v6 : Bool) (members : List Block) : Bool :=
  65536 ≤ (members.filter (·.isV6 = v6)).length

def familyHost (v6 : Bool) (ip : Bytes) : Option Block :=
  if v6 then (inetPton6 ip).map .v6 else (inetPton4 ip).map fun bits => .v4 bits 32

def Block.base : Block → Address
  | .v4 network _ => .v4 network
  | .v6 bytes => .v6 bytes

/-- `run_ipset_ip` with `-exist`: whether it exits with 0, and the members after it. -/
def runIpsetIp (usable : Bool) (op : IpsetOp) (v6 : Bool) (ip : Bytes) (members : List Block) :
    Bool × List Block :=
  match usable, familyHost v6 ip with
  | true, some host =>
    match op with
    | .add => CoverStore.update (ipsetFull v6) host members
    | .del => (true, CoverStore.delete host members)
    | .test => (CoverStore.Covered Block.Contains members host.base, members)
  | _, _ => (false, members)

def Environment.daemonLoaded (env : Environment) (v6 : Bool) : Bool :=
  if v6 then env.daemonV6 else env.daemonV4

def Environment.localLoaded (env : Environment) (v6 : Bool) : Bool :=
  if v6 then env.localV6 else env.localV4

/-- `do_ban_v4` and `do_ban_v6`: the map and the set, either of which is a success. -/
def doBan (v6 : Bool) (key : Option Block) (ip : Bytes) (world : World) : Bool × World :=
  let map : Option (Bool × List Block) :=
    if world.env.daemonLoaded v6 then
      key.map fun key => CoverStore.update (xdpMapFull v6) key world.daemonMaps
    else some (false, world.daemonMaps)
  match map with
  | none => (false, world)
  | some (rc, maps) =>
    let set := runIpsetIp world.env.daemonIpset .add v6 ip world.ipset
    (rc || set.1, { world with daemonMaps := maps, ipset := set.2 })

/-- `do_unban_v4` and `do_unban_v6`. -/
def doUnban (v6 : Bool) (key : Option Block) (ip : Bytes) (world : World) : Bool × World :=
  let maps :=
    match key with
    | some key =>
      if world.env.daemonLoaded v6 then CoverStore.delete key world.daemonMaps
      else world.daemonMaps
    | none => world.daemonMaps
  let set := runIpsetIp world.env.daemonIpset .del v6 ip world.ipset
  let test := runIpsetIp world.env.daemonIpset .test v6 ip set.2
  (set.1 || !test.1, { world with daemonMaps := maps, ipset := set.2 })

def doBanV4 (ip : Bytes) (plen : ℕ) : World → Bool × World :=
  doBan false ((inetPton4 ip).map (lpmKey plen)) ip

def doBanV6 (ip : Bytes) : World → Bool × World := doBan true ((inetPton6 ip).map .v6) ip

def doUnbanV4 (ip : Bytes) (plen : ℕ) : World → Bool × World :=
  doUnban false ((inetPton4 ip).map (lpmKey plen)) ip

def doUnbanV6 (ip : Bytes) : World → Bool × World := doUnban true ((inetPton6 ip).map .v6) ip

/-- `handle_client` after authentication. -/
def handleCommand (message : IpcMessage) (world : World) : Bool × World :=
  match message.cmd with
  | .banV4 =>
    match ipcValidateBanIpv4 message.ip message.plen with
    | some plen => doBanV4 message.ip plen world
    | none => (false, world)
  | .banV6 => if ipcValidateBanIpv6 message.ip then doBanV6 message.ip world else (false, world)
  | .unbanV4 | .tarpitStop =>
    match ipcValidateBanIpv4 message.ip message.plen with
    | some plen => doUnbanV4 message.ip plen world
    | none => (false, world)
  | .unbanV6 => if ipcValidateBanIpv6 message.ip then doUnbanV6 message.ip world else (false, world)
  | .ping => (true, world)
  | .tarpitV4 | .tarpitStart =>
    ((ipcValidateBanIpv4 message.ip message.plen).isSome && world.env.daemonTarpit, world)
  | .tarpitV6 => (ipcValidateBanIpv6 message.ip && world.env.daemonTarpit, world)
  | .shutdown =>
    if world.env.shutdownAllowed then
      (true, { world with env := { world.env with daemonUp := false } })
    else (false, world)
  | .rceAlert =>
    if message.ip = [] then (true, world)
    else
      match ipcValidateBanIpv4 message.ip message.plen with
      | some plen => doBanV4 message.ip plen world
      | none => (false, world)

def handleClient (message : IpcMessage) (world : World) : Bool × World :=
  if !world.env.daemonUp then (false, world)
  else if message.cmd ≠ .ping ∧ !world.env.authorized then (false, world)
  else handleCommand message world

def World.send : Request → World → Bool × World
  | .ipcFd message, world =>
    if world.env.ipcFdOpen then
      handleClient message { world with env := { world.env with ipcFdOpen := false } }
    else (false, world)
  | .ipc message, world => handleClient message world
  | .xdpUpdateV4 plen address, world =>
    let map := CoverStore.update (xdpMapFull false) (lpmKey plen address) world.localMaps
    (map.1, { world with localMaps := map.2 })
  | .xdpUpdateV6 address, world =>
    let map := CoverStore.update (xdpMapFull true) (.v6 address) world.localMaps
    (map.1, { world with localMaps := map.2 })
  | .xdpDeleteV4 plen address, world =>
    (lpmKey plen address ∈ world.localMaps,
      { world with localMaps := CoverStore.delete (lpmKey plen address) world.localMaps })
  | .xdpDeleteV6 address, world =>
    (.v6 address ∈ world.localMaps,
      { world with localMaps := CoverStore.delete (.v6 address) world.localMaps })
  | .ipset op v6 ip, world =>
    let set := runIpsetIp world.env.ipset op v6 ip world.ipset
    (set.1, { world with ipset := set.2 })

def worldLayers : Layers World where
  ipcFd world := world.env.ipcFd
  xdpActive world := world.env.xdpActive
  xdpMapV4 world := world.env.localV4
  xdpMapV6 world := world.env.localV6
  send := World.send

/-- The address is matched by an entry of the daemon's maps, of the local maps or of the sets. -/
def World.Matches (world : World) (address : Address) : Prop :=
  CoverStore.Covered Block.Contains world.daemonMaps address ∨
    CoverStore.Covered Block.Contains world.localMaps address ∨
      CoverStore.Covered Block.Contains world.ipset address

instance (world : World) (address : Address) : Decidable (world.Matches address) := by
  unfold World.Matches
  infer_instance

end LogGuardian
