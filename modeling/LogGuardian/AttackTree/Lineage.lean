import LogGuardian.Bytes

/-!
# The lineage of processes
-/

namespace LogGuardian

inductive LineageEventType where
  | openat | execve | connect | write | recv
  /-- A number that the enumeration does not have. -/
  | unknown
  deriving DecidableEq, Repr

structure LineageEvent where
  type : LineageEventType
  pid : ℤ
  ppid : ℤ
  comm : Bytes
  detail : Bytes
  ts : ℤ
  length_comm : comm.length ≤ 15
  length_detail : detail.length ≤ 127
  nul_comm : 0 ∉ comm
  nul_detail : 0 ∉ detail
  deriving Repr

structure AttackTree where
  rootPid : ℤ
  rootComm : Bytes
  events : List LineageEvent
  /-- Every score of `calc_risk` is a whole number. -/
  riskScore : ℕ
  firstSeen : ℤ
  lastSeen : ℤ
  length_rootComm : rootComm.length ≤ 15
  nul_rootComm : 0 ∉ rootComm
  length_events : events.length ≤ 32
  deriving Repr

/-- `g_trees`. -/
structure AttackTrees where
  slots : List (Option AttackTree)
  length_slots : slots.length = 512
  deriving Repr

namespace AttackTrees

def active (trees : AttackTrees) : List AttackTree := trees.slots.filterMap id

/-- `attack_tree_get`. -/
def get (trees : AttackTrees) (pid : ℤ) : Option AttackTree :=
  trees.active.find? fun tree => tree.rootPid = pid

/-- `attack_tree_init`. -/
def init : AttackTrees := ⟨List.replicate 512 none, List.length_replicate⟩

end AttackTrees

namespace LineageEvent

variable (event : LineageEvent)

/-- An `openat` of a file that nobody should read. -/
def opensSensitive : Bool :=
  event.type = .openat &&
    (hasLit event.detail (ascii "/etc/passwd") || hasLit event.detail (ascii "/etc/shadow") ||
      hasLit event.detail (ascii "id_rsa") || hasLit event.detail (ascii ".ssh/"))

def writesTmp : Bool :=
  event.type = .write &&
    (hasLit event.detail (ascii "/tmp/") || hasLit event.detail (ascii "/var/tmp/"))

def risk : ℕ :=
  match event.type with
  | .execve => 40
  | .connect => 20
  | .openat => if event.opensSensitive then 25 else 0
  | .write => if event.writesTmp then 15 else 0
  | _ => 0

end LineageEvent

def calcRisk (events : List LineageEvent) : ℕ :=
  let hasExecve := events.any fun event => event.type = .execve
  let hasConnect := events.any fun event => event.type = .connect
  let hasSensitive := events.any LineageEvent.opensSensitive
  let hasWriteTmp := events.any LineageEvent.writesTmp
  let score := (events.map LineageEvent.risk).sum +
    (if hasExecve && hasConnect then 15 else 0) + (if hasSensitive && hasConnect then 10 else 0) +
    (if hasExecve && hasSensitive && hasConnect then 20 else 0) +
    (if hasWriteTmp && hasExecve then 10 else 0)
  min score 100

def oldestSlot (slots : List (Option AttackTree)) : ℕ :=
  let seen := slots.map fun slot => slot.elim 0 AttackTree.lastSeen
  seen.idxOf (seen.foldl min (seen.headD 0))

theorem length_noComm : ([] : Bytes).length ≤ 15 := Nat.zero_le 15

theorem nul_noComm : 0 ∉ ([] : Bytes) := List.not_mem_nil

theorem length_noEvents : ([] : List LineageEvent).length ≤ 32 := Nat.zero_le 32

def freshTree (pid now : ℤ) : AttackTree where
  rootPid := pid
  rootComm := []
  events := []
  riskScore := 0
  firstSeen := now
  lastSeen := 0
  length_rootComm := length_noComm
  nul_rootComm := nul_noComm
  length_events := length_noEvents

def isTreeOf (pid : ℤ) (slot : Option AttackTree) : Bool :=
  slot.any fun tree => tree.rootPid = pid

/-- `find_or_create`: the index of the tree, and the tree itself. -/
def findOrCreate (slots : List (Option AttackTree)) (pid now : ℤ) : ℕ × AttackTree :=
  match slots.findIdx? (isTreeOf pid) with
  | some index => (index, (slots[index]?.join).getD (freshTree pid now))
  | none => ((slots.findIdx? Option.isNone).getD (oldestSlot slots), freshTree pid now)

/-- What `attack_tree_submit` does to the tree of an event. -/
def AttackTree.note (tree : AttackTree) (event : LineageEvent) (falco : Bool) (now : ℤ) :
    AttackTree :=
  let lastSeen := if event.ts = 0 then now else event.ts
  let score (events : List LineageEvent) : ℕ :=
    if falco then min (calcRisk events + 18) 100 else calcRisk events
  if room : tree.events.length < 32 then
    let named : { comm : Bytes // comm.length ≤ 15 ∧ 0 ∉ comm } :=
      if tree.rootComm = [] then ⟨event.comm, event.length_comm, event.nul_comm⟩
      else ⟨tree.rootComm, tree.length_rootComm, tree.nul_rootComm⟩
    { tree with
      rootComm := named.1
      events := tree.events ++ [event]
      riskScore := score (tree.events ++ [event])
      lastSeen := lastSeen
      length_rootComm := named.2.1
      nul_rootComm := named.2.2
      length_events := by rw [List.length_append, List.length_singleton]; omega }
  else { tree with riskScore := score tree.events, lastSeen := lastSeen }

def attackTreeSubmit (falco : LineageEvent → Bool) (trees : AttackTrees) (event : LineageEvent)
    (now : ℤ) : AttackTrees :=
  let found := findOrCreate trees.slots event.pid now
  ⟨trees.slots.set found.1 (some (found.2.note event (falco event) now)), by
    rw [List.length_set]
    exact trees.length_slots⟩

def attackTreeGc (trees : AttackTrees) (ttl now : ℤ) : AttackTrees :=
  ⟨trees.slots.map fun slot => slot.filter fun tree => ¬tree.lastSeen < now - ttl, by
    rw [List.length_map]
    exact trees.length_slots⟩

end LogGuardian
