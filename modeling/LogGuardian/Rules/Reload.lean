import LogGuardian.Lib.BoundedList
import LogGuardian.Lib.Machine
import LogGuardian.Rules.Conf

/-!
# Loading the rules again
-/

namespace LogGuardian

@[ext]
structure RulesLists where
  whitelistIps : BoundedList Bytes 256 := .empty
  proxyCidrs : BoundedList Bytes 32 := .empty
  trapUrls : BoundedList Bytes 32 := .empty
  trapFiles : BoundedList Bytes 16 := .empty
  endpointLimits : BoundedList (Bytes × ℤ) 8 := .empty
  deriving DecidableEq, Repr

inductive ListRule where
  | endpointLimit (path : Bytes) (limit : ℤ)
  | trapFile (path : Bytes)
  | whitelistIp (ip : Bytes)
  | trustProxyCidrs (cidrs : Bytes)
  | trapUrl (url : Bytes)
  deriving DecidableEq, Repr

def listRule (entry : Bytes × Bytes) : Option ListRule :=
  let val := entry.2
  if entry.1 = ascii "ANOMALY_THRESHOLD_LIMIT" then
    if chr ' ' ∈ val then
      some (.endpointLimit (val.takeWhile (· ≠ chr ' '))
        (atoi ((val.dropWhile (· ≠ chr ' ')).drop 1)))
    else none
  else if entry.1 = ascii "TRAP_FILE" then some (.trapFile val)
  else if entry.1 = ascii "WHITELIST_IP" then some (.whitelistIp val)
  else if entry.1 = ascii "TRUST_PROXY_CIDRS" ∨ entry.1 = ascii "TRUST_PROXY_CIDR" then
    some (.trustProxyCidrs val)
  else if entry.1 = ascii "TRAP_URL" then some (.trapUrl val)
  else none

def addTrapFile (path : Bytes) (files : BoundedList Bytes 16) : BoundedList Bytes 16 :=
  if path = [] then files else files.push (copyInto 4096 path)

/-- The tokens of `parser_add_proxy_cidr` that fit. -/
def proxyTokens (cidrs : Bytes) : List Bytes :=
  ((copyInto 256 cidrs).splitOnP (· ∈ ascii ", \t")).filter fun token =>
    token ≠ [] ∧ token.length < 64

def applyListRule (lists : RulesLists) : ListRule → RulesLists
  | .endpointLimit path limit =>
    { lists with endpointLimits := lists.endpointLimits.push (copyInto 128 path, limit) }
  | .trapFile path => { lists with trapFiles := addTrapFile path lists.trapFiles }
  | .whitelistIp ip =>
    if isValidIp ip then
      { lists with whitelistIps := lists.whitelistIps.push (copyInto ipStrLen ip) }
    else lists
  | .trustProxyCidrs cidrs =>
    { lists with proxyCidrs := lists.proxyCidrs.pushAll (proxyTokens cidrs) }
  | .trapUrl url => { lists with trapUrls := lists.trapUrls.push (copyInto 512 url) }

def listRules (content : Bytes) : List ListRule := (rulesEntries content).filterMap listRule

/-- `load_rules_file` on the lists. -/
def loadRulesFile (lists : RulesLists) (content : Bytes) : RulesLists :=
  (listRules content).foldl applyListRule { lists with whitelistIps := .empty, proxyCidrs := .empty }

def ensureDefaultTrapFiles (lists : RulesLists) : RulesLists :=
  if lists.trapFiles.items = [] then
    { lists with
      trapFiles := addTrapFile (ascii "wallet.dat")
        (addTrapFile (ascii "password.txt") lists.trapFiles) }
  else lists

def freshLists (content : Bytes) : RulesLists := ensureDefaultTrapFiles (loadRulesFile {} content)

namespace ListRule

def trapUrls : ListRule → List Bytes
  | .trapUrl url => [copyInto 512 url]
  | _ => []

def trapFiles : ListRule → List Bytes
  | .trapFile path => if path = [] then [] else [copyInto 4096 path]
  | _ => []

def endpointLimits : ListRule → List (Bytes × ℤ)
  | .endpointLimit path limit => [(copyInto 128 path, limit)]
  | _ => []

def whitelistIps : ListRule → List Bytes
  | .whitelistIp ip => if isValidIp ip then [copyInto ipStrLen ip] else []
  | _ => []

def proxyCidrs : ListRule → List Bytes
  | .trustProxyCidrs cidrs => proxyTokens cidrs
  | _ => []

end ListRule

theorem applyListRule_eq (lists : RulesLists) (rule : ListRule) :
    applyListRule lists rule =
      { whitelistIps := lists.whitelistIps.pushAll rule.whitelistIps
        proxyCidrs := lists.proxyCidrs.pushAll rule.proxyCidrs
        trapUrls := lists.trapUrls.pushAll rule.trapUrls
        trapFiles := lists.trapFiles.pushAll rule.trapFiles
        endpointLimits := lists.endpointLimits.pushAll rule.endpointLimits } := by
  cases rule with
  | trapFile path =>
    simp only [applyListRule, addTrapFile, ListRule.trapFiles]
    split <;> rfl
  | whitelistIp ip =>
    simp only [applyListRule, ListRule.whitelistIps]
    split <;> rfl
  | _ => rfl

def trapUrlsOf (content : Bytes) : List Bytes := (listRules content).flatMap ListRule.trapUrls

def trapFilesOf (content : Bytes) : List Bytes := (listRules content).flatMap ListRule.trapFiles

def endpointLimitsOf (content : Bytes) : List (Bytes × ℤ) :=
  (listRules content).flatMap ListRule.endpointLimits

section Load

variable (lists : RulesLists) (content : Bytes)

theorem trapUrls_loadRulesFile :
    (loadRulesFile lists content).trapUrls = lists.trapUrls.pushAll (trapUrlsOf content) := by
  apply BoundedList.foldl_component
  intro state rule
  rw [applyListRule_eq]

theorem trapFiles_loadRulesFile :
    (loadRulesFile lists content).trapFiles = lists.trapFiles.pushAll (trapFilesOf content) := by
  apply BoundedList.foldl_component
  intro state rule
  rw [applyListRule_eq]

theorem endpointLimits_loadRulesFile :
    (loadRulesFile lists content).endpointLimits =
      lists.endpointLimits.pushAll (endpointLimitsOf content) := by
  apply BoundedList.foldl_component
  intro state rule
  rw [applyListRule_eq]

theorem whitelistIps_loadRulesFile :
    (loadRulesFile lists content).whitelistIps =
      (.empty : BoundedList Bytes 256).pushAll ((listRules content).flatMap ListRule.whitelistIps) := by
  apply BoundedList.foldl_component
  intro state rule
  rw [applyListRule_eq]

theorem proxyCidrs_loadRulesFile :
    (loadRulesFile lists content).proxyCidrs =
      (.empty : BoundedList Bytes 32).pushAll ((listRules content).flatMap ListRule.proxyCidrs) := by
  apply BoundedList.foldl_component
  intro state rule
  rw [applyListRule_eq]

end Load

theorem ensureDefaultTrapFiles_eq (lists : RulesLists) :
    ensureDefaultTrapFiles lists =
      { lists with trapFiles := (ensureDefaultTrapFiles lists).trapFiles } := by
  unfold ensureDefaultTrapFiles
  split <;> rfl

def defaultTrapFiles : List Bytes := [ascii "password.txt", ascii "wallet.dat"]

theorem trapFiles_freshLists (content : Bytes) :
    (freshLists content).trapFiles =
      if trapFilesOf content = [] then (.empty : BoundedList Bytes 16).pushAll defaultTrapFiles
      else (.empty : BoundedList Bytes 16).pushAll (trapFilesOf content) := by
  have loaded := trapFiles_loadRulesFile {} content
  have empty : (loadRulesFile {} content).trapFiles.items = [] ↔ trapFilesOf content = [] := by
    rw [loaded]
    simp
  unfold freshLists ensureDefaultTrapFiles
  by_cases none : trapFilesOf content = []
  · rw [if_pos (empty.mpr none), if_pos none]
    have start : (loadRulesFile {} content).trapFiles = .empty := by
      rw [loaded, none]
      rfl
    rw [start]
    rfl
  · rw [if_neg (mt empty.mp none), if_neg none]
    exact loaded

def reloadedLists (first : Bytes) (reloads : List Bytes) : RulesLists :=
  Machine.run loadRulesFile (freshLists first) reloads

/-- What a reload needs of the lists that are only appended to: each one is empty, or the file
repeats its contents up to the capacity. -/
structure ReloadsCleanly (before : RulesLists) (content : Bytes) : Prop where
  trapUrls : before.trapUrls.items = [] ∨ before.trapUrls.Absorbs (trapUrlsOf content)
  endpointLimits :
    before.endpointLimits.items = [] ∨ before.endpointLimits.Absorbs (endpointLimitsOf content)
  trapFiles :
    if trapFilesOf content = [] then before.trapFiles.items = defaultTrapFiles
    else before.trapFiles.Absorbs (trapFilesOf content)

theorem trapFiles_ne_nil (first : Bytes) (reloads : List Bytes) :
    (reloadedLists first reloads).trapFiles.items ≠ [] := by
  apply Machine.run_invariant (fun lists : RulesLists => lists.trapFiles.items ≠ [])
  · intro lists content some
    rw [trapFiles_loadRulesFile, BoundedList.items_pushAll]
    simp [some]
  · rw [trapFiles_freshLists]
    split_ifs with none
    · decide
    · simp [none]

theorem trapFiles_reload_iff {lists : RulesLists} (some : lists.trapFiles.items ≠ [])
    (content : Bytes) :
    (loadRulesFile lists content).trapFiles = (freshLists content).trapFiles ↔
      if trapFilesOf content = [] then lists.trapFiles.items = defaultTrapFiles
      else lists.trapFiles.Absorbs (trapFilesOf content) := by
  rw [trapFiles_loadRulesFile, trapFiles_freshLists]
  split_ifs with none
  · rw [none, BoundedList.ext_iff]
    rfl
  · rw [BoundedList.pushAll_eq_fresh_iff]
    exact or_iff_right some

end LogGuardian
