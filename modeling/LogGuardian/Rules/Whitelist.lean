import LogGuardian.Ban.Producers
import LogGuardian.Lib.CountedArray
import LogGuardian.Rules.Reload

/-!
# The whitelist as a set
-/

namespace LogGuardian

open List

abbrev WhitelistArray := CountedArray Bytes 256

namespace WhitelistArray

def empty : WhitelistArray := ⟨fun _ => [], 0, by decide⟩

variable (array : WhitelistArray)

def isWhitelistedIp (ip : Bytes) : Bool := (array.indexOf ip).isSome

def lgAddWhitelistIp (ip : Bytes) : ℤ × WhitelistArray :=
  if !isValidIp ip then (-1, array)
  else if isWhitelistedIp array ip then (0, array)
  else if 256 ≤ array.count then (-1, array)
  else (0, array.push (copyInto ipStrLen ip))

def lgRemoveWhitelistIp (ip : Bytes) : ℤ × WhitelistArray :=
  if !isValidIp ip then (-1, array)
  else
    match array.indexOf ip with
    | some index => (0, array.removeAt index)
    | none => (1, array)

/-- The branch `WHITELIST_IP` of `load_rules_file`. -/
def loadEntry (entry : Bytes × Bytes) : WhitelistArray :=
  if entry.1 = ascii "WHITELIST_IP" ∧ array.count < 256 ∧ isValidIp entry.2 = true then
    array.push (copyInto ipStrLen entry.2)
  else array

/-- `load_rules_file` on the whitelist. -/
def loadRulesFile (file : Option Bytes) : WhitelistArray :=
  match file with
  | none => array
  | some content => (rulesEntries content).foldl loadEntry array.clear

end WhitelistArray

inductive WhitelistEvent where
  | load (file : Option Bytes)
  | add (ip : Bytes)
  | remove (ip : Bytes)
  deriving DecidableEq, Repr

def whitelistStep (array : WhitelistArray) : WhitelistEvent → WhitelistArray
  | .load file => array.loadRulesFile file
  | .add ip => (array.lgAddWhitelistIp ip).2
  | .remove ip => (array.lgRemoveWhitelistIp ip).2

def whitelistRun (events : List WhitelistEvent) : WhitelistArray :=
  Machine.run whitelistStep WhitelistArray.empty events

/-- A removal takes the address out and leaves the others as they are. -/
def RemovesAsSet (array : WhitelistArray) : Prop :=
  ∀ ip, (array.lgRemoveWhitelistIp ip).1 = 0 →
    (array.lgRemoveWhitelistIp ip).2.isWhitelistedIp ip = false ∧
      ∀ other, other ≠ ip → (array.lgRemoveWhitelistIp ip).2.isWhitelistedIp other =
        array.isWhitelistedIp other

/-- The addresses of a rules file, as many as fit, are different. -/
def ListsOnce (content : Bytes) : Prop :=
  (((listRules content).flatMap ListRule.whitelistIps).take 256).Nodup

instance (content : Bytes) : Decidable (ListsOnce content) :=
  inferInstanceAs (Decidable (List.Nodup _))

section Refinement

variable (array : WhitelistArray)

theorem isWhitelistedIp_toList (ip : Bytes) :
    isWhitelistedIp array.toList ip = array.isWhitelistedIp ip := by
  rw [Bool.eq_iff_iff, isWhitelistedIp, decide_eq_true_eq, ← array.isSome_indexOf]
  rfl

theorem toList_lgAddWhitelistIp (ip : Bytes) :
    (array.lgAddWhitelistIp ip).2.toList = lgAddWhitelistIp array.toList ip := by
  rw [lgAddWhitelistIp, isWhitelistedIp_toList, WhitelistArray.lgAddWhitelistIp]
  by_cases valid : isValidIp ip = true
  · by_cases listed : array.isWhitelistedIp ip = true
    · simp [valid, listed]
    · by_cases full : 256 ≤ array.count
      · simp [listed, full]
      · simp [valid, listed, full, array.toList_push_of_lt (Nat.lt_of_not_le full)]
  · simp [valid]

theorem toList_lgRemoveWhitelistIp (ip : Bytes) :
    (array.lgRemoveWhitelistIp ip).2.toList = lgRemoveWhitelistIp array.toList ip := by
  rw [lgRemoveWhitelistIp, WhitelistArray.lgRemoveWhitelistIp]
  by_cases valid : isValidIp ip = true
  · rcases found : array.indexOf ip with _ | index
    · have absent : ip ∉ array.toList := by
        rw [← array.isSome_indexOf, found]
        simp
      simp [valid, erase_of_not_mem absent]
    · simp [valid, array.toList_removeAt_indexOf found]
  · simp [valid]

theorem lgRemoveWhitelistIp_eq_zero_iff (ip : Bytes) :
    (array.lgRemoveWhitelistIp ip).1 = 0 ↔ isValidIp ip = true ∧ ip ∈ array.toList := by
  rw [WhitelistArray.lgRemoveWhitelistIp, ← array.isSome_indexOf]
  by_cases valid : isValidIp ip = true
  · rcases found : array.indexOf ip with _ | index
    · simp [valid]
    · simp [valid]
  · simp [valid]

theorem loadEntry_eq (entry : Bytes × Bytes) :
    array.loadEntry entry =
      ((listRule entry).toList.flatMap ListRule.whitelistIps).foldl CountedArray.push array := by
  by_cases named : entry.1 = ascii "WHITELIST_IP"
  · have rule : listRule entry = some (.whitelistIp entry.2) := by
      rw [listRule, named, if_neg (by decide), if_neg (by decide), if_pos rfl]
    have added : ((listRule entry).toList.flatMap ListRule.whitelistIps) =
        if isValidIp entry.2 then [copyInto ipStrLen entry.2] else [] := by
      simp [rule, ListRule.whitelistIps]
    rw [added, WhitelistArray.loadEntry]
    by_cases valid : isValidIp entry.2 = true
    · by_cases room : array.count < 256
      · simp [named, valid, room]
      · simp [named, valid, room, CountedArray.push]
    · simp [valid]
  · have nothing : (listRule entry).toList.flatMap ListRule.whitelistIps = [] := by
      simp only [listRule]
      split_ifs <;> first | contradiction | rfl
    rw [nothing, WhitelistArray.loadEntry, if_neg (fun both => named both.1)]
    rfl

theorem toList_loadRulesFile (content : Bytes) :
    (array.loadRulesFile (some content)).toList =
      ((listRules content).flatMap ListRule.whitelistIps).take 256 := by
  have whole : ∀ (entries : List (Bytes × Bytes)) (start : WhitelistArray),
      entries.foldl WhitelistArray.loadEntry start =
        ((entries.filterMap listRule).flatMap ListRule.whitelistIps).foldl CountedArray.push start := by
    intro entries
    induction entries with
    | nil => intro start; rfl
    | cons entry rest ih =>
      intro start
      rw [foldl_cons, ih, loadEntry_eq, ← foldl_append]
      rcases rule : listRule entry with _ | rule <;> simp [rule]
  rw [WhitelistArray.loadRulesFile, whole, CountedArray.toList_foldl_push]
  rfl

end Refinement

section Removals

variable {array : WhitelistArray}

/-- Every stored text is an address. -/
def AllValid (array : WhitelistArray) : Prop := ∀ ip ∈ array.toList, isValidIp ip = true

theorem removesAsSet_iff_nodup (valid : AllValid array) :
    RemovesAsSet array ↔ array.toList.Nodup := by
  constructor
  · intro removes
    rw [nodup_iff_count_le_one]
    intro ip
    by_contra twice
    have listed : ip ∈ array.toList := List.count_pos_iff.mp (by omega)
    have gone := (removes ip ((lgRemoveWhitelistIp_eq_zero_iff array ip).mpr
      ⟨valid ip listed, listed⟩)).1
    rw [← isWhitelistedIp_toList, toList_lgRemoveWhitelistIp, lgRemoveWhitelistIp,
      if_pos (valid ip listed), isWhitelistedIp, decide_eq_false_iff_not] at gone
    apply gone
    rw [← count_pos_iff, count_erase_self]
    omega
  · intro once ip zero
    have both := (lgRemoveWhitelistIp_eq_zero_iff array ip).mp zero
    rw [← isWhitelistedIp_toList, toList_lgRemoveWhitelistIp, lgRemoveWhitelistIp, if_pos both.1]
    constructor
    · rw [isWhitelistedIp, decide_eq_false_iff_not]
      exact once.not_mem_erase
    · intro other different
      rw [← isWhitelistedIp_toList, ← isWhitelistedIp_toList, toList_lgRemoveWhitelistIp,
        lgRemoveWhitelistIp, if_pos both.1, isWhitelistedIp, isWhitelistedIp]
      simp [mem_erase_of_ne different]

theorem isValidIp_of_mem_whitelistIps {rules : List ListRule} {ip : Bytes}
    (listed : ip ∈ rules.flatMap ListRule.whitelistIps) : isValidIp ip = true := by
  rcases List.mem_flatMap.mp listed with ⟨rule, _, added⟩
  cases rule with
  | whitelistIp val =>
    rw [ListRule.whitelistIps] at added
    by_cases valid : isValidIp val = true
    · rw [if_pos valid, mem_singleton, copyInto_of_isValidIp valid ipStrLen.le_refl] at added
      rw [added]
      exact valid
    · simp [valid] at added
  | _ => cases added

theorem allValid_step (valid : AllValid array) (event : WhitelistEvent) :
    AllValid (whitelistStep array event) := by
  intro ip listed
  cases event with
  | load file =>
    rcases file with _ | content
    · exact valid ip listed
    · rw [whitelistStep, toList_loadRulesFile] at listed
      exact isValidIp_of_mem_whitelistIps (mem_of_mem_take listed)
  | add added =>
    rw [whitelistStep, toList_lgAddWhitelistIp, lgAddWhitelistIp] at listed
    split at listed
    · exact valid ip listed
    · rename_i stored
      simp only [Bool.or_eq_true, not_or, Bool.not_eq_true', Bool.not_eq_false] at stored
      rw [copyInto_of_isValidIp stored.1.1 ipStrLen.le_refl, mem_append, mem_singleton] at listed
      rcases listed with old | rfl
      · exact valid ip old
      · exact stored.1.1
  | remove removed =>
    rw [whitelistStep, toList_lgRemoveWhitelistIp, lgRemoveWhitelistIp] at listed
    split at listed
    · exact valid ip (mem_of_mem_erase listed)
    · exact valid ip listed

theorem allValid_whitelistRun (events : List WhitelistEvent) : AllValid (whitelistRun events) := by
  apply Machine.run_invariant AllValid
  · exact fun _ event valid => allValid_step valid event
  · intro ip listed
    cases listed

theorem nodup_step (once : array.toList.Nodup) {event : WhitelistEvent}
    (distinct : ∀ content, event = .load (some content) → ListsOnce content) :
    (whitelistStep array event).toList.Nodup := by
  cases event with
  | load file =>
    rcases file with _ | content
    · exact once
    · rw [whitelistStep, toList_loadRulesFile]
      exact distinct content rfl
  | add added =>
    rw [whitelistStep, toList_lgAddWhitelistIp, lgAddWhitelistIp]
    split
    · exact once
    · rename_i stored
      simp only [isWhitelistedIp, Bool.or_eq_true, not_or, Bool.not_eq_true', Bool.not_eq_false,
        decide_eq_true_eq] at stored
      rw [copyInto_of_isValidIp stored.1.1 ipStrLen.le_refl]
      rw [← concat_eq_append]
      exact once.concat stored.1.2
  | remove removed =>
    rw [whitelistStep, toList_lgRemoveWhitelistIp, lgRemoveWhitelistIp]
    split
    · exact once.erase removed
    · exact once

theorem nodup_whitelistRun {events : List WhitelistEvent}
    (distinct : ∀ content, .load (some content) ∈ events → ListsOnce content) :
    (whitelistRun events).toList.Nodup := by
  induction events using reverseRecOn with
  | nil => exact nodup_nil
  | append_singleton events event ih =>
    rw [whitelistRun, Machine.run_append]
    apply nodup_step
    · exact ih fun content loaded => distinct content (mem_append_left _ loaded)
    · rintro content rfl
      exact distinct content (by simp)

end Removals

/-- At every point of a run the whitelist behaves as a set, exactly if every rules file of the
run stores every address once. -/
theorem whitelistRun_removesAsSet_iff (events : List WhitelistEvent) :
    (∀ before, before <+: events → RemovesAsSet (whitelistRun before)) ↔
      ∀ content, .load (some content) ∈ events → ListsOnce content := by
  constructor
  · intro removes content loaded
    rcases append_of_mem loaded with ⟨before, after, rfl⟩
    have there := removes (before ++ [.load (some content)]) ⟨after, by simp⟩
    rw [removesAsSet_iff_nodup (allValid_whitelistRun _), whitelistRun, Machine.run_append] at there
    rw [ListsOnce, ← toList_loadRulesFile (whitelistRun before)]
    exact there
  · intro distinct before initial
    rw [removesAsSet_iff_nodup (allValid_whitelistRun _)]
    apply nodup_whitelistRun
    intro content loaded
    exact distinct content (initial.subset loaded)

def repeatedRules : Bytes := ascii "WHITELIST_IP=198.51.100.7\nWHITELIST_IP=198.51.100.7\n"

/-- The removal succeeds, and the address is still whitelisted. -/
theorem removed_still_whitelisted :
    ((whitelistRun [.load (some repeatedRules)]).lgRemoveWhitelistIp (ascii "198.51.100.7")).1 = 0 ∧
      (whitelistRun [.load (some repeatedRules), .remove (ascii "198.51.100.7")]).isWhitelistedIp
        (ascii "198.51.100.7") = true := by
  decide +kernel

end LogGuardian
