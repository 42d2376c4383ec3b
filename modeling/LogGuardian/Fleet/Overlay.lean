import LogGuardian.Lib.Machine
import LogGuardian.Rules.Conf

/-!
# The overlay file
-/

namespace LogGuardian

open List

def isBlank (byte : UInt8) : Bool := byte = chr ' ' || byte = chr '\t'

def trimRight (test : UInt8 → Bool) (text : Bytes) : Bytes := (text.reverse.dropWhile test).reverse

def skipsLine (line : Bytes) : Bool :=
  let text := line.dropWhile isBlank
  text.head? = some (chr '#') || text.head? = some (chr '\n')

/-- The key in front of the first `=`. -/
def overlayKey (line : Bytes) : Bytes :=
  trimRight isBlank ((line.dropWhile isBlank).takeWhile (· ≠ chr '='))

/-- What is left of a line in the array after it has been cut at its `=`. -/
def cutLine (line : Bytes) : Bytes := line.takeWhile isBlank ++ overlayKey line

def overlayLine (key val : Bytes) : Bytes := copyInto 512 (key ++ chr '=' :: val ++ [chr '\n'])

/-- The array of `upsert_overlay_line`, with the number of lines that still fit. -/
def upsertLines (key val : Bytes) : ℕ → List Bytes → List Bytes
  | 0, _ => []
  | _ + 1, [] => [overlayLine key val]
  | room + 1, line :: rest =>
    if skipsLine line then upsertLines key val (room + 1) rest
    else if chr '=' ∈ line then
      if overlayKey line = key then [] else cutLine line :: upsertLines key val room rest
    else line :: upsertLines key val room rest

def overlayHeader : Bytes :=
  ascii "# Fleet overlay " ++ [0xe2, 0x80, 0x94] ++ ascii " PUSH_CONFIG ile guncellenir\n"

def upsertOverlayLine (key val : Bytes) (file : Option Bytes) : Bytes :=
  overlayHeader ++ (upsertLines key val 64 (fgetsLines 512 (file.getD []))).flatten

structure FleetSettings where
  wafLfi : Bool := true
  wafSsrf : Bool := true
  wafXss : Bool := true
  wafShellcmd : Bool := true
  wafEnabled : Bool := true
  wafBanThreshold : ℤ := 10
  openapiStrict : Bool := false
  incidentMinLogHits : ℤ := 3
  incidentWindowSec : ℤ := 600
  openapiSchema : Bytes := []
  wasmPluginDir : Bytes := ascii "/etc/log-guardian/plugins"
  deriving DecidableEq, Repr

/-- The number in `apply_key_value`: digits up to the end or a line feed. -/
def overlayNumber (val : Bytes) : Option ℤ :=
  match strtolSplit val with
  | some (_, rest) => if rest = [] ∨ rest.head? = some (chr '\n') then some (strtol val) else none
  | none => none

/-- The settings that a key and a value lead to; `none` if the schema cannot be loaded. -/
def applySetting (schemaLoads : Bytes → Bool) (key val : Bytes) (settings : FleetSettings) :
    Option FleetSettings :=
  match overlayNumber val with
  | some n =>
    if key = ascii "WAF_LFI" then some { settings with wafLfi := n ≠ 0 }
    else if key = ascii "WAF_SSRF" then some { settings with wafSsrf := n ≠ 0 }
    else if key = ascii "WAF_XSS" then some { settings with wafXss := n ≠ 0 }
    else if key = ascii "WAF_SHELLCMD" then some { settings with wafShellcmd := n ≠ 0 }
    else if key = ascii "WAF_ENABLED" then some { settings with wafEnabled := n ≠ 0 }
    else if key = ascii "WAF_SCORE_BAN_THRESHOLD" ∧ 0 < n then
      some { settings with wafBanThreshold := toCInt n }
    else if key = ascii "OPENAPI_STRICT" then some { settings with openapiStrict := n ≠ 0 }
    else if key = ascii "INCIDENT_MIN_LOG_HITS" ∧ 1 ≤ n then
      some { settings with
        incidentMinLogHits :=
          if 1 ≤ toCInt n ∧ toCInt n ≤ 64 then toCInt n else settings.incidentMinLogHits }
    else if key = ascii "INCIDENT_WINDOW_SEC" ∧ 60 ≤ n then
      some { settings with
        incidentWindowSec :=
          if 60 ≤ toCInt n ∧ toCInt n ≤ 86400 then toCInt n else settings.incidentWindowSec }
    else applyText settings
  | none => applyText settings
where
  applyText (settings : FleetSettings) : Option FleetSettings :=
    if key = ascii "OPENAPI_SCHEMA" ∧ val ≠ [] then
      if schemaLoads val then some { settings with openapiSchema := val } else none
    else if key = ascii "WASM_PLUGIN_DIR" ∧ val ≠ [] then
      some { settings with wasmPluginDir := copyInto 256 val }
    else some settings

structure OverlayState where
  settings : FleetSettings
  file : Option Bytes
  deriving DecidableEq, Repr

/-- `apply_key_value`: whether it returns 0, and the state. -/
def applyKeyValue (schemaLoads : Bytes → Bool) (key val : Bytes) (state : OverlayState) :
    Bool × OverlayState :=
  if key = [] then (false, state)
  else
    match applySetting schemaLoads key val state.settings with
    | some settings => (true, ⟨settings, some (upsertOverlayLine key val state.file)⟩)
    | none => (false, state)

def trimValue : Bytes → Bytes
  | [] => []
  | first :: rest => first :: trimRight (fun byte => byte ∈ ascii " \t\n\r") rest

/-- Key and value of a payload, `KEY=VALUE` or two words. -/
def payloadPair (payload : Bytes) : Option (Bytes × Bytes) :=
  if chr '=' ∈ payload then
    let key := copyInto 128 (payload.takeWhile (· ≠ chr '='))
    let val := copyInto 384 ((payload.dropWhile (· ≠ chr '=')).drop 1)
    some (key.dropWhile isBlank, trimValue val)
  else
    let words := payload.dropWhile isSpace
    let key := copyInto 128 (words.takeWhile (!isSpace ·))
    let val := copyInto 384 (((words.drop key.length).dropWhile isSpace).takeWhile (!isSpace ·))
    if key = [] ∨ val = [] then none else some (key.dropWhile isBlank, trimValue val)

def rulesFleetApplyKv (schemaLoads : Bytes → Bool) (payload : Bytes) (state : OverlayState) :
    Bool × OverlayState :=
  match payloadPair payload with
  | some (key, val) => applyKeyValue schemaLoads key val state
  | none => (false, state)

/-- Key and value of a line in `rules_fleet_reload_overlay`; the value keeps the line feed. -/
def overlayEntry (line : Bytes) : Option (Bytes × Bytes) :=
  if skipsLine line ∨ chr '=' ∉ line then none
  else some (overlayKey line, ((line.dropWhile (· ≠ chr '=')).drop 1).dropWhile isBlank)

def overlayLines (file : Option Bytes) : List (Bytes × Bytes) :=
  (fgetsLines 512 (file.getD [])).filterMap overlayEntry

/-- The loop of `rules_fleet_reload_overlay` over the lines that the file had when it was opened:
the calls of `apply_key_value` that returned 0, and the state. -/
def reloadLines (schemaLoads : Bytes → Bool) :
    List (Bytes × Bytes) → OverlayState → List (Bytes × Bytes) × OverlayState
  | [], state => ([], state)
  | (key, val) :: rest, state =>
    let applied := applyKeyValue schemaLoads key val state
    let later := reloadLines schemaLoads rest applied.2
    (if applied.1 then (key, val) :: later.1 else later.1, later.2)

def rulesFleetReloadOverlay (schemaLoads : Bytes → Bool) (state : OverlayState) :
    List (Bytes × Bytes) × OverlayState :=
  reloadLines schemaLoads (overlayLines state.file) state

def cleanEntry (entry : Bytes × Bytes) : Bytes × Bytes :=
  (entry.1, if entry.2.getLast? = some (chr '\n') then entry.2.dropLast else entry.2)

def overlayMapping (file : Option Bytes) : List (Bytes × Bytes) :=
  (overlayLines file).map cleanEntry

/-- Key and value of a payload without the blanks around the `=`. -/
def pushedEntry (payload : Bytes) : Option (Bytes × Bytes) :=
  (payloadPair payload).map fun pair => (trimRight isBlank pair.1, pair.2.dropWhile isBlank)

def pushStep (schemaLoads : Bytes → Bool) (state : OverlayState) (payload : Bytes) : OverlayState :=
  (rulesFleetApplyKv schemaLoads payload state).2

def AcceptsPush (schemaLoads : Bytes → Bool) (state : OverlayState) (payload : Bytes) : Prop :=
  (rulesFleetApplyKv schemaLoads payload state).1 = true

instance (schemaLoads : Bytes → Bool) (state : OverlayState) (payload : Bytes) :
    Decidable (AcceptsPush schemaLoads state payload) := by
  unfold AcceptsPush
  infer_instance

structure OverlayLaw (schemaLoads : Bytes → Bool) (payloads : List Bytes) (state : OverlayState) :
    Prop where
  contains : ∀ entry ∈ payloads.filterMap pushedEntry,
    (overlayMapping state.file).filter (·.1 = entry.1) =
      ((payloads.filterMap pushedEntry).filter (·.1 = entry.1)).getLast?.toList
  unchanged : ∀ entry,
    entry ∈ overlayMapping (rulesFleetReloadOverlay schemaLoads state).2.file ↔
      entry ∈ overlayMapping state.file
  reapplied : ∀ entry,
    entry ∈ (rulesFleetReloadOverlay schemaLoads state).1.map cleanEntry ↔
      entry ∈ overlayMapping state.file

def equalsSigns (text : Bytes) : ℕ := text.count (chr '=')

theorem equalsSigns_eq_zero {text : Bytes} : equalsSigns text = 0 ↔ chr '=' ∉ text :=
  count_eq_zero

theorem equalsSigns_append (first second : Bytes) :
    equalsSigns (first ++ second) = equalsSigns first + equalsSigns second :=
  count_append

theorem equalsSigns_dropWhile_isBlank (text : Bytes) :
    equalsSigns (text.dropWhile isBlank) = equalsSigns text := by
  have split := congrArg equalsSigns (takeWhile_append_dropWhile (p := isBlank) (l := text))
  rw [equalsSigns_append] at split
  have blanks : equalsSigns (text.takeWhile isBlank) = 0 := by
    rw [equalsSigns_eq_zero]
    intro mem
    exact absurd (mem_takeWhile_imp mem) (by decide)
  omega

theorem equalsSigns_cleanEntry (entry : Bytes × Bytes) :
    equalsSigns (cleanEntry entry).2 = equalsSigns entry.2 := by
  unfold cleanEntry
  split
  · rename_i feed
    rcases getLast?_eq_some_iff.mp feed with ⟨front, split⟩
    rw [split, dropLast_concat, equalsSigns_append]
    rfl
  · rfl

theorem sum_equalsSigns_fgetsFrom (size : ℕ) (content line : Bytes) :
    ((fgetsFrom size content line).map equalsSigns).sum =
      equalsSigns line + equalsSigns content := by
  induction content generalizing line with
  | nil =>
    unfold fgetsFrom
    split_ifs with empty
    · rw [empty]
      rfl
    · simp [equalsSigns]
  | cons byte rest ih =>
    have front : equalsSigns (byte :: rest) = equalsSigns [byte] + equalsSigns rest :=
      equalsSigns_append [byte] rest
    unfold fgetsFrom
    split_ifs
    · have none : equalsSigns [] = 0 := rfl
      rw [map_cons, sum_cons, ih, equalsSigns_append]
      omega
    · rw [ih, equalsSigns_append]
      omega

theorem sum_equalsSigns_fgetsLines_le (size : ℕ) (content : Bytes) :
    ((fgetsLines size content).map equalsSigns).sum ≤ equalsSigns content := by
  have total := sum_equalsSigns_fgetsFrom size content []
  have none : equalsSigns [] = 0 := rfl
  rw [none, Nat.zero_add] at total
  rw [← total, fgetsLines, map_map]
  apply sum_le_sum
  intro line _
  exact (takeWhile_sublist _).count_le _

variable {line key old content payload val : Bytes} {entry : Bytes × Bytes}
  {lines payloads : List Bytes} {schemaLoads : Bytes → Bool} {state : OverlayState}

theorem equalsSigns_of_overlayEntry (read : overlayEntry line = some entry) :
    equalsSigns line = 1 + equalsSigns entry.2 := by
  unfold overlayEntry at read
  split_ifs at read with skipped
  rw [not_or, not_not] at skipped
  rw [← Option.some.inj read, equalsSigns_dropWhile_isBlank]
  have before : equalsSigns (line.takeWhile (· ≠ chr '=')) = 0 := by
    rw [equalsSigns_eq_zero]
    intro mem
    simpa using mem_takeWhile_imp mem
  have split := congrArg equalsSigns
    (takeWhile_append_dropWhile (p := (· ≠ chr '=')) (l := line))
  rw [equalsSigns_append, before, Nat.zero_add] at split
  rw [← split]
  rcases rest : line.dropWhile (· ≠ chr '=') with _ | ⟨sign, value⟩
  · have all := List.dropWhile_eq_nil_iff.mp rest _ skipped.2
    simp at all
  · have found : sign = chr '=' := by
      have := head?_dropWhile_not (· ≠ chr '=') line
      rw [rest] at this
      simpa using this
    rw [found]
    exact equalsSigns_append [chr '='] value

theorem equalsSigns_cutLine (line : Bytes) : equalsSigns (cutLine line) = 0 := by
  rw [equalsSigns_eq_zero, cutLine, mem_append, not_or]
  constructor
  · intro mem
    exact absurd (mem_takeWhile_imp mem) (by decide)
  · intro mem
    rw [overlayKey, trimRight, mem_reverse] at mem
    have before := List.mem_reverse.mp ((dropWhile_sublist _).mem mem)
    simpa using mem_takeWhile_imp before

theorem equalsSigns_overlayLine_le (plain : chr '=' ∉ key) (val : Bytes) :
    equalsSigns (overlayLine key val) ≤ 1 + equalsSigns val := by
  have cut : equalsSigns (overlayLine key val) ≤
      equalsSigns (key ++ chr '=' :: val ++ [chr '\n']) := (take_sublist _ _).count_le _
  have sign : equalsSigns (chr '=' :: val) = 1 + equalsSigns val := equalsSigns_append [chr '='] val
  have feed : equalsSigns [chr '\n'] = 0 := rfl
  rw [equalsSigns_append, equalsSigns_append, equalsSigns_eq_zero.mpr plain] at cut
  omega

theorem equalsSigns_upsertLines_le (key val : Bytes) (room : ℕ) (lines : List Bytes) :
    equalsSigns (upsertLines key val room lines).flatten ≤ equalsSigns (overlayLine key val) := by
  induction lines generalizing room with
  | nil =>
    cases room with
    | zero => exact Nat.zero_le _
    | succ room => simp [upsertLines]
  | cons line rest ih =>
    cases room with
    | zero => exact Nat.zero_le _
    | succ room =>
      unfold upsertLines
      split_ifs with skipped sign found
      · exact ih _
      · exact Nat.zero_le _
      · rw [flatten_cons, equalsSigns_append, equalsSigns_cutLine, Nat.zero_add]
        exact ih _
      · rw [flatten_cons, equalsSigns_append, equalsSigns_eq_zero.mpr sign, Nat.zero_add]
        exact ih _

theorem equalsSigns_upsertLines_of_mem (mem : line ∈ lines)
    (read : overlayEntry line = some (key, old)) (val : Bytes) (room : ℕ) :
    equalsSigns (upsertLines key val room lines).flatten = 0 := by
  induction lines generalizing room with
  | nil => cases mem
  | cons first rest ih =>
    cases room with
    | zero => rfl
    | succ room =>
      unfold upsertLines
      rcases List.mem_cons.mp mem with rfl | later
      · unfold overlayEntry at read
        split_ifs at read with skipped
        rw [not_or, not_not] at skipped
        rw [Option.some.injEq, Prod.mk.injEq] at read
        rw [if_neg skipped.1, if_pos skipped.2, if_pos read.1]
        rfl
      · split_ifs with skipped sign found
        · exact ih later _
        · rfl
        · rw [flatten_cons, equalsSigns_append, equalsSigns_cutLine, ih later]
        · rw [flatten_cons, equalsSigns_append, equalsSigns_eq_zero.mpr sign, ih later]

theorem equalsSigns_overlayHeader : equalsSigns overlayHeader = 0 := by decide

theorem equalsSigns_upsertOverlayLine_le (plain : chr '=' ∉ key) (val : Bytes) (file : Option Bytes) :
    equalsSigns (upsertOverlayLine key val file) ≤ 1 + equalsSigns val := by
  rw [upsertOverlayLine, equalsSigns_append, equalsSigns_overlayHeader, Nat.zero_add]
  exact (equalsSigns_upsertLines_le key val _ _).trans (equalsSigns_overlayLine_le plain val)

theorem equalsSigns_upsertOverlayLine_of_mem {file : Option Bytes}
    (mem : (key, old) ∈ overlayLines file) (val : Bytes) :
    equalsSigns (upsertOverlayLine key val file) = 0 := by
  rcases List.mem_filterMap.mp mem with ⟨line, inside, read⟩
  rw [upsertOverlayLine, equalsSigns_append, equalsSigns_overlayHeader,
    equalsSigns_upsertLines_of_mem inside read]

theorem overlayEntry_eq_none (plain : equalsSigns line = 0) :
    overlayEntry line = none := by
  rw [overlayEntry, if_pos (Or.inr (equalsSigns_eq_zero.mp plain))]

theorem filterMap_overlayEntry_eq_nil (plain : (lines.map equalsSigns).sum = 0) :
    lines.filterMap overlayEntry = [] := by
  rw [filterMap_eq_nil_iff]
  intro line mem
  apply overlayEntry_eq_none
  exact List.sum_eq_zero_iff.mp plain _ (mem_map_of_mem mem)

theorem overlayLines_eq_nil (plain : equalsSigns content = 0) :
    overlayLines (some content) = [] := by
  apply filterMap_overlayEntry_eq_nil
  have := sum_equalsSigns_fgetsLines_le 512 content
  rw [Option.getD_some]
  omega

theorem overlayLines_eq_singleton (mem : entry ∈ overlayLines (some content))
    (bounded : equalsSigns content ≤ 1 + equalsSigns entry.2) :
    overlayLines (some content) = [entry] := by
  rcases List.mem_filterMap.mp mem with ⟨line, inside, read⟩
  rcases append_of_mem inside with ⟨before, after, split⟩
  have total := sum_equalsSigns_fgetsLines_le 512 content
  rw [Option.getD_some] at split
  rw [split, map_append, map_cons, sum_append, sum_cons,
    equalsSigns_of_overlayEntry read] at total
  rw [overlayLines, Option.getD_some, split, filterMap_append, filterMap_cons, read,
    filterMap_overlayEntry_eq_nil (by omega), filterMap_overlayEntry_eq_nil (by omega)]
  rfl

theorem not_mem_key_of_payloadPair (pair : payloadPair payload = some (key, val)) :
    chr '=' ∉ key := by
  intro mem
  unfold payloadPair at pair
  split_ifs at pair with sign
  · rw [Option.some.injEq, Prod.mk.injEq] at pair
    rw [← pair.1] at mem
    have before := (take_sublist _ _).mem ((dropWhile_sublist _).mem mem)
    simpa using mem_takeWhile_imp before
  · dsimp only at pair
    split_ifs at pair
    rw [Option.some.injEq, Prod.mk.injEq] at pair
    rw [← pair.1] at mem
    have word := (take_sublist _ _).mem ((dropWhile_sublist _).mem mem)
    exact sign ((dropWhile_sublist _).mem ((takeWhile_sublist _).mem word))

theorem file_of_applyKeyValue (applied : (applyKeyValue schemaLoads key val state).1 = true) :
    (applyKeyValue schemaLoads key val state).2.file =
      some (upsertOverlayLine key val state.file) := by
  unfold applyKeyValue at applied ⊢
  split_ifs at applied ⊢ with empty
  rcases setting : applySetting schemaLoads key val state.settings with _ | settings
  · rw [setting] at applied
    cases applied
  · rfl

theorem file_of_acceptsPush (accepted : AcceptsPush schemaLoads state payload) :
    ∃ key val, payloadPair payload = some (key, val) ∧
      (pushStep schemaLoads state payload).file = some (upsertOverlayLine key val state.file) := by
  unfold AcceptsPush rulesFleetApplyKv at accepted
  unfold pushStep rulesFleetApplyKv
  rcases pair : payloadPair payload with _ | ⟨key, val⟩
  · rw [pair] at accepted
    cases accepted
  · rw [pair] at accepted
    exact ⟨key, val, rfl, file_of_applyKeyValue accepted⟩

theorem not_law_of_singleton (single : overlayLines state.file = [entry]) :
    ¬OverlayLaw schemaLoads payloads state := by
  intro law
  have listed : cleanEntry entry ∈ overlayMapping state.file := by simp [overlayMapping, single]
  rcases applied : (applyKeyValue schemaLoads entry.1 entry.2 state).1 with _ | _
  · have log := (law.reapplied _).mpr listed
    simp [rulesFleetReloadOverlay, single, reloadLines, applied] at log
  · have kept := (law.unchanged _).mpr listed
    have rewritten : (rulesFleetReloadOverlay schemaLoads state).2.file =
        some (upsertOverlayLine entry.1 entry.2 state.file) := by
      rw [rulesFleetReloadOverlay, single]
      exact file_of_applyKeyValue applied
    have found : (entry.1, entry.2) ∈ overlayLines state.file := by simp [single]
    rw [rewritten, overlayMapping,
      overlayLines_eq_nil (equalsSigns_upsertOverlayLine_of_mem found entry.2)] at kept
    cases kept

theorem not_law_after_push (accepted : AcceptsPush schemaLoads state payload) :
    ¬OverlayLaw schemaLoads (payloads ++ [payload]) (pushStep schemaLoads state payload) := by
  intro law
  rcases file_of_acceptsPush accepted with ⟨key, val, pair, file⟩
  have pushed : pushedEntry payload = some (trimRight isBlank key, val.dropWhile isBlank) := by
    rw [pushedEntry, pair]
    rfl
  have listed : (trimRight isBlank key, val.dropWhile isBlank) ∈
      overlayMapping (pushStep schemaLoads state payload).file := by
    have last := law.contains (trimRight isBlank key, val.dropWhile isBlank) (by simp [pushed])
    rw [filterMap_append, filterMap_cons, pushed, filterMap_nil, filter_append,
      filter_cons_of_pos (by simp), filter_nil] at last
    have mem : (trimRight isBlank key, val.dropWhile isBlank) ∈
        (overlayMapping (pushStep schemaLoads state payload).file).filter
          (·.1 = trimRight isBlank key) := by
      rw [last]
      simp
    exact mem_of_mem_filter mem
  rcases List.mem_map.mp listed with ⟨entry, mem, clean⟩
  have signs : equalsSigns entry.2 = equalsSigns val := by
    rw [← equalsSigns_cleanEntry, clean, equalsSigns_dropWhile_isBlank]
  apply not_law_of_singleton _ law
  · exact entry
  · rw [file] at mem ⊢
    apply overlayLines_eq_singleton mem
    rw [signs]
    exact equalsSigns_upsertOverlayLine_le (not_mem_key_of_payloadPair pair) val state.file

theorem law_of_no_file (schemaLoads : Bytes → Bool) (settings : FleetSettings) :
    OverlayLaw schemaLoads [] ⟨settings, none⟩ where
  contains entry mem := by cases mem
  unchanged entry := Iff.rfl
  reapplied entry := by rfl

theorem overlay_law_iff (schemaLoads : Bytes → Bool) (settings : FleetSettings)
    {payloads : List Bytes}
    (accepted : Machine.Guarded (pushStep schemaLoads) (AcceptsPush schemaLoads) ⟨settings, none⟩
      payloads) :
    OverlayLaw schemaLoads payloads
        (Machine.run (pushStep schemaLoads) ⟨settings, none⟩ payloads) ↔
      payloads = [] := by
  constructor
  · intro law
    rcases eq_nil_or_concat' payloads with empty | ⟨earlier, payload, rfl⟩
    · exact empty
    · rw [Machine.run_append] at law
      rw [Machine.guarded_append] at accepted
      exact absurd law (not_law_after_push accepted.2.1)
  · rintro rfl
    exact law_of_no_file schemaLoads settings

/-- Two accepted pushes already break it. -/
theorem overlay_law_broken_by_two_keys :
    ¬OverlayLaw (fun _ => true) [ascii "WAF_LFI=1", ascii "WAF_SSRF=0"]
      (Machine.run (pushStep fun _ => true) ⟨{}, none⟩
        [ascii "WAF_LFI=1", ascii "WAF_SSRF=0"]) := by
  have accepted : Machine.Guarded (pushStep fun _ => true) (AcceptsPush fun _ => true)
      ⟨{}, none⟩ [ascii "WAF_LFI=1", ascii "WAF_SSRF=0"] := by
    decide +kernel
  rw [overlay_law_iff (fun _ => true) {} accepted]
  exact cons_ne_nil _ _

/-- Two keys end up in one line; one key is gone after the file has been read again. -/
theorem overlay_loses_keys :
    overlayMapping (Machine.run (pushStep fun _ => true) ⟨{}, none⟩
        [ascii "WAF_LFI=1", ascii "WAF_SSRF=0"]).file = [(ascii "WAF_LFIWAF_SSRF", ascii "0")] ∧
      overlayMapping (Machine.run (pushStep fun _ => true) ⟨{}, none⟩
        [ascii "WAF_LFI=1"]).file = [(ascii "WAF_LFI", ascii "1")] ∧
      overlayMapping (rulesFleetReloadOverlay (fun _ => true)
        (Machine.run (pushStep fun _ => true) ⟨{}, none⟩
          [ascii "WAF_LFI=1"])).2.file = [] := by
  decide +kernel

end LogGuardian
