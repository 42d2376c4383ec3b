import LogGuardian.Bytes
import LogGuardian.Lib.Access

/-!
# The ClientHello parser
-/

namespace LogGuardian

open List

def isGrease (value : ℕ) : Bool := value &&& 0x0f0f == 0x0a0a && value >>> 8 == value &&& 0xff

/-- The part of `Ja3Parsed` that the parser fills. -/
structure ParsedHello where
  tlsVersion : ℕ := 0
  ciphers : BoundedList ℕ 64 := .empty
  extensions : BoundedList ℕ 32 := .empty
  ellipticCurves : BoundedList ℕ 32 := .empty
  ecPointFormats : BoundedList ℕ 16 := .empty
  hasSni : Bool := false
  sni : BoundedList UInt8 255 := .empty
  alpn : BoundedList UInt8 31 := .empty
  deriving DecidableEq, Repr

/-- `(uint16_t)((p[0]<<8)|p[1])`. -/
def readWord (d : Bytes) (p : ℕ) : Access ℕ := do
  let high ← Access.read d p
  let low ← Access.read d (p + 1)
  .done (high.toNat * 256 + low.toNat)

/-- The record layer and the handshake header, up to the pointer `end`. -/
def openHandshake (d : Bytes) : Access ℕ :=
  if d.length < 43 then .rejected else do
  let contentType ← Access.read d 0
  if contentType ≠ 0x16 then .rejected else do
  let recLen ← readWord d 3
  if recLen + 5 > d.length then .rejected else do
  let handshakeType ← Access.read d 5
  if handshakeType ≠ 0x01 then .rejected else do
  let high ← Access.read d 6
  let low ← readWord d 7
  let hsLen := high.toNat * 65536 + low
  if hsLen + 4 > recLen then .rejected else .done (9 + hsLen)

def collectWords {capacity : ℕ} (d : Bytes) (p count : ℕ) (stored : BoundedList ℕ capacity) :
    Access (BoundedList ℕ capacity) :=
  Access.collect (fun i => readWord d (p + i * 2)) (fun value => !isGrease value) count 0 stored

def readSession (d : Bytes) (stop : ℕ) : Access (ℕ × ℕ) :=
  if 9 + 2 > stop then .rejected else do
  let tlsVersion ← readWord d 9
  if 11 + 32 > stop then .rejected else do
  if 43 + 1 > stop then .rejected else do
  let sidLen ← Access.read d 43
  if 44 + sidLen.toNat > stop then .rejected else
  .done (tlsVersion, 44 + sidLen.toNat)

def readCiphers (d : Bytes) (stop p : ℕ) : Access (BoundedList ℕ 64 × ℕ) :=
  if p + 2 > stop then .rejected else do
  let csLen ← readWord d p
  if p + 2 + csLen > stop then .rejected else do
  let ciphers ← collectWords d (p + 2) (csLen / 2) .empty
  .done (ciphers, p + 2 + csLen)

def skipCompression (d : Bytes) (stop p : ℕ) : Access ℕ :=
  if p + 1 > stop then .rejected else do
  let cmLen ← Access.read d p
  if p + 1 + cmLen.toNat > stop then .rejected else
  .done (p + 1 + cmLen.toNat)

def readFixedPart (d : Bytes) (stop : ℕ) : Access (ParsedHello × ℕ) := do
  let (tlsVersion, p) ← readSession d stop
  let (ciphers, p) ← readCiphers d stop p
  let p ← skipCompression d stop p
  .done ({ tlsVersion := tlsVersion, ciphers := ciphers }, p)

/-- The body of one extension, of `elen` bytes from `p` on. -/
def readExtension (d : Bytes) (extEnd p etype elen : ℕ) (parsed : ParsedHello) :
    Access ParsedHello :=
  if etype = 0x0000 ∧ elen > 5 then do
    let sniLen ← readWord d (p + 3)
    if sniLen < 256 ∧ p + 5 + sniLen ≤ extEnd then do
      let sni ← Access.copy 255 d (p + 5) sniLen
      .done { parsed with sni := sni, hasSni := true }
    else .done parsed
  else if etype = 0x000a ∧ elen ≥ 2 then do
    let groupBytes ← readWord d p
    let curves ← collectWords d (p + 2) (groupBytes / 2) parsed.ellipticCurves
    .done { parsed with ellipticCurves := curves }
  else if etype = 0x000b ∧ elen ≥ 1 then do
    let formatCount ← Access.read d p
    -- The loop tests `i < pfl` and `1 + i < elen`.
    let formats ← Access.collect (fun i => do
        let format ← Access.read d (p + 1 + i)
        .done format.toNat)
      (fun _ => true) (min formatCount.toNat (elen - 1)) 0 parsed.ecPointFormats
    .done { parsed with ecPointFormats := formats }
  else if etype = 0x0010 ∧ elen ≥ 4 then do
    let alpnLen ← readWord d (p + 2)
    if alpnLen < 31 ∧ p + 4 + alpnLen ≤ extEnd then do
      let alpn ← Access.copy 31 d (p + 4) alpnLen
      .done { parsed with alpn := alpn }
    else .done parsed
  else .done parsed

def storeType (etype : ℕ) (stored : BoundedList ℕ 32) : Access (BoundedList ℕ 32) :=
  if !isGrease etype ∧ stored.items.length < 32 then Access.store stored etype else .done stored

def noteExtension (d : Bytes) (extEnd p etype elen : ℕ) (parsed : ParsedHello) :
    Access ParsedHello := do
  let extensions ← storeType etype parsed.extensions
  readExtension d extEnd p etype elen { parsed with extensions := extensions }

def walkExtensions (d : Bytes) (extEnd : ℕ) : ℕ → ℕ → ParsedHello → Access ParsedHello
  | 0, _, parsed => .done parsed
  | fuel + 1, p, parsed =>
    if p + 4 ≤ extEnd then do
      let etype ← readWord d p
      let elen ← readWord d (p + 2)
      if p + 4 + elen > extEnd then .done parsed else do
      let noted ← noteExtension d extEnd (p + 4) etype elen parsed
      walkExtensions d extEnd fuel (p + 4 + elen) noted
    else .done parsed

def parseClientHello (d : Bytes) : Access ParsedHello := do
  let stop ← openHandshake d
  let (parsed, p) ← readFixedPart d stop
  if p + 2 > stop then .done parsed else do
  let extTotal ← readWord d p
  walkExtensions d (min (p + 2 + extTotal) stop) d.length (p + 2) parsed

def wordAt (d : Bytes) (p : ℕ) : ℕ := (byteAt d p).toNat * 256 + (byteAt d (p + 1)).toNat

def recordLength (d : Bytes) : ℕ := wordAt d 3

def handshakeLength (d : Bytes) : ℕ := (byteAt d 6).toNat * 65536 + wordAt d 7

def helloEnd (d : Bytes) : ℕ := 9 + handshakeLength d

def ciphersAt (d : Bytes) : ℕ := 44 + (byteAt d 43).toNat

def compressionAt (d : Bytes) : ℕ := ciphersAt d + 2 + wordAt d (ciphersAt d)

def extensionsAt (d : Bytes) : ℕ := compressionAt d + 1 + (byteAt d (compressionAt d)).toNat

def extensionsEnd (d : Bytes) : ℕ :=
  min (extensionsAt d + 2 + wordAt d (extensionsAt d)) (helloEnd d)

/-- The headers are those of a ClientHello, inside the packet and each inside the last. -/
def HasHandshake (d : Bytes) : Prop :=
  43 ≤ d.length ∧ byteAt d 0 = 0x16 ∧ recordLength d + 5 ≤ d.length ∧ byteAt d 5 = 0x01 ∧
    handshakeLength d + 4 ≤ recordLength d

instance (d : Bytes) : Decidable (HasHandshake d) := inferInstanceAs (Decidable (_ ∧ _))

structure ExtensionView where
  kind : ℕ
  body : ℕ
  length : ℕ
  deriving DecidableEq, Repr

def viewExtensions (d : Bytes) (extEnd : ℕ) : ℕ → ℕ → List ExtensionView
  | 0, _ => []
  | fuel + 1, p =>
    if p + 4 ≤ extEnd ∧ p + 4 + wordAt d (p + 2) ≤ extEnd then
      ⟨wordAt d p, p + 4, wordAt d (p + 2)⟩ ::
        viewExtensions d extEnd fuel (p + 4 + wordAt d (p + 2))
    else []

def helloExtensions (d : Bytes) : List ExtensionView :=
  if HasHandshake d ∧ extensionsAt d + 2 ≤ helloEnd d then
    viewExtensions d (extensionsEnd d) d.length (extensionsAt d + 2)
  else []

def listedWords (d : Bytes) (p count : ℕ) : List ℕ :=
  Access.kept (fun value => !isGrease value) (fun i => wordAt d (p + i * 2)) 0 count

def ExtensionView.IsGroups (view : ExtensionView) : Prop := view.kind = 0x000a ∧ view.length ≥ 2

instance (view : ExtensionView) : Decidable view.IsGroups := inferInstanceAs (Decidable (_ ∧ _))

def claimedGroups (d : Bytes) (view : ExtensionView) : ℕ := wordAt d view.body / 2

def presentGroups (d : Bytes) (view : ExtensionView) : ℕ := (d.length - (view.body + 2)) / 2

def listedGroups (d : Bytes) (view : ExtensionView) : List ℕ :=
  if view.IsGroups then
    listedWords d (view.body + 2) (min (claimedGroups d view) (presentGroups d view))
  else []

def listedFormats (d : Bytes) (view : ExtensionView) : List ℕ :=
  if view.kind = 0x000b ∧ view.length ≥ 1 then
    Access.kept (fun _ => true) (fun i => (byteAt d (view.body + 1 + i)).toNat) 0
      (min (byteAt d view.body).toNat (view.length - 1))
  else []

/-- A list of groups ends inside the packet, or the packet has enough of them to fill the 32
curves, of which some were found before. -/
def GroupListInside (d : Bytes) (found : ℕ) (view : ExtensionView) : Prop :=
  view.IsGroups → claimedGroups d view ≤ presentGroups d view ∨
    32 ≤ found + (listedGroups d view).length

instance (d : Bytes) (found : ℕ) (view : ExtensionView) : Decidable (GroupListInside d found view) :=
  inferInstanceAs (Decidable (_ → _))

def GroupsInside (d : Bytes) : ℕ → List ExtensionView → Prop
  | _, [] => True
  | found, view :: rest =>
    GroupListInside d found view ∧ GroupsInside d (found + (listedGroups d view).length) rest

section Reads

variable {d : Bytes} {p stop : ℕ}

theorem read_eq_byteAt (inside : p < d.length) : Access.read d p = .done (byteAt d p) :=
  Access.read_eq_done 0 inside

theorem readWord_eq_wordAt (inside : p + 1 < d.length) : readWord d p = .done (wordAt d p) := by
  rw [readWord, read_eq_byteAt (by omega), read_eq_byteAt inside]
  rfl

theorem readWord_eq_stray (outside : d.length ≤ p + 1) : readWord d p = .stray := by
  rw [readWord]
  rcases Nat.lt_or_ge p d.length with first | before
  · rw [read_eq_byteAt first, Access.read_eq_stray outside]
    rfl
  · rw [Access.read_eq_stray before]
    rfl

theorem collectWords_eq {capacity : ℕ} (count : ℕ) (stored : BoundedList ℕ capacity) :
    collectWords d p count stored =
      if count ≤ (d.length - p) / 2 ∨
          capacity ≤ stored.items.length +
            (listedWords d p (min count ((d.length - p) / 2))).length then
        .done (stored.pushAll (listedWords d p (min count ((d.length - p) / 2))))
      else .stray := by
  have inside : ∀ i < (d.length - p) / 2,
      readWord d (p + i * 2) = .done (wordAt d (p + i * 2)) := by
    intro i present
    exact readWord_eq_wordAt (by omega)
  have outside : ∀ i, (d.length - p) / 2 ≤ i → readWord d (p + i * 2) = .stray := by
    intro i absent
    exact readWord_eq_stray (by omega)
  have loop : collectWords d p count stored = _ :=
    Access.collect_eq inside outside count (Nat.zero_le _) stored
  rw [Nat.zero_add, Nat.sub_zero] at loop
  exact loop

theorem collectWords_of_inside {capacity count : ℕ} (inside : p + 2 * count ≤ d.length)
    (stored : BoundedList ℕ capacity) :
    collectWords d p count stored = .done (stored.pushAll (listedWords d p count)) := by
  have present : count ≤ (d.length - p) / 2 := by omega
  rw [collectWords_eq, if_pos (Or.inl present), Nat.min_eq_left present]

theorem openHandshake_eq (d : Bytes) :
    openHandshake d = if HasHandshake d then .done (helloEnd d) else .rejected := by
  by_cases short : d.length < 43
  · have malformed : ¬HasHandshake d := fun headers => absurd headers.1 (by omega)
    rw [openHandshake, if_pos short, if_neg malformed]
  · rw [openHandshake, if_neg short, read_eq_byteAt (by omega), readWord_eq_wordAt (by omega),
      readWord_eq_wordAt (by omega), read_eq_byteAt (by omega), read_eq_byteAt (by omega)]
    simp only [Access.done_bind]
    by_cases headers : HasHandshake d
    · have ⟨_, contentType, record, handshakeType, handshake⟩ := headers
      rw [if_neg (not_not.mpr contentType),
        if_neg (show ¬wordAt d 3 + 5 > d.length from Nat.not_lt.mpr record),
        if_neg (not_not.mpr handshakeType), if_pos headers]
      exact if_neg (Nat.not_lt.mpr handshake)
    · split_ifs with contentType record handshakeType handshake
      · rfl
      · rfl
      · rfl
      · rfl
      · exact absurd ⟨Nat.not_lt.mp short, not_not.mp contentType, Nat.not_lt.mp record,
          not_not.mp handshakeType, Nat.not_lt.mp handshake⟩ headers

theorem readSession_eq (inside : stop ≤ d.length) :
    readSession d stop =
      if ciphersAt d ≤ stop then .done (wordAt d 9, ciphersAt d) else .rejected := by
  have start : ciphersAt d = 44 + (byteAt d 43).toNat := rfl
  rw [readSession]
  by_cases header : 44 ≤ stop
  · rw [readWord_eq_wordAt (by omega), Access.done_bind, read_eq_byteAt (by omega),
      Access.done_bind]
    split_ifs <;> first | rfl | omega
  · rw [if_neg (show ¬ciphersAt d ≤ stop by omega)]
    by_cases version : 11 ≤ stop
    · rw [if_neg (by omega), readWord_eq_wordAt (by omega)]
      split_ifs <;> first | rfl | omega
    · rw [if_pos (by omega)]

theorem readCiphers_eq (inside : stop ≤ d.length) :
    readCiphers d stop p =
      if p + 2 + wordAt d p ≤ stop then
        .done ((.empty : BoundedList ℕ 64).pushAll (listedWords d (p + 2) (wordAt d p / 2)),
          p + 2 + wordAt d p)
      else .rejected := by
  rw [readCiphers]
  by_cases header : p + 2 ≤ stop
  · rw [if_neg (by omega), readWord_eq_wordAt (by omega), Access.done_bind]
    by_cases complete : p + 2 + wordAt d p ≤ stop
    · rw [if_pos complete, if_neg (by omega), collectWords_of_inside (by omega), Access.done_bind]
    · rw [if_neg complete, if_pos (by omega)]
  · rw [if_pos (by omega), if_neg (by omega)]

theorem skipCompression_eq (inside : stop ≤ d.length) :
    skipCompression d stop p =
      if p + 1 + (byteAt d p).toNat ≤ stop then .done (p + 1 + (byteAt d p).toNat)
      else .rejected := by
  rw [skipCompression]
  by_cases header : p + 1 ≤ stop
  · rw [read_eq_byteAt (by omega), Access.done_bind]
    split_ifs <;> first | rfl | omega
  · rw [if_pos (by omega), if_neg (by omega)]

def fixedPart (d : Bytes) : ParsedHello where
  tlsVersion := wordAt d 9
  ciphers := (.empty : BoundedList ℕ 64).pushAll
    (listedWords d (ciphersAt d + 2) (wordAt d (ciphersAt d) / 2))

theorem readFixedPart_eq (inside : stop ≤ d.length) :
    readFixedPart d stop =
      if extensionsAt d ≤ stop then .done (fixedPart d, extensionsAt d) else .rejected := by
  have compression : ciphersAt d + 2 + wordAt d (ciphersAt d) = compressionAt d := rfl
  have extensions : compressionAt d + 1 + (byteAt d (compressionAt d)).toNat = extensionsAt d := rfl
  rw [readFixedPart, readSession_eq inside]
  by_cases session : ciphersAt d ≤ stop
  · rw [if_pos session]
    simp only [Access.done_bind]
    rw [readCiphers_eq inside, compression]
    by_cases suites : compressionAt d ≤ stop
    · rw [if_pos suites]
      simp only [Access.done_bind]
      rw [skipCompression_eq inside, extensions]
      split_ifs <;> rfl
    · rw [if_neg suites, if_neg (by omega)]
      rfl
  · rw [if_neg session, if_neg (by omega)]
    rfl

end Reads

section Extensions

variable {d : Bytes} {extEnd p : ℕ} (parsed : ParsedHello)

/-- What some extensions add to the fingerprint, and that they leave the rest of it. -/
structure Noted (d : Bytes) (views : List ExtensionView) (before after : ParsedHello) : Prop where
  tlsVersion : after.tlsVersion = before.tlsVersion
  ciphers : after.ciphers = before.ciphers
  extensions : after.extensions = before.extensions.pushAll
    ((views.map ExtensionView.kind).filter fun kind => !isGrease kind)
  curves : after.ellipticCurves = before.ellipticCurves.pushAll (views.flatMap (listedGroups d))
  formats : after.ecPointFormats = before.ecPointFormats.pushAll (views.flatMap (listedFormats d))

theorem Noted.nil (d : Bytes) (parsed : ParsedHello) : Noted d [] parsed parsed :=
  ⟨rfl, rfl, rfl, rfl, rfl⟩

theorem Noted.cons {view : ExtensionView} {views : List ExtensionView}
    {before between after : ParsedHello} (first : Noted d [view] before between)
    (rest : Noted d views between after) : Noted d (view :: views) before after := by
  refine ⟨rest.tlsVersion.trans first.tlsVersion, rest.ciphers.trans first.ciphers, ?_, ?_, ?_⟩
  · rw [rest.extensions, first.extensions, ← BoundedList.pushAll_append, ← filter_append,
      ← map_append, singleton_append]
  · rw [rest.curves, first.curves, ← BoundedList.pushAll_append, ← flatMap_append,
      singleton_append]
  · rw [rest.formats, first.formats, ← BoundedList.pushAll_append, ← flatMap_append,
      singleton_append]

theorem readFormats_eq {elen : ℕ} (inside : p + elen ≤ d.length) (nonempty : 1 ≤ elen)
    (stored : BoundedList ℕ 16) :
    Access.collect (fun i => do
        let format ← Access.read d (p + 1 + i)
        .done format.toNat)
      (fun _ => true) (min (byteAt d p).toNat (elen - 1)) 0 stored =
      .done (stored.pushAll (Access.kept (fun _ => true) (fun i => (byteAt d (p + 1 + i)).toNat) 0
        (min (byteAt d p).toNat (elen - 1)))) := by
  have readable : ∀ i < d.length - (p + 1),
      (do let format ← Access.read d (p + 1 + i); .done format.toNat : Access ℕ) =
        .done (byteAt d (p + 1 + i)).toNat := by
    intro i present
    rw [read_eq_byteAt (by omega), Access.done_bind]
  have unreadable : ∀ i, d.length - (p + 1) ≤ i →
      (do let format ← Access.read d (p + 1 + i); .done format.toNat : Access ℕ) = .stray := by
    intro i absent
    rw [Access.read_eq_stray (by omega), Access.stray_bind]
  have few : min (byteAt d p).toNat (elen - 1) ≤ d.length - (p + 1) := by omega
  rw [Access.collect_eq readable unreadable _ (Nat.zero_le _), if_pos (Or.inl (by omega)),
    Nat.sub_zero, Nat.min_eq_left few]

variable {view : ExtensionView}

theorem readExtension_done (inside : view.body + view.length ≤ extEnd) (packet : extEnd ≤ d.length)
    (groups : GroupListInside d parsed.ellipticCurves.items.length view) :
    ∃ after, readExtension d extEnd view.body view.kind view.length parsed = .done after ∧
      after.tlsVersion = parsed.tlsVersion ∧ after.ciphers = parsed.ciphers ∧
      after.extensions = parsed.extensions ∧
      after.ellipticCurves = parsed.ellipticCurves.pushAll (listedGroups d view) ∧
      after.ecPointFormats = parsed.ecPointFormats.pushAll (listedFormats d view) := by
  rw [readExtension]
  split_ifs with serverName supportedGroups pointFormats protocols
  · have noGroups : listedGroups d view = [] := if_neg fun list => by
      exact absurd (serverName.1.symm.trans list.1) (by decide)
    have noFormats : listedFormats d view = [] := if_neg fun list => by
      exact absurd (serverName.1.symm.trans list.1) (by decide)
    rw [noGroups, noFormats, readWord_eq_wordAt (by omega), Access.done_bind]
    split_ifs with short
    · rcases Access.exists_copy (short.2.trans packet)
        (show wordAt d (view.body + 3) ≤ 255 by omega) with ⟨name, copied, -⟩
      rw [copied]
      exact ⟨_, rfl, rfl, rfl, rfl, rfl, rfl⟩
    · exact ⟨_, rfl, rfl, rfl, rfl, rfl, rfl⟩
  · have listed : listedGroups d view = _ := if_pos supportedGroups
    have noFormats : listedFormats d view = [] := if_neg fun list => by
      exact absurd (supportedGroups.1.symm.trans list.1) (by decide)
    have fits := groups supportedGroups
    rw [noFormats, readWord_eq_wordAt (by omega), Access.done_bind, collectWords_eq, if_pos]
    · exact ⟨_, rfl, rfl, rfl, rfl, congrArg _ listed.symm, rfl⟩
    · rw [listed] at fits
      exact fits
  · have noGroups : listedGroups d view = [] := if_neg fun list => by
      exact absurd (pointFormats.1.symm.trans list.1) (by decide)
    have listed : listedFormats d view = _ := if_pos pointFormats
    rw [noGroups, listed, read_eq_byteAt (by omega), Access.done_bind,
      readFormats_eq (by omega) pointFormats.2]
    exact ⟨_, rfl, rfl, rfl, rfl, rfl, rfl⟩
  · have noGroups : listedGroups d view = [] := if_neg fun list => by
      exact absurd (protocols.1.symm.trans list.1) (by decide)
    have noFormats : listedFormats d view = [] := if_neg fun list => by
      exact absurd (protocols.1.symm.trans list.1) (by decide)
    rw [noGroups, noFormats, readWord_eq_wordAt (by omega), Access.done_bind]
    split_ifs with short
    · rcases Access.exists_copy (short.2.trans packet)
        (show wordAt d (view.body + 2) ≤ 31 by omega) with ⟨name, copied, -⟩
      rw [copied]
      exact ⟨_, rfl, rfl, rfl, rfl, rfl, rfl⟩
    · exact ⟨_, rfl, rfl, rfl, rfl, rfl, rfl⟩
  · have noGroups : listedGroups d view = [] := if_neg supportedGroups
    have noFormats : listedFormats d view = [] := if_neg pointFormats
    rw [noGroups, noFormats]
    exact ⟨_, rfl, rfl, rfl, rfl, rfl, rfl⟩

theorem readExtension_stray (inside : view.body + view.length ≤ extEnd) (packet : extEnd ≤ d.length)
    (groups : ¬GroupListInside d parsed.ellipticCurves.items.length view) :
    readExtension d extEnd view.body view.kind view.length parsed = .stray := by
  rcases Classical.not_imp.mp groups with ⟨supportedGroups, outside⟩
  have listed : listedGroups d view = _ := if_pos supportedGroups
  have other : ¬(view.kind = 0x0000 ∧ view.length > 5) := fun serverName =>
    absurd (serverName.1.symm.trans supportedGroups.1) (by decide)
  have twoBytes : view.length ≥ 2 := supportedGroups.2
  rw [listed] at outside
  rw [readExtension, if_neg other,
    if_pos (show view.kind = 0x000a ∧ view.length ≥ 2 from supportedGroups),
    readWord_eq_wordAt (by omega), Access.done_bind]
  have loop : collectWords d (view.body + 2) (wordAt d view.body / 2) parsed.ellipticCurves =
      .stray := (collectWords_eq _ _).trans (if_neg outside)
  rw [loop]
  rfl

theorem storeType_eq (kind : ℕ) (stored : BoundedList ℕ 32) :
    storeType kind stored =
      .done (stored.pushAll ([kind].filter fun kind => !isGrease kind)) := by
  rw [storeType, filter_singleton]
  by_cases room : stored.items.length < 32
  · rcases grease : isGrease kind with _ | _
    · simp [Access.store, room]
      rfl
    · rfl
  · rw [if_neg fun both => room both.2, Access.pushAll_full room]

theorem noteExtension_done (inside : view.body + view.length ≤ extEnd) (packet : extEnd ≤ d.length)
    (groups : GroupListInside d parsed.ellipticCurves.items.length view) :
    ∃ after, noteExtension d extEnd view.body view.kind view.length parsed = .done after ∧
      Noted d [view] parsed after := by
  rw [noteExtension, storeType_eq]
  rcases readExtension_done { parsed with extensions := parsed.extensions.pushAll _ } inside packet
    groups with ⟨after, done, tlsVersion, ciphers, extensions, curves, formats⟩
  refine ⟨after, done, tlsVersion, ciphers, extensions, ?_, ?_⟩
  · rw [flatMap_singleton]
    exact curves
  · rw [flatMap_singleton]
    exact formats

theorem noteExtension_stray (inside : view.body + view.length ≤ extEnd) (packet : extEnd ≤ d.length)
    (groups : ¬GroupListInside d parsed.ellipticCurves.items.length view) :
    noteExtension d extEnd view.body view.kind view.length parsed = .stray := by
  rw [noteExtension, storeType_eq]
  exact readExtension_stray _ inside packet groups

theorem groupsInside_congr {views : List ExtensionView} {first second : ℕ}
    (same : min first 32 = min second 32) :
    GroupsInside d first views ↔ GroupsInside d second views := by
  induction views generalizing first second with
  | nil => rfl
  | cons view rest ih =>
    refine and_congr (imp_congr_right fun _ => or_congr_right ?_) (ih ?_)
    · omega
    · omega

theorem groupsInside_noted (views : List ExtensionView) {before after : ParsedHello}
    (noted : Noted d [view] before after) :
    GroupsInside d after.ellipticCurves.items.length views ↔
      GroupsInside d (before.ellipticCurves.items.length + (listedGroups d view).length) views := by
  apply groupsInside_congr
  rw [noted.curves, flatMap_singleton, BoundedList.items_pushAll, length_take,
    length_append]
  omega

theorem walkExtensions_eq (packet : extEnd ≤ d.length) (fuel p : ℕ) :
    (GroupsInside d parsed.ellipticCurves.items.length (viewExtensions d extEnd fuel p) →
      ∃ after, walkExtensions d extEnd fuel p parsed = .done after ∧
        Noted d (viewExtensions d extEnd fuel p) parsed after) ∧
    (¬GroupsInside d parsed.ellipticCurves.items.length (viewExtensions d extEnd fuel p) →
      walkExtensions d extEnd fuel p parsed = .stray) := by
  induction fuel generalizing p parsed with
  | zero => exact ⟨fun _ => ⟨parsed, rfl, Noted.nil d parsed⟩, fun outside => absurd trivial outside⟩
  | succ fuel ih =>
    rw [walkExtensions, viewExtensions]
    by_cases header : p + 4 ≤ extEnd
    · rw [if_pos header, readWord_eq_wordAt (by omega), readWord_eq_wordAt (by omega)]
      simp only [Access.done_bind]
      by_cases complete : p + 4 + wordAt d (p + 2) ≤ extEnd
      · rw [if_neg (Nat.not_lt.mpr complete), if_pos ⟨header, complete⟩]
        let view : ExtensionView := ⟨wordAt d p, p + 4, wordAt d (p + 2)⟩
        by_cases first : GroupListInside d parsed.ellipticCurves.items.length view
        · rcases noteExtension_done parsed complete packet first with ⟨noted, done, notes⟩
          rw [done, Access.done_bind]
          have later := groupsInside_noted
            (viewExtensions d extEnd fuel (p + 4 + wordAt d (p + 2))) notes
          constructor
          · intro groups
            rcases (ih _ _).1 (later.mpr groups.2) with ⟨after, rest, added⟩
            exact ⟨after, rest, notes.cons added⟩
          · intro outside
            exact (ih _ _).2 fun rest => outside ⟨first, later.mp rest⟩
        · rw [noteExtension_stray parsed complete packet first]
          exact ⟨fun groups => absurd groups.1 first, fun _ => rfl⟩
      · rw [if_pos (Nat.not_le.mp complete), if_neg fun both => complete both.2]
        exact ⟨fun _ => ⟨parsed, rfl, Noted.nil d parsed⟩, fun outside => absurd trivial outside⟩
    · rw [if_neg header, if_neg fun both => header both.1]
      exact ⟨fun _ => ⟨parsed, rfl, Noted.nil d parsed⟩, fun outside => absurd trivial outside⟩

theorem walkExtensions_fuel {fuel more : ℕ} (enough : extEnd - p ≤ fuel) (fewer : fuel ≤ more) :
    walkExtensions d extEnd more p parsed = walkExtensions d extEnd fuel p parsed := by
  induction fuel generalizing p parsed more with
  | zero =>
    rcases more with _ | more
    · rfl
    · exact if_neg (show ¬p + 4 ≤ extEnd by omega)
  | succ fuel ih =>
    rcases more with _ | more
    · omega
    · rw [walkExtensions, walkExtensions]
      by_cases header : p + 4 ≤ extEnd
      · rw [if_pos header, if_pos header]
        refine bind_congr fun etype => bind_congr fun elen => ?_
        split_ifs
        · rfl
        · exact bind_congr fun noted => ih noted (by omega) (by omega)
      · rw [if_neg header, if_neg header]

end Extensions

theorem parseClientHello_eq (d : Bytes) :
    parseClientHello d =
      if HasHandshake d ∧ extensionsAt d ≤ helloEnd d then
        if extensionsAt d + 2 ≤ helloEnd d then
          walkExtensions d (extensionsEnd d) d.length (extensionsAt d + 2) (fixedPart d)
        else .done (fixedPart d)
      else .rejected := by
  rw [parseClientHello, openHandshake_eq]
  by_cases headers : HasHandshake d
  · have inside : helloEnd d ≤ d.length := by
      have record := headers.2.2.1
      have handshake := headers.2.2.2.2
      unfold helloEnd
      omega
    rw [if_pos headers, Access.done_bind, readFixedPart_eq inside]
    by_cases complete : extensionsAt d ≤ helloEnd d
    · rw [if_pos complete, if_pos ⟨headers, complete⟩]
      simp only [Access.done_bind]
      by_cases block : extensionsAt d + 2 ≤ helloEnd d
      · rw [if_pos block, if_neg (by omega), readWord_eq_wordAt (by omega)]
        rfl
      · rw [if_neg block, if_pos (by omega)]
    · rw [if_neg complete, if_neg fun both => complete both.2]
      rfl
  · rw [if_neg headers, if_neg fun both => headers both.1]
    rfl

theorem extensionsEnd_le {d : Bytes} (headers : HasHandshake d) : extensionsEnd d ≤ d.length := by
  have record := headers.2.2.1
  have handshake := headers.2.2.2.2
  unfold extensionsEnd helloEnd
  omega

/-- A ClientHello is read without leaving the packet or an array exactly if its lists of groups
end inside the packet, or fill the array of curves before its end. -/
theorem parseClientHello_inside_iff (d : Bytes) :
    parseClientHello d ≠ .stray ↔ GroupsInside d 0 (helloExtensions d) := by
  rw [parseClientHello_eq, helloExtensions]
  by_cases block : HasHandshake d ∧ extensionsAt d + 2 ≤ helloEnd d
  · rw [if_pos block, if_pos ⟨block.1, by omega⟩, if_pos block.2]
    have walk := walkExtensions_eq (fixedPart d) (extensionsEnd_le block.1) d.length
      (extensionsAt d + 2)
    constructor
    · intro inside
      exact not_not.mp fun outside => inside (walk.2 outside)
    · intro groups
      rcases walk.1 groups with ⟨after, done, -⟩
      rw [done]
      exact nofun
  · rw [if_neg block]
    refine iff_of_true ?_ trivial
    split_ifs with complete extensions
    · exact absurd ⟨complete.1, extensions⟩ block
    · exact nofun
    · exact nofun

def truncatedGroups : Bytes :=
  [0x16, 3, 1, 0, 52, 1, 0, 0, 48, 3, 3] ++ List.replicate 32 0 ++
    [0, 0, 0, 0, 0, 8, 0, 10, 0, 4, 0, 10, 0, 29]

theorem parseClientHello_stray : parseClientHello truncatedGroups = .stray := by decide +kernel

end LogGuardian
