import LogGuardian.Lib.Layout
import LogGuardian.Tls.ClientHello

/-!
# Well-formed ClientHello records
-/

namespace LogGuardian

open List

def wordBytes (value : ℕ) : Bytes := [UInt8.ofNat (value / 256), UInt8.ofNat value]

def wordListBytes (values : List UInt16) : Bytes :=
  values.flatMap fun value => wordBytes value.toNat

inductive HelloExtension where
  | supportedGroups (groups : List UInt16)
  | ecPointFormats (formats : Bytes)
  | other (kind : UInt16) (body : Bytes)
  deriving DecidableEq, Repr

namespace HelloExtension

def kind : HelloExtension → ℕ
  | supportedGroups _ => 0x000a
  | ecPointFormats _ => 0x000b
  | other kind _ => kind.toNat

def body : HelloExtension → Bytes
  | supportedGroups groups => wordBytes (2 * groups.length) ++ wordListBytes groups
  | ecPointFormats formats => UInt8.ofNat formats.length :: formats
  | other _ body => body

def bytes (extension : HelloExtension) : Bytes :=
  wordBytes extension.kind ++ (wordBytes extension.body.length ++ extension.body)

def Valid : HelloExtension → Prop
  | supportedGroups _ => True
  | ecPointFormats formats => formats.length < 256
  | other kind _ => kind ≠ 0x000a ∧ kind ≠ 0x000b

def groups : HelloExtension → List ℕ
  | supportedGroups groups => groups.map UInt16.toNat
  | _ => []

def formats : HelloExtension → List ℕ
  | ecPointFormats formats => formats.map UInt8.toNat
  | _ => []

end HelloExtension

structure HelloFields where
  recordVersion : UInt16
  version : UInt16
  random : Bytes
  sessionId : Bytes
  cipherSuites : List UInt16
  compressionMethods : Bytes
  extensions : Option (List HelloExtension)
  deriving DecidableEq, Repr

namespace HelloFields

variable (hello : HelloFields)

def block : Bytes :=
  match hello.extensions with
  | none => []
  | some extensions =>
    wordBytes (extensions.flatMap HelloExtension.bytes).length ++
      extensions.flatMap HelloExtension.bytes

def message : Bytes :=
  wordBytes hello.version.toNat ++ (hello.random ++
    (UInt8.ofNat hello.sessionId.length :: (hello.sessionId ++
      (wordBytes (2 * hello.cipherSuites.length) ++ (wordListBytes hello.cipherSuites ++
        (UInt8.ofNat hello.compressionMethods.length :: (hello.compressionMethods ++
          hello.block)))))))

def record : Bytes :=
  0x16 :: (wordBytes hello.recordVersion.toNat ++ (wordBytes (hello.message.length + 4) ++
    (0x01 :: (UInt8.ofNat (hello.message.length / 65536) ::
      (wordBytes hello.message.length ++ hello.message)))))

end HelloFields

structure ClientHello extends HelloFields where
  random_length : random.length = 32
  sessionId_length : sessionId.length < 256
  compressionMethods_length : compressionMethods.length < 256
  extensions_valid : ∀ list ∈ extensions, ∀ extension ∈ list, extension.Valid
  record_length : toHelloFields.record.length < 65536

namespace ClientHello

variable (hello : ClientHello)

def extensionList : List HelloExtension := hello.extensions.getD []

def withoutGrease (values : List ℕ) : List ℕ := values.filter fun value => !isGrease value

def ciphers : List ℕ := withoutGrease (hello.cipherSuites.map UInt16.toNat)

def kinds : List ℕ := withoutGrease (hello.extensionList.map HelloExtension.kind)

def curves : List ℕ := withoutGrease (hello.extensionList.flatMap HelloExtension.groups)

def formats : List ℕ := hello.extensionList.flatMap HelloExtension.formats

/-- The arrays of the parser hold all values. -/
structure WithinLimits : Prop where
  ciphers : hello.ciphers.length ≤ 64
  kinds : hello.kinds.length ≤ 32
  curves : hello.curves.length ≤ 32
  formats : hello.formats.length ≤ 16

end ClientHello

section Fields

variable {d : Bytes} {p : ℕ}

theorem length_wordBytes (value : ℕ) : (wordBytes value).length = 2 := rfl

theorem length_wordListBytes (values : List UInt16) :
    (wordListBytes values).length = 2 * values.length := by
  induction values with
  | nil => rfl
  | cons value rest ih =>
    have split : wordListBytes (value :: rest) = wordBytes value.toNat ++ wordListBytes rest := rfl
    rw [split, length_append, length_wordBytes, length_cons]
    omega

theorem byteAt_of_liesAt {byte : UInt8} {rest : Bytes} (lies : LiesAt (byte :: rest) d p) :
    byteAt d p = byte :=
  lies.getD_head 0

theorem wordAt_of_liesAt {value : ℕ} (lies : LiesAt (wordBytes value) d p)
    (small : value < 65536) : wordAt d p = value := by
  have parts := LiesAt.cons_iff.mp lies
  rw [wordAt, byteAt_of_liesAt parts.1, byteAt_of_liesAt parts.2, UInt8.toNat_ofNat',
    UInt8.toNat_ofNat']
  omega

theorem wordAt_of_mem {values : List UInt16} (lies : LiesAt (wordListBytes values) d p) {i : ℕ}
    (inside : i < values.length) : wordAt d (p + i * 2) = (values.map UInt16.toNat).getD i 0 := by
  induction values generalizing p i with
  | nil => exact absurd inside (Nat.not_lt_zero i)
  | cons value rest ih =>
    have parts := LiesAt.append_iff.mp lies
    rcases i with _ | i
    · rw [Nat.add_zero, wordAt_of_liesAt parts.1 value.toNat_lt]
      rfl
    · have later := ih parts.2 (i := i) (by simpa using inside)
      rw [length_wordBytes] at later
      rw [show p + (i + 1) * 2 = p + 2 + i * 2 by omega, later]
      rfl

theorem listedWords_of_liesAt {values : List UInt16} (lies : LiesAt (wordListBytes values) d p) :
    listedWords d p values.length = ClientHello.withoutGrease (values.map UInt16.toNat) := by
  unfold listedWords Access.kept ClientHello.withoutGrease
  congr 1
  apply ext_getElem
  · simp
  · intro i inRange inside
    have known : i < values.length := by simpa using inside
    have word := wordAt_of_mem lies known
    rw [getD_eq_getElem _ _ (by simpa using known)] at word
    simpa using word

end Fields

namespace ClientHello

variable (hello : ClientHello)

theorem length_record : hello.record.length = 9 + hello.message.length := by
  simp only [HelloFields.record, length_cons, length_append, length_wordBytes]
  omega

theorem length_message :
    hello.message.length = 38 + hello.sessionId.length + 2 * hello.cipherSuites.length +
      hello.compressionMethods.length + hello.block.length := by
  simp only [HelloFields.message, length_cons, length_append, length_wordBytes,
    length_wordListBytes, hello.random_length]
  omega

theorem message_small : hello.message.length + 9 < 65536 := by
  have length := hello.record_length
  rw [length_record] at length
  omega

theorem header_liesAt :
    LiesAt [0x16] hello.record 0 ∧ LiesAt (wordBytes (hello.message.length + 4)) hello.record 3 ∧
      LiesAt [0x01] hello.record 5 ∧
      LiesAt [UInt8.ofNat (hello.message.length / 65536)] hello.record 6 ∧
      LiesAt (wordBytes hello.message.length) hello.record 7 ∧
      LiesAt hello.message hello.record 9 := by
  have contentType := LiesAt.cons_iff.mp (LiesAt.whole hello.record)
  have version := LiesAt.append_iff.mp contentType.2
  have length := LiesAt.append_iff.mp version.2
  have handshakeType := LiesAt.cons_iff.mp length.2
  have high := LiesAt.cons_iff.mp handshakeType.2
  have low := LiesAt.append_iff.mp high.2
  exact ⟨contentType.1, length.1, handshakeType.1, high.1, low.1, low.2⟩

theorem recordLength_record : recordLength hello.record = hello.message.length + 4 :=
  wordAt_of_liesAt hello.header_liesAt.2.1 (by have small := hello.message_small; omega)

theorem helloEnd_record : helloEnd hello.record = 9 + hello.message.length := by
  have small := hello.message_small
  rcases hello.header_liesAt with ⟨-, -, -, high, low, -⟩
  rw [helloEnd, handshakeLength, byteAt_of_liesAt high, wordAt_of_liesAt low (by omega),
    UInt8.toNat_ofNat']
  omega

theorem hasHandshake_record : HasHandshake hello.record := by
  have length := hello.length_record
  have message := hello.length_message
  have record := hello.recordLength_record
  have handshake := hello.helloEnd_record
  rcases hello.header_liesAt with ⟨contentType, -, handshakeType, -, -, -⟩
  refine ⟨?_, byteAt_of_liesAt contentType, ?_, byteAt_of_liesAt handshakeType, ?_⟩
  · omega
  · omega
  · unfold helloEnd at handshake
    omega

theorem message_liesAt :
    LiesAt (wordBytes hello.version.toNat) hello.record 9 ∧
      LiesAt [UInt8.ofNat hello.sessionId.length] hello.record 43 ∧
      LiesAt (wordBytes (2 * hello.cipherSuites.length)) hello.record
        (44 + hello.sessionId.length) ∧
      LiesAt (wordListBytes hello.cipherSuites) hello.record (46 + hello.sessionId.length) ∧
      LiesAt [UInt8.ofNat hello.compressionMethods.length] hello.record
        (46 + hello.sessionId.length + 2 * hello.cipherSuites.length) ∧
      LiesAt hello.block hello.record
        (47 + hello.sessionId.length + 2 * hello.cipherSuites.length +
          hello.compressionMethods.length) := by
  have version := LiesAt.append_iff.mp hello.header_liesAt.2.2.2.2.2
  have random := LiesAt.append_iff.mp version.2
  have sessionLength := LiesAt.cons_iff.mp random.2
  have sessionId := LiesAt.append_iff.mp sessionLength.2
  have suitesLength := LiesAt.append_iff.mp sessionId.2
  have suites := LiesAt.append_iff.mp suitesLength.2
  have methodsLength := LiesAt.cons_iff.mp suites.2
  have methods := LiesAt.append_iff.mp methodsLength.2
  simp only [length_wordBytes, length_wordListBytes, hello.random_length] at *
  refine ⟨version.1, sessionLength.1, suitesLength.1, ?_, ?_, ?_⟩
  · convert suites.1 using 1
    omega
  · convert methodsLength.1 using 1
    omega
  · convert methods.2 using 1
    omega

theorem ciphersAt_record : ciphersAt hello.record = 44 + hello.sessionId.length := by
  have small := hello.sessionId_length
  rw [ciphersAt, byteAt_of_liesAt hello.message_liesAt.2.1, UInt8.toNat_ofNat']
  omega

theorem cipherBytes_record :
    wordAt hello.record (ciphersAt hello.record) = 2 * hello.cipherSuites.length := by
  have small := hello.message_small
  have message := hello.length_message
  rw [ciphersAt_record]
  exact wordAt_of_liesAt hello.message_liesAt.2.2.1 (by omega)

theorem compressionAt_record :
    compressionAt hello.record = 46 + hello.sessionId.length + 2 * hello.cipherSuites.length := by
  rw [compressionAt, cipherBytes_record, ciphersAt_record]
  omega

theorem extensionsAt_record :
    extensionsAt hello.record =
      47 + hello.sessionId.length + 2 * hello.cipherSuites.length +
        hello.compressionMethods.length := by
  have small := hello.compressionMethods_length
  rw [extensionsAt, compressionAt_record, byteAt_of_liesAt hello.message_liesAt.2.2.2.2.1,
    UInt8.toNat_ofNat']
  omega

theorem fixedPart_record :
    fixedPart hello.record =
      { tlsVersion := hello.version.toNat
        ciphers := (.empty : BoundedList ℕ 64).pushAll hello.ciphers } := by
  rw [fixedPart, cipherBytes_record, ciphersAt_record,
    wordAt_of_liesAt hello.message_liesAt.1 hello.version.toNat_lt,
    Nat.mul_div_cancel_left _ (by omega), show 44 + hello.sessionId.length + 2 =
      46 + hello.sessionId.length by omega, listedWords_of_liesAt hello.message_liesAt.2.2.2.1]
  rfl

end ClientHello

section Views

variable {d : Bytes} {p : ℕ}

/-- The view of an extension whose body lies in the packet. -/
structure ViewOf (d : Bytes) (view : ExtensionView) (extension : HelloExtension) : Prop where
  kind : view.kind = extension.kind
  length : view.length = extension.body.length
  body : LiesAt extension.body d view.body
  valid : extension.Valid
  small : extension.body.length < 65536

variable {view : ExtensionView} {extension : HelloExtension}

theorem length_groups_body (groups : List UInt16) :
    (HelloExtension.supportedGroups groups).body.length = 2 + 2 * groups.length := by
  rw [HelloExtension.body, length_append, length_wordBytes, length_wordListBytes]

variable {groups : List UInt16} {extensions : List HelloExtension} {extEnd fuel : ℕ}
  {views : List ExtensionView}

theorem ViewOf.claimedGroups_eq (shows : ViewOf d view (.supportedGroups groups)) :
    claimedGroups d view = groups.length := by
  have small := shows.small
  rw [length_groups_body] at small
  rw [claimedGroups, wordAt_of_liesAt (LiesAt.append_iff.mp shows.body).1 (by omega)]
  omega

theorem ViewOf.claimedGroups_le (shows : ViewOf d view (.supportedGroups groups)) :
    claimedGroups d view ≤ presentGroups d view := by
  have length := shows.body.length_le
  rw [length_groups_body] at length
  rw [shows.claimedGroups_eq, presentGroups]
  omega

theorem ViewOf.not_isGroups (shows : ViewOf d view extension)
    (different : extension.kind ≠ 0x000a) : ¬view.IsGroups :=
  fun groups => different (shows.kind.symm.trans groups.1)

theorem HelloExtension.Valid.kind_ne {kind : UInt16} {body : Bytes}
    (valid : (HelloExtension.other kind body).Valid) :
    (HelloExtension.other kind body).kind ≠ 0x000a ∧
      (HelloExtension.other kind body).kind ≠ 0x000b :=
  ⟨fun same => valid.1 (UInt16.toNat_inj.mp same), fun same => valid.2 (UInt16.toNat_inj.mp same)⟩

theorem ViewOf.groupListInside (shows : ViewOf d view extension) (found : ℕ) :
    GroupListInside d found view := by
  intro groups
  cases extension with
  | supportedGroups list => exact Or.inl shows.claimedGroups_le
  | ecPointFormats list =>
    exact absurd groups (shows.not_isGroups (show 0x000b ≠ 0x000a by decide))
  | other kind body => exact absurd groups (shows.not_isGroups shows.valid.kind_ne.1)

theorem ViewOf.listedGroups_eq (shows : ViewOf d view extension) :
    listedGroups d view = ClientHello.withoutGrease extension.groups := by
  cases extension with
  | supportedGroups list =>
    have twoBytes : view.length ≥ 2 := by
      rw [shows.length, length_groups_body]
      omega
    have isGroups : view.IsGroups := ⟨shows.kind, twoBytes⟩
    rw [listedGroups, if_pos isGroups, Nat.min_eq_left shows.claimedGroups_le,
      shows.claimedGroups_eq]
    exact listedWords_of_liesAt (LiesAt.append_iff.mp shows.body).2
  | ecPointFormats list => exact if_neg (shows.not_isGroups (show 0x000b ≠ 0x000a by decide))
  | other kind body => exact if_neg (shows.not_isGroups shows.valid.kind_ne.1)

theorem ViewOf.listedFormats_eq (shows : ViewOf d view extension) :
    listedFormats d view = extension.formats := by
  have otherwise (different : extension.kind ≠ 0x000b) : listedFormats d view = [] :=
    if_neg fun formats => different (shows.kind.symm.trans formats.1)
  cases extension with
  | supportedGroups list => exact otherwise (show 0x000a ≠ 0x000b by decide)
  | ecPointFormats list =>
    have parts := LiesAt.cons_iff.mp shows.body
    have small : list.length < 256 := shows.valid
    have length : view.length = list.length + 1 := shows.length
    have count : (byteAt d view.body).toNat = list.length := by
      rw [byteAt_of_liesAt parts.1, UInt8.toNat_ofNat']
      omega
    rw [listedFormats, if_pos ⟨shows.kind, by omega⟩, count, length, Nat.add_sub_cancel]
    apply ext_getElem
    · simp [Access.kept, HelloExtension.formats]
    · intro i inRange inside
      have known : i < list.length := by simpa [HelloExtension.formats] using inside
      have byte : byteAt d (view.body + 1 + i) = list[i] :=
        (parts.2.getD_add known 0).trans (getD_eq_getElem _ _ known)
      simp [Access.kept, HelloExtension.formats, byte]
  | other kind body => exact otherwise shows.valid.kind_ne.2

theorem HelloExtension.kind_lt (extension : HelloExtension) : extension.kind < 65536 := by
  cases extension with
  | supportedGroups list => exact show 0x000a < 65536 by decide
  | ecPointFormats list => exact show 0x000b < 65536 by decide
  | other kind body => exact kind.toNat_lt

theorem HelloExtension.length_bytes (extension : HelloExtension) :
    extension.bytes.length = 4 + extension.body.length := by
  rw [bytes, length_append, length_append, length_wordBytes, length_wordBytes]
  omega

theorem length_le_extensionBytes (extensions : List HelloExtension) :
    extensions.length ≤ (extensions.flatMap HelloExtension.bytes).length := by
  induction extensions with
  | nil => exact Nat.le_refl 0
  | cons extension rest ih =>
    rw [flatMap_cons, length_append, extension.length_bytes, length_cons]
    omega

theorem viewExtensions_forall₂ (valid : ∀ extension ∈ extensions, extension.Valid)
    (lies : LiesAt (extensions.flatMap HelloExtension.bytes) d p)
    (stop : p + (extensions.flatMap HelloExtension.bytes).length = extEnd)
    (small : (extensions.flatMap HelloExtension.bytes).length < 65536)
    (enough : extensions.length ≤ fuel) :
    List.Forall₂ (ViewOf d) (viewExtensions d extEnd fuel p) extensions := by
  induction extensions generalizing p fuel with
  | nil =>
    have atEnd : p = extEnd := stop
    rcases fuel with _ | fuel
    · exact List.Forall₂.nil
    · rw [viewExtensions, if_neg (by omega)]
      exact List.Forall₂.nil
  | cons extension rest ih =>
    rcases fuel with _ | fuel
    · exact absurd enough (by simp)
    · rw [flatMap_cons] at lies stop small
      rw [length_append] at stop small
      have parts := LiesAt.append_iff.mp lies
      have header := LiesAt.append_iff.mp parts.1
      have body := LiesAt.append_iff.mp header.2
      have length := extension.length_bytes
      have kindAt := wordAt_of_liesAt header.1 extension.kind_lt
      have lengthAt : wordAt d (p + 2) = extension.body.length :=
        wordAt_of_liesAt body.1 (by omega)
      rw [viewExtensions, if_pos (by omega), kindAt, lengthAt]
      refine List.Forall₂.cons ⟨rfl, rfl, body.2, ?_, by omega⟩ (ih ?_ ?_ ?_ ?_ ?_)
      · exact valid extension mem_cons_self
      · intro other mem
        exact valid other (mem_cons_of_mem extension mem)
      · rw [length, ← Nat.add_assoc] at parts
        exact parts.2
      · omega
      · omega
      · simpa using enough

theorem groupsInside_views (shown : List.Forall₂ (ViewOf d) views extensions) (found : ℕ) :
    GroupsInside d found views := by
  induction shown generalizing found with
  | nil => exact trivial
  | cons shows rest ih => exact ⟨shows.groupListInside found, ih _⟩

theorem walkExtensions_views (parsed : ParsedHello) (packet : extEnd ≤ d.length)
    (shown : List.Forall₂ (ViewOf d) (viewExtensions d extEnd fuel p) extensions) :
    ∃ after, walkExtensions d extEnd fuel p parsed = .done after ∧
      Noted d (viewExtensions d extEnd fuel p) parsed after :=
  (walkExtensions_eq parsed packet fuel p).1 (groupsInside_views shown _)

theorem groups_views (shown : List.Forall₂ (ViewOf d) views extensions) :
    views.flatMap (listedGroups d) =
      ClientHello.withoutGrease (extensions.flatMap HelloExtension.groups) := by
  induction shown with
  | nil => rfl
  | cons shows rest ih =>
    rw [flatMap_cons, ih, shows.listedGroups_eq]
    exact (filter_append _ _).symm

theorem formats_views (shown : List.Forall₂ (ViewOf d) views extensions) :
    views.flatMap (listedFormats d) = extensions.flatMap HelloExtension.formats := by
  induction shown with
  | nil => rfl
  | cons shows rest ih => rw [flatMap_cons, flatMap_cons, ih, shows.listedFormats_eq]

theorem map_kind_views (shown : List.Forall₂ (ViewOf d) views extensions) :
    views.map ExtensionView.kind = extensions.map HelloExtension.kind := by
  induction shown with
  | nil => rfl
  | cons shows rest ih => rw [map_cons, map_cons, ih, shows.kind]

end Views

namespace ClientHello

variable (hello : ClientHello)

theorem helloEnd_eq_add_block :
    helloEnd hello.record = extensionsAt hello.record + hello.block.length := by
  rw [helloEnd_record, length_message, extensionsAt_record]
  omega

theorem exists_views {extensions : List HelloExtension} (given : hello.extensions = some extensions) :
    extensionsAt hello.record + 2 ≤ helloEnd hello.record ∧
      List.Forall₂ (ViewOf hello.record)
        (viewExtensions hello.record (extensionsEnd hello.record) hello.record.length
          (extensionsAt hello.record + 2)) extensions := by
  have blockBytes : hello.block = wordBytes (extensions.flatMap HelloExtension.bytes).length ++
      extensions.flatMap HelloExtension.bytes := by
    rw [HelloFields.block, given]
  have lies := hello.message_liesAt.2.2.2.2.2
  rw [← extensionsAt_record, blockBytes] at lies
  have parts := LiesAt.append_iff.mp lies
  have length : hello.block.length = 2 + (extensions.flatMap HelloExtension.bytes).length := by
    rw [blockBytes, length_append, length_wordBytes]
  have stop := hello.helloEnd_eq_add_block
  have few := length_le_extensionBytes extensions
  have small := hello.record_length
  have total := hello.length_record
  have message := hello.length_message
  refine ⟨by omega, viewExtensions_forall₂ ?_ parts.2 ?_ (by omega) (by omega)⟩
  · exact hello.extensions_valid extensions given
  · rw [extensionsEnd, wordAt_of_liesAt parts.1 (by omega), stop]
    omega

theorem items_pushAll_empty {capacity : ℕ} {values : List ℕ} (fits : values.length ≤ capacity) :
    ((.empty : BoundedList ℕ capacity).pushAll values).items = values := by
  rw [BoundedList.items_pushAll]
  exact take_of_length_le fits

theorem parseClientHello_record (limits : hello.WithinLimits) :
    ∃ parsed, parseClientHello hello.record = .done parsed ∧
      parsed.tlsVersion = hello.version.toNat ∧ parsed.ciphers.items = hello.ciphers ∧
      parsed.extensions.items = hello.kinds ∧ parsed.ellipticCurves.items = hello.curves ∧
      parsed.ecPointFormats.items = hello.formats := by
  have stop := hello.helloEnd_eq_add_block
  rw [parseClientHello_eq, if_pos ⟨hello.hasHandshake_record, by omega⟩]
  rcases given : hello.extensions with _ | extensions
  · have noBlock : hello.block = [] := by rw [HelloFields.block, given]
    have none : hello.extensionList = [] := by rw [extensionList, given]; rfl
    rw [noBlock, length_nil] at stop
    rw [if_neg (by omega), fixedPart_record]
    refine ⟨_, rfl, rfl, items_pushAll_empty limits.ciphers, ?_, ?_, ?_⟩
    · rw [kinds, none]
      rfl
    · rw [curves, none]
      rfl
    · rw [formats, none]
      rfl
  · have list : hello.extensionList = extensions := by rw [extensionList, given]; rfl
    rcases hello.exists_views given with ⟨block, shown⟩
    rcases walkExtensions_views (fixedPart hello.record)
      (extensionsEnd_le hello.hasHandshake_record) shown with ⟨parsed, done, noted⟩
    rw [if_pos block]
    refine ⟨parsed, done, ?_, ?_, ?_, ?_, ?_⟩
    · rw [noted.tlsVersion, fixedPart_record]
    · rw [noted.ciphers, fixedPart_record]
      exact items_pushAll_empty limits.ciphers
    · rw [noted.extensions, map_kind_views shown, ← list]
      exact items_pushAll_empty limits.kinds
    · rw [noted.curves, groups_views shown, ← list]
      exact items_pushAll_empty limits.curves
    · rw [noted.formats, formats_views shown, ← list]
      exact items_pushAll_empty limits.formats

end ClientHello

end LogGuardian
