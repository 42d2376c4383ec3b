import LogGuardian.Ban.World
import LogGuardian.Lib.JsonObject
import LogGuardian.Parser.RoundTrip
import LogGuardian.Rules.Conf

/-!
# The bans that survive a restart
-/

namespace LogGuardian

open List

/-- `inet_ntop(AF_INET, …)` of an address in host order. -/
def formatV4 (bits : BitVec 32) : Bytes :=
  numeral (bits.toNat / 2 ^ 24) ++ chr '.' :: (numeral (bits.toNat / 2 ^ 16 % 256) ++
    chr '.' :: (numeral (bits.toNat / 2 ^ 8 % 256) ++ chr '.' :: numeral (bits.toNat % 256)))

/-- How `ipset` prints a member of an IPv4 set. -/
def memberText : Block → Bytes
  | .v4 network plen =>
    if plen = 32 then formatV4 network else formatV4 network ++ chr '/' :: numeral plen
  | .v6 _ => []

/-- The content of a `hash:net` set of the family `inet`. -/
structure V4Set where
  members : List Block
  nodup : members.Nodup
  networks : ∀ block ∈ members, ∃ network plen, block = .v4 network plen ∧ 1 ≤ plen ∧ plen ≤ 32 ∧
    network &&& netmask plen = network
  length_le : members.length ≤ 65536

/-- `sscanf(line, "%63s", ip)`. -/
def scanWord (line : Bytes) : Bytes :=
  ((line.dropWhile isSpace).takeWhile fun byte => !isSpace byte).take 63

/-- The output of `ipset list -o plain`: some lines about the set, and a line for each member. -/
def ipsetListing (header : List Bytes) (members : List Block) : Bytes :=
  Lines.text 10 (header ++ members.map memberText)

/-- A line before the members. -/
structure IsHeader (line : Bytes) : Prop where
  newline : 10 ∉ line
  nul : 0 ∉ line
  fits : line.length + 2 ≤ 256
  word : chr '.' ∉ scanWord (line ++ [10])

/-- `ipset_list_v4_members`: the members that are stored and the number of all. -/
def ipsetListV4Members (output : Bytes) (maxIps : ℕ) : List Bytes × ℕ :=
  let ips := ((fgetsLines 256 output).map scanWord).filter fun ip => ip ≠ [] ∧ chr '.' ∈ ip
  (ips.take maxIps, ips.length)

/-- `export_active_bans_json`: the content of the file. -/
def exportActiveBansJson (output : Bytes) : Bytes :=
  let listed := ipsetListV4Members output 500
  ascii "\x7b\"ips\":[" ++ (Json.commas (listed.1.map Json.quoted) ++
    (ascii "],\"total_count\":" ++ (numeral listed.2 ++ (ascii ",\"truncated\":" ++
    ((if listed.1.length < listed.2 then ascii "true" else ascii "false") ++
    ascii ",\"source\":\"ipset\"\x7d\n")))))

def toQuote (text : Bytes) : Bytes := text.dropWhile fun byte => byte ≠ chr '"' ∧ byte ≠ chr ']'

/-- The loop of `restore_active_bans_from_json` behind the bracket: the texts that it reads. -/
def scanIps : ℕ → Bytes → List Bytes
  | 0, _ => []
  | fuel + 1, text =>
    match toQuote text with
    | [] => []
    | byte :: rest =>
      if byte = chr '"' then
        let ip := (rest.takeWhile (· ≠ chr '"')).take 63
        let behind := rest.drop ip.length
        let behind := if behind.head? = some (chr '"') then behind.drop 1 else behind
        ip :: scanIps fuel (toQuote behind)
      else []

def fileIps (file : Bytes) : List Bytes :=
  let buf := (file.take 32767).takeWhile (· ≠ 0)
  match findLit buf (ascii "\"ips\"") with
  | none => []
  | some found =>
    match strchr found (chr '[') with
    | none => []
    | some opening => scanIps opening.length (opening.drop 1)

def restoreIp (world : World) (ip : Bytes) : World :=
  if ip ≠ [] ∧ isValidIp ip then (doBanV4 ip 32 world).2 else world

def restoreActiveBansFromJson (file : Bytes) (world : World) : World :=
  (fileIps file).foldl restoreIp world

/-- The bytes of the texts that `ipset` prints. -/
def isMemberByte (byte : UInt8) : Bool := isDigit byte || byte = chr '.' || byte = chr '/'

variable {byte : UInt8} {text : Bytes} {header texts : List Bytes} {world : World}

theorem isMemberByte_of_mem_numeral {number : ℕ} (mem : byte ∈ numeral number) :
    isMemberByte byte = true := by
  unfold isMemberByte
  rw [isDigit_of_mem_numeral mem]
  rfl

theorem isMemberByte_of_mem_formatV4 {bits : BitVec 32} (mem : byte ∈ formatV4 bits) :
    isMemberByte byte = true := by
  unfold formatV4 at mem
  simp only [mem_append, mem_cons] at mem
  rcases mem with digit | rfl | digit | rfl | digit | rfl | digit
  · exact isMemberByte_of_mem_numeral digit
  · rfl
  · exact isMemberByte_of_mem_numeral digit
  · rfl
  · exact isMemberByte_of_mem_numeral digit
  · rfl
  · exact isMemberByte_of_mem_numeral digit

theorem isMemberByte_of_mem_memberText {block : Block} (mem : byte ∈ memberText block) :
    isMemberByte byte = true := by
  rcases block with ⟨network, plen⟩ | bytes
  · unfold memberText at mem
    dsimp only at mem
    split_ifs at mem
    · exact isMemberByte_of_mem_formatV4 mem
    · rcases List.mem_append.mp mem with inAddress | inLength
      · exact isMemberByte_of_mem_formatV4 inAddress
      · rcases List.mem_cons.mp inLength with rfl | digit
        · rfl
        · exact isMemberByte_of_mem_numeral digit
  · cases mem

theorem dot_mem_formatV4 (bits : BitVec 32) : chr '.' ∈ formatV4 bits :=
  mem_append_right _ mem_cons_self

theorem parseOctet_numeral {octet : ℕ} (small : octet < 256) :
    parseOctet (numeral octet) = some octet := by
  have all : ∀ octet < 256, parseOctet (numeral octet) = some octet := by decide +kernel
  exact all octet small

theorem inetPton4_formatV4 (bits : BitVec 32) : inetPton4 (formatV4 bits) = some bits := by
  have noDot : ∀ number : ℕ, chr '.' ∉ numeral number := by
    intro number mem
    exact absurd (isDigit_of_mem_numeral mem) (by decide)
  have split : (formatV4 bits).splitOn (chr '.') = [numeral (bits.toNat / 2 ^ 24),
      numeral (bits.toNat / 2 ^ 16 % 256), numeral (bits.toNat / 2 ^ 8 % 256),
      numeral (bits.toNat % 256)] := by
    unfold formatV4
    rw [Lines.splitOn_append_cons, Lines.splitOn_append_cons, Lines.splitOn_append_cons,
      Lines.splitOn_of_not_mem (noDot _), Lines.splitOn_of_not_mem (noDot _),
      Lines.splitOn_of_not_mem (noDot _), Lines.splitOn_of_not_mem (noDot _)]
    rfl
  unfold inetPton4
  rw [split]
  simp only [parseOctet_numeral (show bits.toNat / 2 ^ 24 < 256 by omega),
    parseOctet_numeral (show bits.toNat / 2 ^ 16 % 256 < 256 by omega),
    parseOctet_numeral (show bits.toNat / 2 ^ 8 % 256 < 256 by omega),
    parseOctet_numeral (show bits.toNat % 256 < 256 by omega), Option.bind_eq_bind,
    Option.bind_some, Option.pure_def, Option.some.injEq]
  apply BitVec.eq_of_toNat_eq
  rw [BitVec.toNat_ofNat]
  omega

theorem inetPton4_of_slash (slash : chr '/' ∈ text) : inetPton4 text = none := by
  by_contra accepted
  rcases Option.ne_none_iff_exists'.mp accepted with ⟨address, parsed⟩
  rcases inetPton4_eq_some parsed with
    ⟨w, x, y, z, a, b, c, d, split, parsedW, parsedX, parsedY, parsedZ, -⟩
  have joined : [chr '.'].intercalate (text.splitOn (chr '.')) = text := intercalate_splitOn _
  rw [split] at joined
  rw [← joined] at slash
  have noSlash : ∀ {part : Bytes} {value : ℕ}, parseOctet part = some value → chr '/' ∉ part := by
    intro part value isOctet mem
    exact absurd (List.all_eq_true.mp (parseOctet_eq_some isOctet).1 _ mem) (by decide)
  simp only [intercalate, intersperse, flatten_cons, flatten_nil, mem_append, not_mem_nil, or_false] at slash
  rcases slash with mem | isDot | mem | isDot | mem | isDot | mem
  · exact noSlash parsedW mem
  · exact absurd isDot (by decide)
  · exact noSlash parsedX mem
  · exact absurd isDot (by decide)
  · exact noSlash parsedY mem
  · exact absurd isDot (by decide)
  · exact noSlash parsedZ mem

theorem length_memberText_le {network : BitVec 32} {plen : ℕ} (atMost : plen ≤ 32) :
    (memberText (.v4 network plen)).length ≤ 19 := by
  have address := length_le_of_inetPton4 (inetPton4_formatV4 network)
  have length : (numeral plen).length ≤ 3 :=
    (parseOctet_eq_some (parseOctet_numeral (show plen < 256 by omega))).2.2.2.1
  unfold memberText
  dsimp only
  split_ifs
  · omega
  · rw [length_append, length_cons]
    omega

theorem dot_mem_memberText (network : BitVec 32) (plen : ℕ) :
    chr '.' ∈ memberText (.v4 network plen) := by
  unfold memberText
  dsimp only
  split_ifs
  · exact dot_mem_formatV4 network
  · exact mem_append_left _ (dot_mem_formatV4 network)

theorem inetPton4_memberText (network bits : BitVec 32) (plen : ℕ) :
    inetPton4 (memberText (.v4 network plen)) = some bits ↔ plen = 32 ∧ bits = network := by
  unfold memberText
  dsimp only
  split_ifs with isHost
  · rw [inetPton4_formatV4, Option.some.injEq]
    exact ⟨fun same => ⟨isHost, same.symm⟩, fun both => both.2.symm⟩
  · rw [inetPton4_of_slash (mem_append_right _ mem_cons_self)]
    exact iff_of_false (Option.some_ne_none _).symm fun both => isHost both.1

theorem scanWord_line (nonempty : text ≠ []) (short : text.length ≤ 63)
    (plain : ∀ byte ∈ text, isMemberByte byte = true) : scanWord (text ++ [10]) = text := by
  have notSpace : ∀ byte, isMemberByte byte = true → isSpace byte = false := by
    intro byte isMember
    by_contra space
    rw [Bool.not_eq_false] at space
    simp only [isSpace, Bool.or_eq_true, Bool.and_eq_true, decide_eq_true_eq,
      UInt8.le_iff_toNat_le] at space
    simp only [isMemberByte, isDigit, Bool.or_eq_true, Bool.and_eq_true, decide_eq_true_eq,
      UInt8.le_iff_toNat_le] at isMember
    rcases isMember with (⟨low, high⟩ | rfl) | rfl
    · rcases space with rfl | ⟨-, upTo⟩
      · exact absurd low (by decide)
      · have fromNat : (48 : UInt8).toNat = 48 := rfl
        have toNat : (13 : UInt8).toNat = 13 := rfl
        omega
    · exact absurd space (by decide)
    · exact absurd space (by decide)
  rcases text with _ | ⟨first, rest⟩
  · exact absurd rfl nonempty
  · have kept : ∀ byte ∈ first :: rest, (!isSpace byte) = true := by
      intro byte mem
      rw [notSpace byte (plain byte mem)]
      rfl
    unfold scanWord
    rw [cons_append, dropWhile_cons_of_neg (by
      rw [notSpace first (plain first mem_cons_self)]
      exact Bool.false_ne_true), ← cons_append, takeWhile_append_of_pos kept]
    change ((first :: rest) ++ []).take 63 = _
    rw [append_nil, take_of_length_le short]

theorem ipsetListV4Members_listing (isHeader : ∀ line ∈ header, IsHeader line) (set : V4Set)
    (maxIps : ℕ) :
    ipsetListV4Members (ipsetListing header set.members) maxIps =
      ((set.members.map memberText).take maxIps, set.members.length) := by
  have words : ∀ block ∈ set.members, scanWord (memberText block ++ [10]) = memberText block ∧
      memberText block ≠ [] ∧ chr '.' ∈ memberText block ∧ (memberText block).length ≤ 19 := by
    intro block mem
    rcases set.networks block mem with ⟨network, plen, rfl, -, atMost, -⟩
    have short := @length_memberText_le network plen atMost
    have dot := dot_mem_memberText network plen
    have nonempty := ne_nil_of_mem dot
    exact ⟨scanWord_line nonempty (by omega) fun byte => isMemberByte_of_mem_memberText, nonempty,
      dot, short⟩
  have lines : fgetsLines 256 (ipsetListing header set.members) =
      (header ++ set.members.map memberText).map (· ++ [10]) := by
    apply fgetsLines_text
    intro line mem
    rcases List.mem_append.mp mem with inHeader | inMembers
    · have line := isHeader line inHeader
      exact ⟨line.newline, line.nul, line.fits⟩
    · rcases List.mem_map.mp inMembers with ⟨block, isMember, rfl⟩
      have length := (words block isMember).2.2.2
      refine ⟨fun newline => ?_, fun nul => ?_, by omega⟩
      · exact absurd (isMemberByte_of_mem_memberText newline) (by decide)
      · exact absurd (isMemberByte_of_mem_memberText nul) (by decide)
  have ips : ((fgetsLines 256 (ipsetListing header set.members)).map scanWord).filter
      (fun ip => decide (ip ≠ [] ∧ chr '.' ∈ ip)) = set.members.map memberText := by
    rw [lines, map_map, map_append, filter_append]
    have noHeader : (header.map (scanWord ∘ (· ++ [10]))).filter
        (fun ip => decide (ip ≠ [] ∧ chr '.' ∈ ip)) = [] := by
      rw [filter_eq_nil_iff]
      intro word mem
      rcases List.mem_map.mp mem with ⟨line, inHeader, rfl⟩
      rw [decide_eq_true_eq]
      exact fun both => (isHeader line inHeader).word both.2
    have all : (set.members.map memberText).map (scanWord ∘ (· ++ [10])) =
        set.members.map memberText := by
      rw [map_map]
      apply map_congr_left
      intro block mem
      exact (words block mem).1
    rw [noHeader, all, nil_append, filter_eq_self]
    intro text mem
    rcases List.mem_map.mp mem with ⟨block, isMember, rfl⟩
    rw [decide_eq_true_eq]
    exact ⟨(words block isMember).2.1, (words block isMember).2.2.1⟩
  unfold ipsetListV4Members
  dsimp only
  rw [ips, length_map]

theorem toQuote_stop {byte : UInt8} (stops : byte = chr '"' ∨ byte = chr ']') (text : Bytes) :
    toQuote (byte :: text) = byte :: text := by
  unfold toQuote
  rw [dropWhile_cons_of_neg]
  rcases stops with rfl | rfl
  · decide
  · decide

theorem scanIps_commas (plain : ∀ text ∈ texts, chr '"' ∉ text)
    (short : ∀ text ∈ texts, text.length ≤ 63) {fuel : ℕ} (enough : texts.length ≤ fuel)
    (rest : Bytes) :
    scanIps fuel (Json.commas (texts.map Json.quoted) ++ chr ']' :: rest) = texts := by
  induction texts generalizing fuel with
  | nil =>
    cases fuel with
    | zero => rfl
    | succ fuel =>
      rfl
  | cons text texts ih =>
    rw [forall_mem_cons] at plain short
    rcases fuel with _ | fuel
    · exact absurd enough (Nat.not_succ_le_zero _)
    have enoughRest : texts.length ≤ fuel := Nat.le_of_succ_le_succ enough
    have behind : toQuote ((texts.map Json.quoted).flatMap (fun text => 0x2c :: text) ++
        chr ']' :: rest) = Json.commas (texts.map Json.quoted) ++ chr ']' :: rest := by
      rcases texts with _ | ⟨second, texts⟩
      · exact toQuote_stop (Or.inr rfl) rest
      · rfl
    have shape : Json.commas ((text :: texts).map Json.quoted) ++ chr ']' :: rest =
        chr '"' :: (text ++ chr '"' :: ((texts.map Json.quoted).flatMap
          (fun text => 0x2c :: text) ++ chr ']' :: rest)) := by
      simp [Json.commas, Json.quoted, chr]
    have word : ((text ++ chr '"' :: ((texts.map Json.quoted).flatMap
        (fun text => 0x2c :: text) ++ chr ']' :: rest)).takeWhile (· ≠ chr '"')).take 63 = text := by
      rw [takeWhile_append_of_pos, takeWhile_cons_of_neg (by simp), append_nil,
        take_of_length_le short.1]
      intro byte mem
      rw [decide_eq_true_eq]
      rintro rfl
      exact plain.1 mem
    rw [scanIps, shape, toQuote_stop (Or.inl rfl)]
    dsimp only
    rw [if_pos rfl, word, drop_left, head?_cons, if_pos rfl, drop_one,
      tail_cons, behind, ih plain.2 short.2 enoughRest]

theorem length_commas_quoted_le (short : ∀ text ∈ texts, text.length ≤ 19) :
    (Json.commas (texts.map Json.quoted)).length ≤ 22 * texts.length := by
  have each : ∀ texts : List Bytes, (∀ text ∈ texts, text.length ≤ 19) →
      ((texts.map Json.quoted).flatMap fun text => 0x2c :: text).length ≤ 22 * texts.length := by
    intro texts
    induction texts with
    | nil => exact fun _ => le_rfl
    | cons text texts ih =>
      intro short
      rw [forall_mem_cons] at short
      have rest := ih short.2
      have length := short.1
      simp only [map_cons, flatMap_cons, length_append, length_cons,
        Json.quoted, length_nil]
      omega
  rcases texts with _ | ⟨text, texts⟩
  · exact le_rfl
  · rw [forall_mem_cons] at short
    have rest := each texts short.2
    simp only [map_cons, Json.commas, Json.quoted, length_append, length_cons,
      length_nil]
    omega

theorem fileIps_of_texts (few : texts.length ≤ 500)
    (member : ∀ text ∈ texts, ∀ byte ∈ text, isMemberByte byte = true)
    (short : ∀ text ∈ texts, text.length ≤ 19) (rest : Bytes) :
    fileIps (ascii "\x7b\"ips\":[" ++ (Json.commas (texts.map Json.quoted) ++ chr ']' :: rest)) =
      texts := by
  have length := length_commas_quoted_le short
  have noQuote : ∀ text ∈ texts, chr '"' ∉ text := by
    intro text mem quote
    exact absurd (member text mem _ quote) (by decide)
  have noNul : ∀ byte ∈ ascii "\x7b\"ips\":[" ++ (Json.commas (texts.map Json.quoted) ++ [chr ']']),
      decide (byte ≠ 0) = true := by
    have texts : 0 ∉ Json.commas (texts.map Json.quoted) := by
      apply Json.closed_nul_not_mem.commas
      intro quoted mem
      rcases List.mem_map.mp mem with ⟨text, isText, rfl⟩
      intro nul
      simp only [Json.quoted, mem_cons, mem_append, not_mem_nil, or_false] at nul
      rcases nul with isQuote | inText | isQuote
      · cases isQuote
      · exact absurd (member text isText 0 inText) (by decide)
      · cases isQuote
    intro byte mem
    rw [decide_eq_true_eq]
    rintro rfl
    rcases List.mem_append.mp mem with inLabel | mem
    · exact absurd inLabel (by decide)
    · rcases List.mem_append.mp mem with inTexts | isBracket
      · exact texts inTexts
      · exact absurd isBracket (by decide)
  have buffer : ∃ more, ((ascii "\x7b\"ips\":[" ++ (Json.commas (texts.map Json.quoted) ++
      chr ']' :: rest)).take 32767).takeWhile (· ≠ 0) =
        ascii "\x7b\"ips\":[" ++ (Json.commas (texts.map Json.quoted) ++ chr ']' :: more) := by
    have shape : ∀ more, ascii "\x7b\"ips\":[" ++ (Json.commas (texts.map Json.quoted) ++
        chr ']' :: more) = (ascii "\x7b\"ips\":[" ++ (Json.commas (texts.map Json.quoted) ++
          [chr ']'])) ++ more := by
      intro more
      simp
    have fits : (ascii "\x7b\"ips\":[" ++ (Json.commas (texts.map Json.quoted) ++
        [chr ']'])).length ≤ 32767 := by
      simp only [length_append, length_singleton]
      have eight : (ascii "\x7b\"ips\":[").length = 8 := by decide
      omega
    rw [shape, take_append, take_of_length_le fits, takeWhile_append_of_pos noNul]
    exact ⟨_, (shape _).symm⟩
  rcases buffer with ⟨more, isBuffer⟩
  have found : findLit (ascii "\x7b\"ips\":[" ++ (Json.commas (texts.map Json.quoted) ++
      chr ']' :: more)) (ascii "\"ips\"") = some (ascii "\"ips\":[" ++
        (Json.commas (texts.map Json.quoted) ++ chr ']' :: more)) := by
    have label : ascii "\x7b\"ips\":[" = 0x7b :: (ascii "\"ips\"" ++ ascii ":[") := by decide
    have behind : ascii "\"ips\":[" = ascii "\"ips\"" ++ ascii ":[" := by decide
    unfold findLit
    rw [label, cons_append, @Search.find_eq_some_of_first _ _ _ _ 1]
    · rfl
    · exact Nat.succ_le_succ (Nat.zero_le _)
    · rw [drop_one]
      exact prefix_append _ _
    · intro earlier before
      rw [Nat.lt_one_iff.mp before, drop_zero]
      intro isPrefix
      exact absurd (List.cons_prefix_cons.mp isPrefix).1 (by decide)
  have opened : strchr (ascii "\"ips\":[" ++ (Json.commas (texts.map Json.quoted) ++
      chr ']' :: more)) (chr '[') = some (chr '[' :: (Json.commas (texts.map Json.quoted) ++
        chr ']' :: more)) := by
    have label : ascii "\"ips\":[" = ascii "\"ips\":" ++ [chr '['] := by decide
    have noBracket : ∀ byte ∈ ascii "\"ips\":", decide (byte ≠ chr '[') = true := by decide +kernel
    unfold strchr
    rw [label, append_assoc, singleton_append,
      if_pos (mem_append_right _ mem_cons_self),
      dropWhile_append_of_pos noBracket, dropWhile_cons_of_neg (by simp)]
  have enough : texts.length ≤ (chr '[' :: (Json.commas (texts.map Json.quoted) ++
      chr ']' :: more)).length := by
    have lower : (texts.map Json.quoted).length ≤ (Json.commas (texts.map Json.quoted)).length := by
      apply Json.length_le_commas
      intro quoted mem
      rcases List.mem_map.mp mem with ⟨text, -, rfl⟩
      exact cons_ne_nil _ _
    rw [length_map] at lower
    simp only [length_cons, length_append]
    omega
  unfold fileIps
  dsimp only
  rw [isBuffer, found]
  dsimp only
  rw [opened]
  dsimp only
  apply scanIps_commas noQuote _ enough
  intro text mem
  have bound := short text mem
  omega

theorem doBanV4_spec (usable : world.env.daemonIpset = true) (ip : Bytes) :
    (doBanV4 ip 32 world).2.env = world.env ∧
      (doBanV4 ip 32 world).2.ipset = (inetPton4 ip).elim world.ipset fun bits =>
        (CoverStore.update (ipsetFull false) (.v4 bits 32) world.ipset).2 := by
  unfold doBanV4 doBan runIpsetIp familyHost
  rw [usable]
  rcases inetPton4 ip with _ | bits
  · cases world.env.daemonLoaded false
    · exact ⟨rfl, rfl⟩
    · exact ⟨rfl, rfl⟩
  · cases world.env.daemonLoaded false
    · exact ⟨rfl, rfl⟩
    · exact ⟨rfl, rfl⟩

theorem restoreIp_spec (usable : world.env.daemonIpset = true) (room : world.ipset.length < 65536)
    (ip : Bytes) :
    (restoreIp world ip).env = world.env ∧
      (restoreIp world ip).ipset.length ≤ world.ipset.length + 1 ∧
      ∀ block, block ∈ (restoreIp world ip).ipset ↔
        block ∈ world.ipset ∨ ∃ bits, inetPton4 ip = some bits ∧ block = .v4 bits 32 := by
  rcases doBanV4_spec usable ip with ⟨env, ipset⟩
  unfold restoreIp
  rcases parsed : inetPton4 ip with _ | bits
  · rw [parsed] at ipset
    split_ifs
    · rw [env, ipset]
      simp
    · simp
  · have valid : ip ≠ [] ∧ isValidIp ip = true := by
      constructor
      · rintro rfl
        cases parsed
      · unfold isValidIp
        rw [parsed]
        rfl
    have notFull : ipsetFull false world.ipset = false := by
      unfold ipsetFull
      rw [decide_eq_false_iff_not, not_le]
      exact lt_of_le_of_lt (length_filter_le _ _) room
    rw [parsed] at ipset
    rw [if_pos valid, env, ipset]
    refine ⟨rfl, ?_⟩
    change (CoverStore.update (ipsetFull false) (.v4 bits 32) world.ipset).2.length ≤ _ ∧
      ∀ block, block ∈ (CoverStore.update (ipsetFull false) (.v4 bits 32) world.ipset).2 ↔ _
    unfold CoverStore.update
    rw [notFull]
    by_cases present : Block.v4 bits 32 ∈ world.ipset
    · rw [if_pos present]
      refine ⟨Nat.le_succ _, ?_⟩
      intro block
      constructor
      · exact Or.inl
      · rintro (mem | ⟨other, same, rfl⟩)
        · exact mem
        · cases Option.some.inj same
          exact present
    · rw [if_neg present, if_neg Bool.false_ne_true]
      refine ⟨le_rfl, ?_⟩
      intro block
      rw [mem_cons]
      constructor
      · rintro (rfl | mem)
        · exact Or.inr ⟨bits, rfl, rfl⟩
        · exact Or.inl mem
      · rintro (mem | ⟨other, same, rfl⟩)
        · exact Or.inr mem
        · cases Option.some.inj same
          exact Or.inl rfl

theorem mem_ipset_foldl_restoreIp (usable : world.env.daemonIpset = true)
    (room : world.ipset.length + texts.length < 65536) (block : Block) :
    block ∈ (texts.foldl restoreIp world).ipset ↔
      block ∈ world.ipset ∨
        ∃ text ∈ texts, ∃ bits, inetPton4 text = some bits ∧ block = .v4 bits 32 := by
  induction texts generalizing world with
  | nil => simp
  | cons text texts ih =>
    rw [length_cons] at room
    rcases restoreIp_spec usable (show world.ipset.length < 65536 by omega) text with
      ⟨env, length, added⟩
    rw [foldl_cons, ih (by rw [env]; exact usable) (by omega), added]
    simp [or_assoc]

theorem mem_ipset_restart (set : V4Set) (isHeader : ∀ line ∈ header, IsHeader line)
    (empty : world.ipset = []) (usable : world.env.daemonIpset = true) (block : Block) :
    block ∈ (restoreActiveBansFromJson
        (exportActiveBansJson (ipsetListing header set.members)) world).ipset ↔
      block ∈ set.members.take 500 ∧ ∃ bits, block = .v4 bits 32 := by
  have few : ((set.members.map memberText).take 500).length ≤ 500 := length_take_le _ _
  have ofMember : ∀ text ∈ (set.members.map memberText).take 500,
      ∃ block ∈ set.members, text = memberText block := by
    intro text mem
    rcases List.mem_map.mp (mem_of_mem_take mem) with ⟨block, isMember, rfl⟩
    exact ⟨block, isMember, rfl⟩
  have texts : fileIps (exportActiveBansJson (ipsetListing header set.members)) =
      (set.members.map memberText).take 500 := by
    unfold exportActiveBansJson
    rw [ipsetListV4Members_listing isHeader]
    apply fileIps_of_texts few
    · intro text mem byte inText
      rcases ofMember text mem with ⟨block, -, rfl⟩
      exact isMemberByte_of_mem_memberText inText
    · intro text mem
      rcases ofMember text mem with ⟨block, isMember, rfl⟩
      rcases set.networks block isMember with ⟨network, plen, rfl, -, atMost, -⟩
      exact length_memberText_le atMost
  unfold restoreActiveBansFromJson
  rw [texts, mem_ipset_foldl_restoreIp usable (by rw [empty]; simp only [length_nil]; omega),
    empty, ← map_take]
  simp only [not_mem_nil, false_or, mem_map, exists_exists_and_eq_and]
  constructor
  · rintro ⟨member, isTaken, bits, parsed, rfl⟩
    rcases set.networks member (mem_of_mem_take isTaken) with ⟨network, plen, rfl, -, -, -⟩
    rcases (inetPton4_memberText network bits plen).mp parsed with ⟨rfl, rfl⟩
    exact ⟨isTaken, bits, rfl⟩
  · rintro ⟨isTaken, bits, rfl⟩
    exact ⟨.v4 bits 32, isTaken, bits, (inetPton4_memberText bits bits 32).mpr ⟨rfl, rfl⟩, rfl⟩

/-- A restart of the daemon gives back the members of the set exactly when they are at most 500
and none of them is a network. -/
theorem bans_survive_restart_iff (set : V4Set) {header : List Bytes}
    (isHeader : ∀ line ∈ header, IsHeader line) {world : World} (empty : world.ipset = [])
    (usable : world.env.daemonIpset = true) :
    (∀ block, block ∈ (restoreActiveBansFromJson
        (exportActiveBansJson (ipsetListing header set.members)) world).ipset ↔
          block ∈ set.members) ↔
      set.members.length ≤ 500 ∧ ∀ block ∈ set.members, ∃ bits, block = .v4 bits 32 := by
  simp only [mem_ipset_restart set isHeader empty usable]
  constructor
  · intro same
    refine ⟨?_, fun block mem => ((same block).mpr mem).2⟩
    by_contra many
    rw [not_le] at many
    have last := getElem_mem many
    have taken := ((same _).mpr last).1
    rcases List.mem_take_iff_getElem.mp taken with ⟨i, inRange, sameBlock⟩
    have sameIndex := (List.Nodup.getElem_inj_iff set.nodup).mp sameBlock
    omega
  · rintro ⟨atMost, hosts⟩ block
    rw [take_of_length_le atMost]
    exact ⟨fun both => both.1, fun mem => ⟨mem, hosts block mem⟩⟩

/-- The lines of `ipset` before the members. -/
def sampleHeader : List Bytes :=
  [ascii "Name: log_analyzer_block_v4", ascii "Type: hash:net",
    ascii "Header: family inet hashsize 1024 maxelem 65536", ascii "Members:"]

theorem isHeader_sampleHeader : ∀ line ∈ sampleHeader, IsHeader line := by
  unfold sampleHeader
  simp only [forall_mem_cons, not_mem_nil, false_imp_iff, implies_true, and_true]
  refine ⟨⟨?_, ?_, ?_, ?_⟩, ⟨?_, ?_, ?_, ?_⟩, ⟨?_, ?_, ?_, ?_⟩, ⟨?_, ?_, ?_, ?_⟩⟩
  all_goals decide +kernel

def twoHosts : V4Set where
  members := [.v4 0xcb007132 32, .v4 0xc6336401 32]
  nodup := by decide
  networks := by
    simp only [List.forall_mem_cons, List.not_mem_nil, false_imp_iff, implies_true, and_true]
    exact ⟨⟨_, 32, rfl, by decide, by decide, by decide⟩, ⟨_, 32, rfl, by decide, by decide, by decide⟩⟩
  length_le := by decide

theorem bans_survive_restart_twoHosts :
    (∀ line ∈ sampleHeader, IsHeader line) ∧ ({} : World).ipset = [] ∧
      ({} : World).env.daemonIpset = true ∧
      ∀ block, block ∈ (restoreActiveBansFromJson
        (exportActiveBansJson (ipsetListing sampleHeader twoHosts.members)) {}).ipset ↔
          block ∈ twoHosts.members := by
  refine ⟨isHeader_sampleHeader, rfl, rfl, ?_⟩
  apply (bans_survive_restart_iff twoHosts isHeader_sampleHeader rfl rfl).mpr
  refine ⟨by decide, ?_⟩
  unfold twoHosts
  simp only [forall_mem_cons, not_mem_nil, false_imp_iff, implies_true, and_true]
  exact ⟨⟨_, rfl⟩, ⟨_, rfl⟩⟩

def oneNetwork : V4Set where
  members := [.v4 0x0a000000 8]
  nodup := by decide
  networks := by
    simp only [List.forall_mem_cons, List.not_mem_nil, false_imp_iff, implies_true, and_true]
    exact ⟨_, 8, rfl, by decide, by decide, by decide⟩
  length_le := by decide

def hostAt (index : ℕ) : Block := .v4 (BitVec.ofNat 32 (0x0a000000 + index)) 32

theorem eq_of_hostAt_eq {first second : ℕ} (inFirst : first < 501) (inSecond : second < 501)
    (same : hostAt first = hostAt second) : first = second := by
  have sameBits := congrArg BitVec.toNat (Block.v4.inj same).1
  rw [BitVec.toNat_ofNat, BitVec.toNat_ofNat] at sameBits
  omega

def manyBlocks : List Block := (List.range 501).map hostAt

def manyHosts : V4Set where
  members := manyBlocks
  nodup := by
    apply List.Nodup.map_on _ List.nodup_range
    intro first inFirst second inSecond same
    exact eq_of_hostAt_eq (List.mem_range.mp inFirst) (List.mem_range.mp inSecond) same
  networks := by
    intro block mem
    rcases List.mem_map.mp mem with ⟨index, -, rfl⟩
    refine ⟨_, 32, rfl, by decide, le_rfl, ?_⟩
    have mask : netmask 32 = BitVec.allOnes 32 := by decide
    rw [mask, BitVec.and_allOnes]
  length_le := by simp [manyBlocks]

/-- Neither a network nor the last of 501 hosts is in the set after a restart. -/
theorem members_lost_by_restart :
    (Block.v4 0x0a000000 8 ∈ oneNetwork.members ∧
      Block.v4 0x0a000000 8 ∉ (restoreActiveBansFromJson
        (exportActiveBansJson (ipsetListing sampleHeader oneNetwork.members)) {}).ipset) ∧
    hostAt 500 ∈ manyHosts.members ∧
      hostAt 500 ∉ (restoreActiveBansFromJson
        (exportActiveBansJson (ipsetListing sampleHeader manyHosts.members)) {}).ipset := by
  refine ⟨⟨mem_singleton_self _, ?_⟩, ?_, ?_⟩
  · rw [mem_ipset_restart oneNetwork isHeader_sampleHeader rfl rfl]
    rintro ⟨-, bits, isHost⟩
    cases isHost
  · unfold manyHosts manyBlocks
    rw [mem_map]
    refine ⟨500, ?_, rfl⟩
    rw [mem_range]
    omega
  · rw [mem_ipset_restart manyHosts isHeader_sampleHeader rfl rfl]
    rintro ⟨isTaken, -⟩
    have early : manyHosts.members.take 500 = (range 500).map hostAt := by
      unfold manyHosts manyBlocks
      rw [← map_take, take_range, Nat.min_eq_left (by omega)]
    rw [early] at isTaken
    rcases List.mem_map.mp isTaken with ⟨index, inRange, same⟩
    rw [mem_range] at inRange
    have isLast := eq_of_hostAt_eq (by omega) (by omega) same
    omega

end LogGuardian
