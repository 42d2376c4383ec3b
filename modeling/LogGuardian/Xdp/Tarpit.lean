import LogGuardian.Lib.InternetChecksum

/-!
# The tarpit of the XDP filter
-/

namespace LogGuardian

open InternetChecksum

structure Frame where
  byte : InternetChecksum.Memory
  size : ℕ

inductive XdpAction where
  | drop
  | tx (frame : Frame)
  | goOn

def ipAt : ℕ := 14

namespace Frame

def etherType (frame : Frame) : ℕ := load16 frame.byte 12

/-- `iph->ihl`, the low half of the first byte. -/
def ihl (frame : Frame) : ℕ := (frame.byte ipAt).toNat % 16

def totLen (frame : Frame) : ℕ := load16 frame.byte (ipAt + 2)

def protocol (frame : Frame) : ℕ := (frame.byte (ipAt + 9)).toNat

/-- `th->doff`, the high half of the byte at offset 12. -/
def doff (frame : Frame) (th : ℕ) : ℕ := (frame.byte (th + 12)).toNat / 16

def source (frame : Frame) : List UInt8 := (List.range 4).map fun i => frame.byte (ipAt + 12 + i)

end Frame

def ethHeader : ℕ := 14

def ipHeader : ℕ := 20

def tcpHeader : ℕ := 20

def answerHeaders (memory : InternetChecksum.Memory) (th : ℕ) : InternetChecksum.Memory :=
  let macs := swap memory 0 6 6
  let addresses := swap macs (ipAt + 12) (ipAt + 16) 4
  let ports := swap addresses th (th + 2) 2
  let oldSeq := load32 ports (th + 4)
  let oldAck := load32 ports (th + 8)
  let seq := store32 ports (th + 4) oldAck
  let ack := store32 seq (th + 8) ((oldSeq + 1) % 2 ^ 32)
  let window := store16 ack (th + 14) 0
  Function.update window (th + 13) ((window (th + 13) &&& 0xc0) ||| 0x10)

/-- `bpf_xdp_adjust_tail` by a negative offset, which keeps at least an Ethernet header. -/
def adjustTail (frame : Frame) (shrink : ℕ) : Option Frame :=
  if frame.size < ethHeader + shrink then none else some { frame with size := frame.size - shrink }

def ipChecksum (memory : InternetChecksum.Memory) (ipHlen : ℕ) : ℕ := wordSum memory ipAt (min 10 (ipHlen / 2))

def tcpChecksum (memory : InternetChecksum.Memory) (th tcpHlen : ℕ) : ℕ :=
  wordSum memory (ipAt + 12) 4 + 6 + tcpHlen + wordSum memory th (min 30 (tcpHlen / 2))

def sealHeaders (memory : InternetChecksum.Memory) (th ipHlen tcpHlen : ℕ) : InternetChecksum.Memory :=
  let length := store16 memory (ipAt + 2) (ipHlen + tcpHlen)
  let noIpCheck := store16 length (ipAt + 10) 0
  let ipCheck := store16 noIpCheck (ipAt + 10) (65535 - fold (ipChecksum noIpCheck ipHlen))
  let noTcpCheck := store16 ipCheck (th + 16) 0
  store16 noTcpCheck (th + 16) (65535 - fold (tcpChecksum noTcpCheck th tcpHlen))

def clampTcpWindow (frame : Frame) (th : ℕ) : XdpAction :=
  let ipHlen := frame.ihl * 4
  let tcpHlen := frame.doff th * 4
  if ipHlen < ipHeader then .drop
  else if tcpHlen < tcpHeader ∨ 60 < tcpHlen then .drop
  else if frame.size < ipAt + ipHlen then .drop
  else if frame.size < th + tcpHlen then .drop
  else
    let answered := { frame with byte := answerHeaders frame.byte th }
    let newTotLen := ipHlen + tcpHlen
    if newTotLen < answered.totLen then
      match adjustTail answered (answered.totLen - newTotLen) with
      | none => .drop
      | some shrunk =>
        if shrunk.size < ethHeader then .drop
        else if shrunk.size < ipAt + ipHlen then .drop
        else if shrunk.size < ipAt + ipHlen + tcpHlen then .drop
        else
          .tx { shrunk with byte := sealHeaders shrunk.byte (ipAt + ipHlen) ipHlen tcpHlen }
    else .tx { answered with byte := sealHeaders answered.byte th ipHlen tcpHlen }

structure XdpEnv where
  blacklistV4 : List UInt8 → Option ℕ
  tarpitV4 : List UInt8 → Option ℕ
  random : ℕ

def xdpWafFilter (env : XdpEnv) (frame : Frame) : XdpAction :=
  if frame.size < ethHeader then .goOn
  else if frame.etherType ≠ 0x0800 then .goOn
  else if frame.size < ipAt + ipHeader then .goOn
  else if env.blacklistV4 frame.source = some 1 then .drop
  else
    match env.tarpitV4 frame.source with
    | none => .goOn
    | some prob =>
      if prob = 0 then .goOn
      else if frame.protocol = 6 then
        if frame.size < ipAt + ipHeader + tcpHeader then .goOn
        else if env.random % 100 < prob then clampTcpWindow frame (ipAt + ipHeader)
        else .goOn
      else if env.random % 100 < prob then .drop
      else .goOn

def segmentSum (memory : InternetChecksum.Memory) (p length : ℕ) : ℕ :=
  wordSum memory p (length / 2) +
    if length % 2 = 1 then (memory (p + length - 1)).toNat * 256 else 0

/-- A reply to a received frame that the other side accepts. -/
structure ValidReply (received sent : Frame) : Prop where
  whole : ipAt + sent.totLen ≤ sent.size
  ipCheck : fold (wordSum sent.byte ipAt (sent.ihl * 2)) = 65535
  tcpCheck : fold (wordSum sent.byte (ipAt + 12) 4 + sent.protocol + (sent.totLen - sent.ihl * 4) +
    segmentSum sent.byte (ipAt + sent.ihl * 4) (sent.totLen - sent.ihl * 4)) = 65535
  macs : ∀ i < 6, sent.byte i = received.byte (6 + i) ∧ sent.byte (6 + i) = received.byte i
  sourceAddress : load32 sent.byte (ipAt + 12) = load32 received.byte (ipAt + 16)
  destAddress : load32 sent.byte (ipAt + 16) = load32 received.byte (ipAt + 12)
  sourcePort : load16 sent.byte (ipAt + sent.ihl * 4) =
    load16 received.byte (ipAt + received.ihl * 4 + 2)
  destPort : load16 sent.byte (ipAt + sent.ihl * 4 + 2) =
    load16 received.byte (ipAt + received.ihl * 4)
  ackNumber : load32 sent.byte (ipAt + sent.ihl * 4 + 8) =
    (load32 received.byte (ipAt + received.ihl * 4 + 4) + 1) % 2 ^ 32

section NoOptions

variable {memory : InternetChecksum.Memory}

variable {th ipHlen tcpHlen i : ℕ}

theorem sealHeaders_of_ne (notLength : i ≠ ipAt + 2 ∧ i ≠ ipAt + 2 + 1)
    (notIpCheck : i ≠ ipAt + 10 ∧ i ≠ ipAt + 10 + 1) (notTcpCheck : i ≠ th + 16 ∧ i ≠ th + 16 + 1) :
    sealHeaders memory th ipHlen tcpHlen i = memory i := by
  unfold sealHeaders
  rw [store16_of_ne notTcpCheck.1 notTcpCheck.2, store16_of_ne notTcpCheck.1 notTcpCheck.2,
    store16_of_ne notIpCheck.1 notIpCheck.2, store16_of_ne notIpCheck.1 notIpCheck.2,
    store16_of_ne notLength.1 notLength.2]

theorem totLen_sealHeaders (behind : ipAt + 3 < th + 16) (short : ipHlen + tcpHlen < 2 ^ 16) :
    load16 (sealHeaders memory th ipHlen tcpHlen) (ipAt + 2) = ipHlen + tcpHlen := by
  unfold sealHeaders
  rw [load16_store16_of_apart (by omega), load16_store16_of_apart (by omega),
    load16_store16_of_apart (by omega), load16_store16_of_apart (by omega), load16_store16,
    Nat.mod_eq_of_lt short]

theorem fold_ipChecksum_sealHeaders (noOptions : (memory ipAt).toNat % 16 = 5) :
    fold (wordSum (sealHeaders memory 34 20 tcpHlen) ipAt 10) = 65535 := by
  unfold sealHeaders
  rw [wordSum_store16_of_apart (.inr (by decide)), wordSum_store16_of_apart (.inr (by decide))]
  have positive : 0 < 0 + wordSum (store16 (store16 memory (ipAt + 2) (20 + tcpHlen)) (ipAt + 2 * 5)
      0) ipAt 10 := by
    have first := @load16_le_wordSum (store16 (store16 memory (ipAt + 2) (20 + tcpHlen))
      (ipAt + 2 * 5) 0) ipAt 10 0 (by decide)
    rw [load16_store16_of_apart (.inl (by decide)), load16_store16_of_apart (.inl (by decide)),
      load16] at first
    simp only [Nat.mul_zero, Nat.add_zero] at first noOptions ⊢
    omega
  have sealed := fold_sealed (by decide) positive
  simp only [Nat.zero_add] at sealed
  exact sealed

theorem fold_tcpChecksum_sealHeaders (atLeast : 20 ≤ tcpHlen) (atMost : tcpHlen ≤ 60) :
    fold (wordSum (sealHeaders memory 34 20 tcpHlen) 26 4 + 6 + tcpHlen +
      wordSum (sealHeaders memory 34 20 tcpHlen) 34 (tcpHlen / 2)) = 65535 := by
  unfold sealHeaders
  dsimp only
  rw [wordSum_store16_of_apart (.inr (by decide)), tcpChecksum, min_eq_right (by omega)]
  have sealed := @fold_sealed (store16 (store16 (store16 memory 16 (20 + tcpHlen)) 24 0) 24
    (65535 - fold (ipChecksum (store16 (store16 memory 16 (20 + tcpHlen)) 24 0) 20))) 34
    (tcpHlen / 2) 8 (wordSum (store16 (store16 (store16 (store16 memory 16 (20 + tcpHlen)) 24 0) 24
    (65535 - fold (ipChecksum (store16 (store16 memory 16 (20 + tcpHlen)) 24 0) 20))) 50 0) 26 4 +
      6 + tcpHlen) (by omega) (by omega)
  exact sealed

theorem answerHeaders_of_lt (before : i < th) :
    answerHeaders memory th i = swap (swap memory 0 6 6) (ipAt + 12) (ipAt + 16) 4 i := by
  unfold answerHeaders
  rw [Function.update_of_ne (by omega), store16_of_ne (by omega) (by omega), store32,
    store16_of_ne (by omega) (by omega), store16_of_ne (by omega) (by omega), store32,
    store16_of_ne (by omega) (by omega), store16_of_ne (by omega) (by omega), swap,
    if_neg (by omega), if_neg (by omega)]

theorem answerHeaders_of_kept (above : 12 ≤ i) (below : i < 26) :
    answerHeaders memory 34 i = memory i := by
  rw [answerHeaders_of_lt (by omega), swap, if_neg (by simp only [ipAt]; omega),
    if_neg (by simp only [ipAt]; omega), swap, if_neg (by omega), if_neg (by omega)]

theorem answerHeaders_ports :
    load16 (answerHeaders memory 34) 34 = load16 memory 36 ∧
      load16 (answerHeaders memory 34) 36 = load16 memory 34 := by
  constructor <;> simp [answerHeaders, load16, store32, store16, swap, ipAt]

theorem answerHeaders_addresses :
    load32 (answerHeaders memory 34) 26 = load32 memory 30 ∧
      load32 (answerHeaders memory 34) 30 = load32 memory 26 := by
  constructor <;> simp [load32, load16, answerHeaders_of_lt, swap, ipAt]

theorem answerHeaders_ack :
    load32 (answerHeaders memory 34) 42 = (load32 memory 38 + 1) % 2 ^ 32 := by
  have numbers : load32 (swap (swap (swap memory 0 6 6) (ipAt + 12) (ipAt + 16) 4) 34 (34 + 2) 2)
      38 = load32 memory 38 := by
    simp [load32, load16, swap, ipAt]
  have kept {seq : InternetChecksum.Memory} {value : ℕ} {flags : UInt8} :
      load32 (Function.update (store16 (store32 seq (34 + 8) value) (34 + 14) 0) (34 + 13) flags)
        42 = value % 2 ^ 32 := by
    rw [← @load32_store32 seq 42 value]
    simp [load32, load16, store16]
  unfold answerHeaders
  rw [kept, numbers, Nat.mod_mod]

theorem sealed_kept (notLength : i ≠ 16 ∧ i ≠ 17) (notIpCheck : i ≠ 24 ∧ i ≠ 25)
    (notTcpCheck : i ≠ 50 ∧ i ≠ 51) :
    sealHeaders (answerHeaders memory 34) 34 20 tcpHlen i = answerHeaders memory 34 i :=
  sealHeaders_of_ne notLength notIpCheck notTcpCheck

theorem load16_sealed (notLength : i + 1 < 16 ∨ 17 < i) (notIpCheck : i + 1 < 24 ∨ 25 < i)
    (notTcpCheck : i + 1 < 50 ∨ 51 < i) :
    load16 (sealHeaders (answerHeaders memory 34) 34 20 tcpHlen) i =
      load16 (answerHeaders memory 34) i := by
  rw [load16, load16, sealed_kept (by omega) (by omega) (by omega),
    sealed_kept (by omega) (by omega) (by omega)]

theorem load32_sealed (behind : 26 ≤ i) (before : i ≤ 46) :
    load32 (sealHeaders (answerHeaders memory 34) 34 20 tcpHlen) i =
      load32 (answerHeaders memory 34) i := by
  rw [load32, load32, load16_sealed (by omega) (by omega) (by omega),
    load16_sealed (by omega) (by omega) (by omega)]

theorem macs_answerHeaders {i : ℕ} (inside : i < 6) :
    answerHeaders memory 34 i = memory (6 + i) ∧ answerHeaders memory 34 (6 + i) = memory i := by
  have apart {other : InternetChecksum.Memory} {j : ℕ} (before : j < 12) :
      swap other (ipAt + 12) (ipAt + 16) 4 j = other j := by
    rw [swap, if_neg (by simp only [ipAt]; omega), if_neg (by simp only [ipAt]; omega)]
  rw [answerHeaders_of_lt (by omega), answerHeaders_of_lt (by omega), apart (by omega),
    apart (by omega), swap, swap, if_pos (by omega), if_neg (by omega), if_pos (by omega),
    Nat.add_sub_cancel_left, Nat.zero_add]
  exact ⟨rfl, rfl⟩

theorem sealed_header {i tcpHlen : ℕ} (inHeader : i = 14 ∨ i = 23) :
    sealHeaders (answerHeaders memory 34) 34 20 tcpHlen i = memory i := by
  rw [sealed_kept (by omega) (by omega) (by omega), answerHeaders_of_kept (by omega) (by omega)]

theorem validReply_sealed {received : Frame} {words size : ℕ} (noOptions : received.ihl = 5)
    (isTcp : received.protocol = 6) (atLeast : 5 ≤ words) (atMost : words ≤ 15)
    (inside : 34 + words * 4 ≤ size) :
    ValidReply received
      ⟨sealHeaders (answerHeaders received.byte 34) 34 20 (words * 4), size⟩ := by
  have sentIhl : Frame.ihl ⟨sealHeaders (answerHeaders received.byte 34) 34 20 (words * 4), size⟩ =
      5 := by
    have kept := @sealed_header received.byte 14 (words * 4) (.inl rfl)
    exact (congrArg (fun byte : UInt8 => byte.toNat % 16) kept).trans noOptions
  have sentLength : Frame.totLen
      ⟨sealHeaders (answerHeaders received.byte 34) 34 20 (words * 4), size⟩ = 20 + words * 4 :=
    totLen_sealHeaders (by decide) (by omega)
  have sentProtocol : Frame.protocol
      ⟨sealHeaders (answerHeaders received.byte 34) 34 20 (words * 4), size⟩ = 6 := by
    have kept := @sealed_header received.byte 23 (words * 4) (.inr rfl)
    exact (congrArg UInt8.toNat kept).trans isTcp
  have evenLength : segmentSum (sealHeaders (answerHeaders received.byte 34) 34 20 (words * 4))
      34 (words * 4) =
        wordSum (sealHeaders (answerHeaders received.byte 34) 34 20 (words * 4)) 34
          (words * 4 / 2) := by
    rw [segmentSum, if_neg (by omega), Nat.add_zero]
  refine ⟨?_, ?_, ?_, ?_, ?_, ?_, ?_, ?_, ?_⟩
  · simp only [ipAt]
    omega
  · rw [sentIhl]
    apply fold_ipChecksum_sealHeaders
    rw [answerHeaders_of_kept (by decide) (by decide)]
    exact noOptions
  · rw [sentIhl, sentLength, sentProtocol, Nat.add_sub_cancel_left]
    rw [show ipAt + 5 * 4 = 34 from rfl, evenLength]
    exact fold_tcpChecksum_sealHeaders (by omega) (by omega)
  · intro i before
    have macs := @macs_answerHeaders received.byte i before
    exact ⟨(sealed_kept (by omega) (by omega) (by omega)).trans macs.1,
      (sealed_kept (by omega) (by omega) (by omega)).trans macs.2⟩
  · exact (load32_sealed (by decide) (by decide)).trans answerHeaders_addresses.1
  · exact (load32_sealed (by decide) (by decide)).trans answerHeaders_addresses.2
  · rw [sentIhl, noOptions]
    exact (load16_sealed (by decide) (by decide) (by decide)).trans answerHeaders_ports.1
  · rw [sentIhl, noOptions]
    exact (load16_sealed (by decide) (by decide) (by decide)).trans answerHeaders_ports.2
  · rw [sentIhl, noOptions]
    exact (load32_sealed (by decide) (by decide)).trans answerHeaders_ack

end NoOptions

variable {env : XdpEnv} {received sent : Frame} {words : ℕ}

theorem clampTcpWindow_of_xdpWafFilter (transmitted : xdpWafFilter env received = .tx sent) :
    received.protocol = 6 ∧ clampTcpWindow received 34 = .tx sent := by
  unfold xdpWafFilter at transmitted
  cases chance : env.tarpitV4 received.source with
  | none =>
    rw [chance] at transmitted
    split_ifs at transmitted
  | some prob =>
    rw [chance] at transmitted
    dsimp only at transmitted
    split_ifs at transmitted with _ _ _ _ _ isTcp
    exact ⟨isTcp, transmitted⟩

theorem clampTcpWindow_eq_tx {th : ℕ} (transmitted : clampTcpWindow received th = .tx sent) :
    5 ≤ received.ihl ∧ 5 ≤ received.doff th ∧ received.doff th ≤ 15 ∧
      ∃ segment, (segment = th ∨ segment = ipAt + received.ihl * 4) ∧ segment + received.doff th * 4 ≤ sent.size ∧
        sent.byte = sealHeaders (answerHeaders received.byte th) segment (received.ihl * 4)
          (received.doff th * 4) := by
  unfold clampTcpWindow at transmitted
  dsimp only at transmitted
  by_cases short : received.ihl * 4 < ipHeader
  · rw [if_pos short] at transmitted
    cases transmitted
  by_cases bad : received.doff th * 4 < tcpHeader ∨ 60 < received.doff th * 4
  · rw [if_neg short, if_pos bad] at transmitted
    cases transmitted
  by_cases noHeader : received.size < ipAt + received.ihl * 4
  · rw [if_neg short, if_neg bad, if_pos noHeader] at transmitted
    cases transmitted
  by_cases noSegment : received.size < th + received.doff th * 4
  · rw [if_neg short, if_neg bad, if_neg noHeader, if_pos noSegment] at transmitted
    cases transmitted
  rw [if_neg short, if_neg bad, if_neg noHeader, if_neg noSegment] at transmitted
  rw [ipHeader] at short
  rw [tcpHeader] at bad
  refine ⟨by omega, by omega, by omega, ?_⟩
  split at transmitted
  · split at transmitted
    · cases transmitted
    · rename_i shrunk adjusted
      have sameBytes : shrunk.byte = answerHeaders received.byte th := by
        unfold adjustTail at adjusted
        split at adjusted
        · cases adjusted
        · cases adjusted
          rfl
      split_ifs at transmitted with _ _ outside
      cases transmitted
      exact ⟨ipAt + received.ihl * 4, .inr rfl, not_lt.mp outside, by rw [sameBytes]⟩
  · cases transmitted
    exact ⟨th, .inl rfl, not_lt.mp noSegment, rfl⟩

theorem validReply_of_noOptions (noOptions : received.ihl = 5)
    (transmitted : xdpWafFilter env received = .tx sent) :
    ValidReply received sent := by
  rcases clampTcpWindow_of_xdpWafFilter transmitted with ⟨isTcp, clamped⟩
  rcases clampTcpWindow_eq_tx clamped with ⟨_, atLeast, atMost, segment, place, inside, bytes⟩
  have same : segment = 34 := by
    rw [noOptions] at place
    exact place.elim id id
  rcases sent with ⟨byte, size⟩
  rw [same] at inside bytes
  rw [noOptions] at bytes
  rw [show byte = _ from bytes]
  exact validReply_sealed noOptions isTcp atLeast atMost inside

def tarpitEnv : XdpEnv where
  blacklistV4 := fun _ => none
  tarpitV4 := fun source => if source = [203, 0, 113, 7] then some 100 else none
  random := 0

def optionFrame (words : ℕ) : Frame where
  byte := fun i =>
    if i = 12 then 0x08
    else if i = 14 then UInt8.ofNat (0x40 + words)
    else if i = 17 then UInt8.ofNat (words * 4 + 20)
    else if i = 23 then 6
    else if i = 26 then 203
    else if i = 28 then 113
    else if i = 29 then 7
    else if i < 34 then 0
    else if i = 46 ∨ 14 + words * 4 ≤ i then 0x50
    else 0x01
  size := 14 + words * 4 + 20

def SendsBadHeader : XdpAction → Bool
  | .tx sent => fold (wordSum sent.byte ipAt (sent.ihl * 2)) ≠ 65535
  | _ => false

theorem exists_invalid_of_sendsBadHeader {action : XdpAction} (bad : SendsBadHeader action = true)
    (received : Frame) : ∃ sent, action = .tx sent ∧ ¬ ValidReply received sent := by
  cases action with
  | drop => cases bad
  | goOn => cases bad
  | tx sent => exact ⟨sent, rfl, fun valid => of_decide_eq_true bad valid.ipCheck⟩

theorem sendsBadHeader_optionFrame (options : 5 < words) (nibble : words < 16) :
    SendsBadHeader (xdpWafFilter tarpitEnv (optionFrame words)) = true := by
  interval_cases words <;> decide +kernel

theorem ihl_optionFrame (nibble : words < 16) : (optionFrame words).ihl = words := by
  interval_cases words <;> rfl

/-- The filter sends valid replies to all frames with headers of a length exactly if these have no
options. -/
theorem validReply_iff_noOptions {words : ℕ} (nibble : words < 16) :
    (∀ env received sent, received.ihl = words → xdpWafFilter env received = .tx sent →
      ValidReply received sent) ↔ words ≤ 5 := by
  constructor
  · intro valid
    by_contra options
    rcases exists_invalid_of_sendsBadHeader
      (sendsBadHeader_optionFrame (not_le.mp options) nibble) (optionFrame words) with
      ⟨sent, transmitted, invalid⟩
    exact invalid (valid tarpitEnv (optionFrame words) sent (ihl_optionFrame nibble) transmitted)
  · intro noOptions env received sent length transmitted
    have atLeast := (clampTcpWindow_eq_tx (clampTcpWindow_of_xdpWafFilter transmitted).2).1
    exact validReply_of_noOptions (by omega) transmitted

theorem validReply_of_five_words :
    5 < 16 ∧ ∀ env received sent, received.ihl = 5 → xdpWafFilter env received = .tx sent →
      ValidReply received sent :=
  ⟨by decide, (validReply_iff_noOptions (by decide)).mpr le_rfl⟩

/-- A frame with four octets of options gets an invalid reply. -/
theorem invalidReply_optionFrame :
    ∃ sent, xdpWafFilter tarpitEnv (optionFrame 6) = .tx sent ∧
      ¬ ValidReply (optionFrame 6) sent :=
  exists_invalid_of_sendsBadHeader (sendsBadHeader_optionFrame (by decide) (by decide)) _

end LogGuardian
