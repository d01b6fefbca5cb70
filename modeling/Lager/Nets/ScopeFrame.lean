import Lager.Library.Checked
import Lager.Nets.ScopeTrace

set_option relaxedAutoImplicit false
set_option autoImplicit false

/-!
# Which byte strings are frames

The decoder of LSCP/1 frames takes lengths and counts from the frame itself. Here it is once more as
the compiled code, whose indexed reads and whose arithmetic can panic, and it is proved that none
of them does: every read is behind a check of the length. What the decoder accepts is exactly
the format.

## Main definitions

* `Lager.ScopeCapture.decodeChecked` — the decoder with checked reads and arithmetic.
* `Lager.Decodes` — what the decoder has checked when it returns a capture.
* `Lager.IsFrame` — the byte strings that are frames.

## Main results

* `Lager.decodeChecked_evaluates` — the decoder does not panic.
* `Lager.decode_accepts_iff` — it accepts frames and nothing else.

## Implementation notes

The width of `usize` is a parameter.
-/

namespace Lager

open Library

/-! ## The decoder, with its panics -/

/-- `bytes4`. -/
def bytes4 (w : ℕ) (buf : List UInt8) (offset : ℕ) : Checked (List UInt8) := do
  let b₀ ← Checked.index buf offset
  let b₁ ← Checked.index buf (← Checked.add w offset 1)
  let b₂ ← Checked.index buf (← Checked.add w offset 2)
  let b₃ ← Checked.index buf (← Checked.add w offset 3)
  return [b₀, b₁, b₂, b₃]

/-- `bytes8`. -/
def bytes8 (w : ℕ) (buf : List UInt8) (offset : ℕ) : Checked (List UInt8) := do
  let slice ← Checked.slice buf offset (← Checked.add w offset 8)
  Checked.copy 8 slice

/-- `u16_at`. -/
def u16AtChecked (w : ℕ) (buf : List UInt8) (offset : ℕ) : Checked UInt16 := do
  let b₀ ← Checked.index buf offset
  let b₁ ← Checked.index buf (← Checked.add w offset 1)
  return UInt16.ofNat (LittleEndian.value [b₀, b₁])

/-- `u32_at`; with a float, `f32::from_le_bytes(bytes4(buf, offset))`. -/
def u32AtChecked (w : ℕ) (buf : List UInt8) (offset : ℕ) : Checked UInt32 := do
  let bytes ← bytes4 w buf offset
  return UInt32.ofNat (LittleEndian.value bytes)

/-- `u64::from_le_bytes(bytes8(buf, offset))`, or the same with a float. -/
def u64AtChecked (w : ℕ) (buf : List UInt8) (offset : ℕ) : Checked UInt64 := do
  let bytes ← bytes8 w buf offset
  return UInt64.ofNat (LittleEndian.value bytes)

/-- `chunks_exact`: the chunks of `n` elements; a shorter one at the end is left out. -/
def chunksExact (n : ℕ) (hn : 0 < n) (buf : List UInt8) : List (List UInt8) :=
  if buf.length < n then [] else buf.take n :: chunksExact n hn (buf.drop n)
termination_by buf.length
decreasing_by
  rw [List.length_drop]
  omega

/-- The count in a pair of bytes. -/
def countOf (pair : List UInt8) : Checked Int16 := do
  let low ← Checked.index pair 0
  let high ← Checked.index pair 1
  return (UInt16.ofNat (LittleEndian.value [low, high])).toInt16

/-- The counts in a payload. -/
def samplesChecked (payload : List UInt8) : Checked (List Int16) :=
  (chunksExact 2 (by decide) payload).mapM countOf

/-- The descriptor of a channel. The label is a sum of 8 bits. -/
def decodeChannelChecked (w : ℕ) (buf : List UInt8) (i : ℕ) :
    Fallible Error TraceChannel := do
  let offset ← Checked.add w headerSize (← Checked.mul w i channelDescSize)
  let code ← Checked.index buf offset
  if 25 < code then .throw (.decode (.noSuchChannel code.toNat))
  else
    let label ← Checked.add 8 65 code.toNat
    let rangeCode ← Checked.index buf (← Checked.add w offset 1)
    let coupling ← Checked.index buf (← Checked.add w offset 2)
    let scaleVPerCount ← u32AtChecked w buf (← Checked.add w offset 4)
    let offsetV ← u32AtChecked w buf (← Checked.add w offset 8)
    return ⟨Char.ofNat label, rangeCode, .ofByte coupling, scaleVPerCount, offsetV⟩

/-- `ScopeCapture::decode`, on a machine whose `usize` has `w` bits. -/
def ScopeCapture.decodeChecked (w : ℕ) (buf : List UInt8) :
    Fallible Error ScopeCapture := do
  if buf.length < headerSize then .throw (.decode (.frameTooShort headerSize buf.length))
  else
    let found ← u32AtChecked w buf 0
    if found ≠ magic then .throw (.decode (.badMagic found.toNat))
    else
      let foundVersion ← u16AtChecked w buf 4
      if foundVersion ≠ version then .throw (.decode (.unsupportedVersion foundVersion.toNat))
      else
        let count ← Checked.index buf 44
        let descriptorsEnd ← Checked.add w headerSize (← Checked.mul w count.toNat channelDescSize)
        if buf.length < descriptorsEnd then
          .throw (.decode (.frameTooShort descriptorsEnd buf.length))
        else
          let channels ← (List.range count.toNat).mapM (decodeChannelChecked w buf)
          let samplesPerChannel ← u32AtChecked w buf 40
          let expected ← Checked.mul w (← Checked.mul w samplesPerChannel.toNat count.toNat) 2
          let payload ← Checked.sliceFrom buf descriptorsEnd
          if payload.length ≠ expected then
            .throw (.decode (.payloadMismatch expected payload.length))
          else
            let samples ← samplesChecked payload
            let seq ← u64AtChecked w buf 8
            let captureMonoNs ← u64AtChecked w buf 16
            let sampleIntervalNs ← u64AtChecked w buf 24
            let preTriggerSamples ← u32AtChecked w buf 32
            let postTriggerSamples ← u32AtChecked w buf 36
            let resolutionBits ← Checked.index buf 45
            let overflowMask ← u16AtChecked w buf 46
            let flags ← u16AtChecked w buf 6
            let screenSamples ← u32AtChecked w buf 48
            return {
              seq, captureMonoNs, sampleIntervalNs, preTriggerSamples, postTriggerSamples,
              samplesPerChannel, resolutionBits, overflowMask, flags, screenSamples, channels,
              samples }

/-! ## No panics -/

section

variable {w : ℕ} (hw : 64 ≤ w) {buf : List UInt8} {offset : ℕ}

include hw

/-- A small number fits a `usize`. -/
theorem fits_usize {n : ℕ} (h : n < 2 ^ 64) : n < 2 ^ w :=
  h.trans_le (Nat.pow_le_pow_right (by decide) hw)

omit hw in
/-- A byte within the buffer. -/
theorem index_eq_byteAt (h : offset < buf.length) :
    Checked.index buf offset = .ok (byteAt buf offset) := by
  rw [Checked.index_eq h, byteAt, List.getD_eq_getElem _ _ h]

omit hw in
/-- A slice within the buffer, byte by byte. -/
theorem slice_eq_map (n : ℕ) (h : offset + n ≤ buf.length) :
    LittleEndian.slice n buf offset = (List.range n).map fun k => byteAt buf (offset + k) := by
  refine List.ext_getElem (by simp [LittleEndian.slice]; omega) fun k hk hk' => ?_
  have hlt : k < n := by simpa using hk'
  simp [LittleEndian.slice, byteAt, List.getD_eq_getElem?_getD,
    List.getElem?_eq_getElem (show offset + k < buf.length by omega)]

/-- Reading two bytes. -/
theorem u16AtChecked_eq (h : offset + 2 ≤ buf.length) (hfit : offset + 2 < 2 ^ 64) :
    u16AtChecked w buf offset = .ok (u16At buf offset) := by
  rw [u16AtChecked, index_eq_byteAt (by omega), Checked.add_eq (fits_usize hw (by omega)), u16At,
    slice_eq_map 2 h]
  simp only [bind, Except.bind, index_eq_byteAt (show offset + 1 < buf.length by omega)]
  rfl

/-- Reading four bytes. -/
theorem u32AtChecked_eq (h : offset + 4 ≤ buf.length) (hfit : offset + 4 < 2 ^ 64) :
    u32AtChecked w buf offset = .ok (u32At buf offset) := by
  rw [u32AtChecked, bytes4, index_eq_byteAt (by omega), Checked.add_eq (fits_usize hw (by omega)),
    Checked.add_eq (fits_usize hw (by omega)), Checked.add_eq (fits_usize hw (by omega)), u32At,
    slice_eq_map 4 h]
  simp only [bind, Except.bind, index_eq_byteAt (show offset + 1 < buf.length by omega),
    index_eq_byteAt (show offset + 2 < buf.length by omega),
    index_eq_byteAt (show offset + 3 < buf.length by omega)]
  rfl

/-- Reading eight bytes. -/
theorem u64AtChecked_eq (h : offset + 8 ≤ buf.length) (hfit : offset + 8 < 2 ^ 64) :
    u64AtChecked w buf offset = .ok (u64At buf offset) := by
  have hlength : ((buf.drop offset).take 8).length = 8 := by
    rw [List.length_take, List.length_drop]
    omega
  rw [u64AtChecked, bytes8, Checked.add_eq (fits_usize hw hfit)]
  simp only [bind, Except.bind, Checked.slice_eq (Nat.le_add_right offset 8) h,
    Nat.add_sub_cancel_left, Checked.copy_eq hlength]
  rfl

/-- The descriptor of a channel of the table is read without a panic. -/
theorem decodeChannelChecked_evaluates {i : ℕ} (hi : i < 255)
    (h : headerSize + (i + 1) * channelDescSize ≤ buf.length) :
    Evaluates (decodeChannelChecked w buf i) (decodeChannel buf i) := by
  have hmul : i * channelDescSize < 2 ^ 64 := by
    simp only [channelDescSize]
    omega
  have hadd : headerSize + i * channelDescSize < 2 ^ 64 := by
    simp only [headerSize, channelDescSize]
    omega
  have hend : headerSize + i * channelDescSize + 16 ≤ buf.length := by
    simp only [headerSize, channelDescSize] at h ⊢
    omega
  have hsmall : headerSize + i * channelDescSize + 16 < 2 ^ 64 := by
    simp only [headerSize, channelDescSize]
    omega
  refine .lift (Checked.mul_eq (fits_usize hw hmul)) ?_
  refine .lift (Checked.add_eq (fits_usize hw hadd)) ?_
  rw [decodeChannel]
  generalize headerSize + i * channelDescSize = offset at hend hsmall
  refine .lift (index_eq_byteAt (by omega)) ?_
  by_cases hcode : 25 < byteAt buf offset
  · rw [if_pos hcode, if_pos hcode]
    exact .throw _
  · rw [if_neg hcode, if_neg hcode]
    have hle : (byteAt buf offset).toNat ≤ 25 := by
      rwa [UInt8.lt_iff_toNat_lt, not_lt] at hcode
    refine .lift (Checked.add_eq (by omega)) ?_
    refine .lift (Checked.add_eq (fits_usize hw (by omega))) ?_
    refine .lift (index_eq_byteAt (by omega)) ?_
    refine .lift (Checked.add_eq (fits_usize hw (by omega))) ?_
    refine .lift (index_eq_byteAt (by omega)) ?_
    refine .lift (Checked.add_eq (fits_usize hw (by omega))) ?_
    refine .lift (u32AtChecked_eq hw (by omega) (by omega)) ?_
    refine .lift (Checked.add_eq (fits_usize hw (by omega))) ?_
    refine .lift (u32AtChecked_eq hw (by omega) (by omega)) ?_
    exact .pure _

omit hw in
/-- The counts of a payload are read without a panic. -/
theorem samplesChecked_eq (payload : List UInt8) :
    samplesChecked payload = .ok (samplesOf payload) := by
  fun_induction samplesOf payload with
  | case1 low high rest ih =>
    rw [samplesChecked, chunksExact, if_neg (by simp), List.mapM_cons]
    show (do
      let count ← countOf [low, high]
      let counts ← samplesChecked rest
      pure (count :: counts)) = _
    rw [ih]
    rfl
  | case2 payload h =>
    have hshort : payload.length < 2 := by
      rcases payload with _ | ⟨low, _ | ⟨high, rest⟩⟩
      · simp
      · simp
      · exact absurd rfl (h low high rest)
    rw [samplesChecked, chunksExact, if_pos hshort]
    rfl

/-- **The decoder does not panic.** On a machine whose `usize` has 64 bits or more, no read of
`ScopeCapture::decode` is out of range and none of its arithmetic overflows, whatever the bytes; it
comes to what `Lager.ScopeCapture.decode` says. -/
theorem decodeChecked_evaluates (buf : List UInt8) :
    Evaluates (ScopeCapture.decodeChecked w buf) (ScopeCapture.decode buf) := by
  unfold ScopeCapture.decodeChecked ScopeCapture.decode
  by_cases hlength : buf.length < headerSize
  · rw [if_pos hlength, if_pos hlength]
    exact .throw _
  rw [if_neg hlength, if_neg hlength]
  have hheader : 64 ≤ buf.length := not_lt.mp hlength
  refine .lift (u32AtChecked_eq hw (by omega) (by omega)) ?_
  by_cases hmagic : u32At buf 0 ≠ magic
  · rw [if_pos hmagic, if_pos hmagic]
    exact .throw _
  rw [if_neg hmagic, if_neg hmagic]
  refine .lift (u16AtChecked_eq hw (by omega) (by omega)) ?_
  by_cases hversion : u16At buf 4 ≠ version
  · rw [if_pos hversion, if_pos hversion]
    exact .throw _
  rw [if_neg hversion, if_neg hversion]
  refine .lift (index_eq_byteAt (by omega)) ?_
  have hcount : (byteAt buf 44).toNat < 256 := (byteAt buf 44).toNat_lt
  have hspc : (u32At buf 40).toNat < 2 ^ 32 := (u32At buf 40).toNat_lt
  dsimp only
  generalize (byteAt buf 44).toNat = count at hcount
  refine .lift (Checked.mul_eq (fits_usize hw (by simp only [channelDescSize]; omega))) ?_
  refine .lift (Checked.add_eq (fits_usize hw (by
    simp only [headerSize, channelDescSize]; omega))) ?_
  by_cases htable : buf.length < headerSize + count * channelDescSize
  · rw [if_pos htable, if_pos htable]
    exact .throw _
  rw [if_neg htable, if_neg htable]
  have hchannels : ∀ i ∈ List.range count,
      Evaluates (decodeChannelChecked w buf i) (decodeChannel buf i) := by
    intro i hi
    have hlt : i < count := List.mem_range.mp hi
    have hmono : (i + 1) * channelDescSize ≤ count * channelDescSize :=
      Nat.mul_le_mul_right _ hlt
    exact decodeChannelChecked_evaluates hw (by omega) (by omega)
  have hmapM := Evaluates.mapM hchannels
  rcases htableOf : (List.range count).mapM (decodeChannel buf) with e | channels
  · rw [htableOf] at hmapM
    exact .bind_error hmapM
  rw [htableOf] at hmapM
  refine .bind hmapM ?_
  refine .lift (u32AtChecked_eq hw (by omega) (by omega)) ?_
  have hproduct : (u32At buf 40).toNat * count < 2 ^ 40 := by
    calc (u32At buf 40).toNat * count
        ≤ (u32At buf 40).toNat * 256 := Nat.mul_le_mul_left _ hcount.le
      _ < 2 ^ 40 := by omega
  refine .lift (Checked.mul_eq (fits_usize hw (by omega))) ?_
  refine .lift (Checked.mul_eq (fits_usize hw (by omega))) ?_
  refine .lift (Checked.sliceFrom_eq (not_lt.mp htable)) ?_
  simp only [bind, Except.bind]
  by_cases hpayload : (buf.drop (headerSize + count * channelDescSize)).length ≠
      (u32At buf 40).toNat * count * 2
  · rw [if_pos hpayload, if_pos hpayload]
    exact .throw _
  rw [if_neg hpayload, if_neg hpayload]
  refine .lift (samplesChecked_eq _) ?_
  refine .lift (u64AtChecked_eq hw (by omega) (by omega)) ?_
  refine .lift (u64AtChecked_eq hw (by omega) (by omega)) ?_
  refine .lift (u64AtChecked_eq hw (by omega) (by omega)) ?_
  refine .lift (u32AtChecked_eq hw (by omega) (by omega)) ?_
  refine .lift (u32AtChecked_eq hw (by omega) (by omega)) ?_
  refine .lift (index_eq_byteAt (by omega)) ?_
  refine .lift (u16AtChecked_eq hw (by omega) (by omega)) ?_
  refine .lift (u16AtChecked_eq hw (by omega) (by omega)) ?_
  refine .lift (u32AtChecked_eq hw (by omega) (by omega)) ?_
  exact .pure _

end

/-! ## The format -/

/-- The number of channels that a frame says it has. -/
def channelCount (buf : List UInt8) : ℕ := (byteAt buf 44).toNat

/-- The number of samples that a frame says each of its channels has. -/
def sampleCount (buf : List UInt8) : ℕ := LittleEndian.value (LittleEndian.slice 4 buf 40)

/-- The frames of LSCP/1: a header with the magic and the version, a descriptor for each channel
with a code for one of the labels, and two bytes for each sample of each channel. -/
structure IsFrame (buf : List UInt8) : Prop where
  header : 64 ≤ buf.length
  magic : LittleEndian.slice 4 buf 0 = [0x4C, 0x53, 0x43, 0x50]
  version : LittleEndian.slice 2 buf 4 = [1, 0]
  channels : ∀ i < channelCount buf,
    64 + 16 * (i + 1) ≤ buf.length ∧ (byteAt buf (64 + 16 * i)).toNat ≤ 25
  length : buf.length = 64 + 16 * channelCount buf + 2 * channelCount buf * sampleCount buf

/-- What the decoder finds in a byte string that it accepts. -/
structure Decodes (buf : List UInt8) (c : ScopeCapture) : Prop where
  header : headerSize ≤ buf.length
  magic : u32At buf 0 = Lager.magic
  version : u16At buf 4 = Lager.version
  table : headerSize + channelCount buf * channelDescSize ≤ buf.length
  channels : (List.range (channelCount buf)).mapM (decodeChannel buf) = .ok c.channels
  payload : (buf.drop (headerSize + channelCount buf * channelDescSize)).length =
    (u32At buf 40).toNat * channelCount buf * 2
  seq : c.seq = u64At buf 8
  samplesPerChannel : c.samplesPerChannel = u32At buf 40
  samples : c.samples = samplesOf (buf.drop (headerSize + channelCount buf * channelDescSize))

/-- A frame of no channels. -/
abbrev headerOnly : List UInt8 := [0x4C, 0x53, 0x43, 0x50, 1, 0] ++ List.replicate 58 0

section

variable {buf : List UInt8} {c : ScopeCapture}

/-- What the decoder has checked when it returns a capture. -/
theorem decode_inv (h : ScopeCapture.decode buf = .ok c) : Decodes buf c := by
  unfold ScopeCapture.decode at h
  split at h
  · cases h
  next hheader =>
  split at h
  · cases h
  next hmagic =>
  split at h
  · cases h
  next hversion =>
  dsimp only at h
  split at h
  · cases h
  next htable =>
  obtain ⟨channels, hchannels, h⟩ := bind_eq_ok.mp h
  split at h
  · cases h
  next hpayload =>
  cases h
  exact ⟨not_lt.mp hheader, not_not.mp hmagic, not_not.mp hversion, not_lt.mp htable, hchannels,
    not_not.mp hpayload, rfl, rfl, rfl⟩

/-- Where the decoder has checked everything, it returns a capture. -/
theorem decode_of_checks {channels : List TraceChannel} (hheader : headerSize ≤ buf.length)
    (hmagic : u32At buf 0 = magic) (hversion : u16At buf 4 = version)
    (htable : headerSize + channelCount buf * channelDescSize ≤ buf.length)
    (hchannels : (List.range (channelCount buf)).mapM (decodeChannel buf) = .ok channels)
    (hpayload : (buf.drop (headerSize + channelCount buf * channelDescSize)).length =
      (u32At buf 40).toNat * channelCount buf * 2) : ∃ c, ScopeCapture.decode buf = .ok c := by
  unfold channelCount at htable hchannels hpayload
  unfold ScopeCapture.decode
  rw [if_neg (not_lt.mpr hheader), if_neg (not_not.mpr hmagic), if_neg (not_not.mpr hversion)]
  dsimp only
  rw [if_neg (not_lt.mpr htable), hchannels]
  simp only [bind, Except.bind]
  rw [if_neg (not_not.mpr hpayload)]
  exact ⟨_, rfl⟩

/-- Every error of the decoder is one of decoding. -/
theorem decode_error {e : Error} (h : ScopeCapture.decode buf = .error e) :
    ∃ message, e = .decode message := by
  unfold ScopeCapture.decode at h
  split at h
  · cases h
    exact ⟨_, rfl⟩
  split at h
  · cases h
    exact ⟨_, rfl⟩
  split at h
  · cases h
    exact ⟨_, rfl⟩
  dsimp only at h
  split at h
  · cases h
    exact ⟨_, rfl⟩
  cases hchannels : (List.range (byteAt buf 44).toNat).mapM (decodeChannel buf) with
  | error e' =>
    obtain ⟨i, -, hfail⟩ := mapM_eq_error hchannels
    simp only [hchannels, bind, Except.bind, Except.error.injEq] at h
    rw [decodeChannel] at hfail
    split at hfail
    · cases hfail
      exact ⟨_, h.symm⟩
    · cases hfail
  | ok channels =>
    simp only [hchannels, bind, Except.bind] at h
    split at h
    · cases h
      exact ⟨_, rfl⟩
    · cases h

/-- The length of a slice within the buffer. -/
theorem length_slice {n offset : ℕ} (h : offset + n ≤ buf.length) :
    (LittleEndian.slice n buf offset).length = n := by
  rw [LittleEndian.slice, List.length_take, List.length_drop]
  omega

/-- The number in two bytes. -/
theorem toNat_u16At {offset : ℕ} (h : offset + 2 ≤ buf.length) :
    (u16At buf offset).toNat = LittleEndian.value (LittleEndian.slice 2 buf offset) := by
  have hlt := LittleEndian.value_lt (LittleEndian.slice 2 buf offset)
  rw [length_slice h] at hlt
  exact UInt16.toNat_ofNat_of_lt' hlt

/-- The number in four bytes. -/
theorem toNat_u32At {offset : ℕ} (h : offset + 4 ≤ buf.length) :
    (u32At buf offset).toNat = LittleEndian.value (LittleEndian.slice 4 buf offset) := by
  have hlt := LittleEndian.value_lt (LittleEndian.slice 4 buf offset)
  rw [length_slice h] at hlt
  exact UInt32.toNat_ofNat_of_lt' hlt

/-- The magic is that of the format. -/
theorem u32At_eq_magic (h : 64 ≤ buf.length) :
    u32At buf 0 = magic ↔ LittleEndian.slice 4 buf 0 = [0x4C, 0x53, 0x43, 0x50] := by
  have hbound : 0 + 4 ≤ buf.length := by omega
  have hlength : (LittleEndian.slice 4 buf 0).length = 4 := length_slice hbound
  rw [← LittleEndian.value_inj hlength, ← toNat_u32At hbound, ← UInt32.toNat_inj]
  rfl

/-- The version is that of the format. -/
theorem u16At_eq_version (h : 64 ≤ buf.length) :
    u16At buf 4 = version ↔ LittleEndian.slice 2 buf 4 = [1, 0] := by
  have hbound : 4 + 2 ≤ buf.length := by omega
  have hlength : (LittleEndian.slice 2 buf 4).length = 2 := length_slice hbound
  rw [← LittleEndian.value_inj hlength, ← toNat_u16At hbound, ← UInt16.toNat_inj]
  rfl

/-- A descriptor is read where its code is that of a label. -/
theorem decodeChannel_eq_ok {i : ℕ} :
    (∃ channel, decodeChannel buf i = .ok channel) ↔ (byteAt buf (64 + 16 * i)).toNat ≤ 25 := by
  have hoffset : headerSize + i * channelDescSize = 64 + 16 * i := by
    simp only [headerSize, channelDescSize]
    omega
  rw [decodeChannel, hoffset]
  split
  next h =>
    rw [UInt8.lt_iff_toNat_lt] at h
    simpa using h
  next h =>
    rw [UInt8.lt_iff_toNat_lt, not_lt] at h
    simpa using h

/-- The table is read where each of its codes is that of a label. -/
theorem decodeChannels_eq_ok {n : ℕ} :
    (∃ channels, (List.range n).mapM (decodeChannel buf) = .ok channels) ↔
      ∀ i < n, (byteAt buf (64 + 16 * i)).toNat ≤ 25 := by
  refine ⟨?_, fun h => ?_⟩
  · rintro ⟨channels, h⟩ i hi
    obtain ⟨hlength, hread⟩ := List.forall₂_iff_get.mp (mapM_eq_ok.mp h)
    have hi' : i < (List.range n).length := by rwa [List.length_range]
    have hchannel := hread i hi' (hlength ▸ hi')
    rw [List.get_eq_getElem, List.getElem_range] at hchannel
    exact decodeChannel_eq_ok.mp ⟨_, hchannel⟩
  · rcases hread : (List.range n).mapM (decodeChannel buf) with e | channels
    · obtain ⟨i, hi, hfail⟩ := mapM_eq_error hread
      obtain ⟨channel, hchannel⟩ := decodeChannel_eq_ok.mpr (h i (List.mem_range.mp hi))
      rw [hchannel] at hfail
      cases hfail
    · exact ⟨channels, rfl⟩

/-- What the decoder accepts is a frame. -/
theorem Decodes.isFrame (h : Decodes buf c) : IsFrame buf := by
  have hheader : 64 ≤ buf.length := h.header
  have htable : 64 + channelCount buf * 16 ≤ buf.length := h.table
  have hpayload := h.payload
  rw [toNat_u32At (by omega), ← sampleCount, List.length_drop] at hpayload
  have hcodes := decodeChannels_eq_ok.mp ⟨_, h.channels⟩
  refine ⟨hheader, (u32At_eq_magic hheader).mp h.magic, (u16At_eq_version hheader).mp h.version,
    fun i hi => ⟨by omega, hcodes i hi⟩, ?_⟩
  have hproduct : sampleCount buf * channelCount buf * 2 =
      2 * channelCount buf * sampleCount buf := by
    ring
  simp only [headerSize, channelDescSize] at hpayload
  omega

/-- A frame is accepted. -/
theorem IsFrame.decode (h : IsFrame buf) : ∃ c, ScopeCapture.decode buf = .ok c := by
  obtain ⟨channels, hchannels⟩ := decodeChannels_eq_ok.mpr fun i hi => (h.channels i hi).2
  have hlength := h.length
  have hproduct : sampleCount buf * channelCount buf * 2 =
      2 * channelCount buf * sampleCount buf := by
    ring
  refine decode_of_checks h.header ((u32At_eq_magic h.header).mpr h.magic)
    ((u16At_eq_version h.header).mpr h.version) ?_ hchannels ?_
  · simp only [headerSize, channelDescSize]
    omega
  · have hheader := h.header
    rw [toNat_u32At (by omega), ← sampleCount, List.length_drop]
    simp only [headerSize, channelDescSize]
    omega

end

/-- **The decoder accepts the format and never panics.** On a machine whose `usize` has 64 bits or
more, `ScopeCapture::decode` returns a capture for a frame, and an error of decoding for every other
byte string; it never reads out of range and its arithmetic never overflows.

**Proof sketch.** Without a panic, the decoder comes to what it does when every read is in range.
Its checks are those of the format, and each of its errors is one of decoding. -/
theorem decode_accepts_iff {w : ℕ} (hw : 64 ≤ w) (buf : List UInt8) :
    (∀ panic, (ScopeCapture.decodeChecked w buf).run ≠ .error panic) ∧
      ((∃ c, Evaluates (ScopeCapture.decodeChecked w buf) (.ok c)) ↔ IsFrame buf) ∧
      (¬ IsFrame buf →
        ∃ message, Evaluates (ScopeCapture.decodeChecked w buf) (.error (.decode message))) := by
  have hrun := decodeChecked_evaluates hw buf
  refine ⟨fun panic h => ?_, ⟨?_, fun h => ?_⟩, fun h => ?_⟩
  · rw [Evaluates, h] at hrun
    cases hrun
  · rintro ⟨c, hc⟩
    have hok : ScopeCapture.decode buf = .ok c := Except.ok.inj (hrun.symm.trans hc)
    exact (decode_inv hok).isFrame
  · obtain ⟨c, hc⟩ := h.decode
    exact ⟨c, hc ▸ hrun⟩
  · rcases hdecode : ScopeCapture.decode buf with e | c
    · obtain ⟨message, rfl⟩ := decode_error hdecode
      exact ⟨message, hdecode ▸ hrun⟩
    · exact absurd (decode_inv hdecode).isFrame h

/-- A frame of no channels is accepted; without its last byte it is not. -/
theorem decode_accepts_iff_header :
    (∃ c, Evaluates (ScopeCapture.decodeChecked 64 headerOnly) (.ok c)) ∧
      ∃ message, Evaluates (ScopeCapture.decodeChecked 64 headerOnly.dropLast)
        (.error (.decode message)) :=
  ⟨(decode_accepts_iff le_rfl headerOnly).2.1.mpr
      ⟨by decide, by decide, by decide, by decide, by decide⟩,
    (decode_accepts_iff le_rfl headerOnly.dropLast).2.2 fun h => absurd h.header (by decide)⟩

end Lager
