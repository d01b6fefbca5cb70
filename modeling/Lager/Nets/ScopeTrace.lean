import Lager.Error
import Lager.Library.Checked
import Lager.Library.LittleEndian
import Mathlib.Data.List.GetD

set_option relaxedAutoImplicit false
set_option autoImplicit false

/-!
# Scope captures

One capture of the oscilloscope is one LSCP/1 frame: a header of 64 bytes, a descriptor of 16 bytes
for each channel, then the raw counts, one channel after the other.

## Main definitions

* `Lager.ScopeCapture`, `Lager.ScopeCapture.decode` — a capture, and the decoder of frames.
* `Lager.ScopeCapture.encode` — the layout of LSCP/1.

## Main results

* `Lager.ScopeCapture.decode_encode` — a frame with the layout of a capture decodes to it.

## Implementation notes

A float is kept as its bits.
-/

namespace Lager

open Library

/-! ## Captures -/

/-- `MAGIC`. -/
def magic : UInt32 := 0x5043534C

/-- `VERSION`. -/
def version : UInt16 := 1

/-- `HEADER_SIZE`. -/
def headerSize : ℕ := 64

/-- `CHANNEL_DESC_SIZE`. -/
def channelDescSize : ℕ := 16

/-- `TraceCoupling`. -/
inductive TraceCoupling
  | dc
  | ac
  | gnd
  deriving DecidableEq, Repr

/-- `TraceChannel`. -/
structure TraceChannel where
  label : Char
  rangeCode : UInt8
  coupling : TraceCoupling
  scaleVPerCount : UInt32
  offsetV : UInt32
  deriving DecidableEq, Repr

/-- `ScopeCapture`. -/
structure ScopeCapture where
  seq : UInt64
  captureMonoNs : UInt64
  sampleIntervalNs : UInt64
  preTriggerSamples : UInt32
  postTriggerSamples : UInt32
  samplesPerChannel : UInt32
  resolutionBits : UInt8
  overflowMask : UInt16
  flags : UInt16
  screenSamples : UInt32
  channels : List TraceChannel
  samples : List Int16
  deriving DecidableEq

/-! ## Reading numbers -/

/-- The byte at an offset. The reader has checked that there is one. -/
def byteAt (buf : List UInt8) (offset : ℕ) : UInt8 := buf.getD offset 0

/-- `u16_at`. -/
def u16At (buf : List UInt8) (offset : ℕ) : UInt16 :=
  UInt16.ofNat (LittleEndian.value (LittleEndian.slice 2 buf offset))

/-- `u32_at`; with a float, `f32::from_le_bytes(bytes4(buf, offset))`. -/
def u32At (buf : List UInt8) (offset : ℕ) : UInt32 :=
  UInt32.ofNat (LittleEndian.value (LittleEndian.slice 4 buf offset))

/-- `u64::from_le_bytes(bytes8(buf, offset))`, or the same with a float. -/
def u64At (buf : List UInt8) (offset : ℕ) : UInt64 :=
  UInt64.ofNat (LittleEndian.value (LittleEndian.slice 8 buf offset))

/-- The counts in a payload: its pairs of bytes as signed numbers. -/
def samplesOf : List UInt8 → List Int16
  | low :: high :: rest => (u16At [low, high] 0).toInt16 :: samplesOf rest
  | _ => []

/-! ## The decoder -/

namespace TraceCoupling

/-- The coupling a byte stands for. -/
def ofByte (b : UInt8) : TraceCoupling :=
  if b = 1 then .ac else if b = 2 then .gnd else .dc

/-- The byte for a coupling. -/
def toByte : TraceCoupling → UInt8
  | dc => 0
  | ac => 1
  | gnd => 2

@[simp] theorem ofByte_toByte (coupling : TraceCoupling) : ofByte coupling.toByte = coupling := by
  cases coupling <;> rfl

end TraceCoupling

/-- The descriptor of a channel. -/
def decodeChannel (buf : List UInt8) (i : ℕ) : Except Error TraceChannel :=
  let offset := headerSize + i * channelDescSize
  let code := byteAt buf offset
  if 25 < code then .error (.decode (.noSuchChannel code.toNat))
  else .ok {
    label := Char.ofNat (65 + code.toNat)
    rangeCode := byteAt buf (offset + 1)
    coupling := .ofByte (byteAt buf (offset + 2))
    scaleVPerCount := u32At buf (offset + 4)
    offsetV := u32At buf (offset + 8) }

/-- `ScopeCapture::decode`. -/
def ScopeCapture.decode (buf : List UInt8) : Except Error ScopeCapture :=
  if buf.length < headerSize then .error (.decode (.frameTooShort headerSize buf.length))
  else if u32At buf 0 ≠ magic then .error (.decode (.badMagic (u32At buf 0).toNat))
  else if u16At buf 4 ≠ version then .error (.decode (.unsupportedVersion (u16At buf 4).toNat))
  else
    let channelCount := (byteAt buf 44).toNat
    let descriptorsEnd := headerSize + channelCount * channelDescSize
    if buf.length < descriptorsEnd then .error (.decode (.frameTooShort descriptorsEnd buf.length))
    else do
      let channels ← (List.range channelCount).mapM (decodeChannel buf)
      let samplesPerChannel := u32At buf 40
      let expected := samplesPerChannel.toNat * channelCount * 2
      let payload := buf.drop descriptorsEnd
      if payload.length ≠ expected then .error (.decode (.payloadMismatch expected payload.length))
      else .ok {
        seq := u64At buf 8
        captureMonoNs := u64At buf 16
        sampleIntervalNs := u64At buf 24
        preTriggerSamples := u32At buf 32
        postTriggerSamples := u32At buf 36
        samplesPerChannel
        resolutionBits := byteAt buf 45
        overflowMask := u16At buf 46
        flags := u16At buf 6
        screenSamples := u32At buf 48
        channels
        samples := samplesOf payload }

/-! ## The layout -/

/-- A number of 16 bits in a frame. -/
def le16 (n : UInt16) : List UInt8 := LittleEndian.bytes 2 n.toNat

/-- A number of 32 bits in a frame. -/
def le32 (n : UInt32) : List UInt8 := LittleEndian.bytes 4 n.toNat

/-- A number of 64 bits in a frame. -/
def le64 (n : UInt64) : List UInt8 := LittleEndian.bytes 8 n.toNat

/-- The bytes that the format reserves in the descriptor of a channel. -/
structure ReservedChannel where
  flag : UInt8
  tail : Vector UInt8 4

/-- The descriptor of a channel in a frame. -/
def TraceChannel.encode (channel : TraceChannel) (reserved : ReservedChannel) : List UInt8 :=
  [UInt8.ofNat (channel.label.toNat - 65), channel.rangeCode, channel.coupling.toByte,
    reserved.flag] ++ le32 channel.scaleVPerCount ++ le32 channel.offsetV ++ reserved.tail.toList

namespace ScopeCapture

/-- The header of a frame. -/
def header (c : ScopeCapture) (reserved : Vector UInt8 12) : List UInt8 :=
  le32 magic ++ le16 version ++ le16 c.flags ++ le64 c.seq ++ le64 c.captureMonoNs ++
    le64 c.sampleIntervalNs ++ le32 c.preTriggerSamples ++ le32 c.postTriggerSamples ++
    le32 c.samplesPerChannel ++ [UInt8.ofNat c.channels.length, c.resolutionBits] ++
    le16 c.overflowMask ++ le32 c.screenSamples ++ reserved.toList

/-- The descriptors of the channels in a frame. -/
def table (c : ScopeCapture) (channels : ℕ → ReservedChannel) : List UInt8 :=
  c.channels.zipIdx.flatMap fun p => p.1.encode (channels p.2)

/-- The counts in a frame. -/
def payload (c : ScopeCapture) : List UInt8 := c.samples.flatMap fun count => le16 count.toUInt16

/-- The frame of a capture, with the bytes for the positions that the format reserves. -/
def encode (c : ScopeCapture) (reserved : Vector UInt8 12) (channels : ℕ → ReservedChannel) :
    List UInt8 :=
  c.header reserved ++ c.table channels ++ c.payload

/-- The captures that have a frame: those with the channels A to Z, no more than a byte counts, and
as many counts as there are samples in the channels. -/
structure WellFormed (c : ScopeCapture) : Prop where
  channels : c.channels.length ≤ 255
  labels : ∀ channel ∈ c.channels, 'A' ≤ channel.label ∧ channel.label ≤ 'Z'
  samples : c.samples.length = c.channels.length * c.samplesPerChannel.toNat

end ScopeCapture

/-! ## Reading numbers back -/

@[simp] theorem length_le16 (n : UInt16) : (le16 n).length = 2 := LittleEndian.length_bytes 2 _

@[simp] theorem length_le32 (n : UInt32) : (le32 n).length = 4 := LittleEndian.length_bytes 4 _

@[simp] theorem length_le64 (n : UInt64) : (le64 n).length = 8 := LittleEndian.length_bytes 8 _

@[simp] theorem u16At_le16 (n : UInt16) (rest : List UInt8) : u16At (le16 n ++ rest) 0 = n := by
  have hlt : n.toNat < 256 ^ 2 := n.toNat_lt
  rw [u16At, LittleEndian.slice_append_left (length_le16 n), le16, LittleEndian.value_bytes hlt,
    UInt16.ofNat_toNat]

@[simp] theorem u32At_le32 (n : UInt32) (rest : List UInt8) : u32At (le32 n ++ rest) 0 = n := by
  have hlt : n.toNat < 256 ^ 4 := n.toNat_lt
  rw [u32At, LittleEndian.slice_append_left (length_le32 n), le32, LittleEndian.value_bytes hlt,
    UInt32.ofNat_toNat]

@[simp] theorem u64At_le64 (n : UInt64) (rest : List UInt8) : u64At (le64 n ++ rest) 0 = n := by
  have hlt : n.toNat < 256 ^ 8 := n.toNat_lt
  rw [u64At, LittleEndian.slice_append_left (length_le64 n), le64, LittleEndian.value_bytes hlt,
    UInt64.ofNat_toNat]

section

variable {block rest : List UInt8} {offset : ℕ} (h : block.length ≤ offset)

include h

theorem byteAt_append_right : byteAt (block ++ rest) offset = byteAt rest (offset - block.length) :=
  List.getD_append_right block rest 0 offset h

theorem u16At_append_right : u16At (block ++ rest) offset = u16At rest (offset - block.length) := by
  rw [u16At, u16At, LittleEndian.slice_append_right h]

theorem u32At_append_right : u32At (block ++ rest) offset = u32At rest (offset - block.length) := by
  rw [u32At, u32At, LittleEndian.slice_append_right h]

theorem u64At_append_right : u64At (block ++ rest) offset = u64At rest (offset - block.length) := by
  rw [u64At, u64At, LittleEndian.slice_append_right h]

end

section

variable {buf : List UInt8} {width offset k : ℕ}

theorem byteAt_slice (h : k < width) :
    byteAt (LittleEndian.slice width buf offset) k = byteAt buf (offset + k) := by
  simp [byteAt, LittleEndian.slice, List.getD, h, List.getElem?_drop]

theorem u32At_slice (h : k + 4 ≤ width) :
    u32At (LittleEndian.slice width buf offset) k = u32At buf (offset + k) := by
  rw [u32At, u32At, LittleEndian.slice_slice h]

end

/-- The counts of a payload are read back. -/
theorem samplesOf_encode (samples : List Int16) :
    samplesOf (samples.flatMap fun count => le16 count.toUInt16) = samples := by
  induction samples with
  | nil => rfl
  | cons count samples ih =>
    have hcount : u16At (le16 count.toUInt16) 0 = count.toUInt16 := by
      have h := u16At_le16 count.toUInt16 []
      rwa [List.append_nil] at h
    rw [List.flatMap_cons]
    show (u16At (le16 count.toUInt16) 0).toInt16 ::
      samplesOf (samples.flatMap fun count => le16 count.toUInt16) = _
    rw [hcount, Int16.toInt16_toUInt16, ih]

/-! ## Channels -/

/-- The code of a label from A to Z. -/
theorem label_code {label : Char} (h : 'A' ≤ label ∧ label ≤ 'Z') :
    (UInt8.ofNat (label.toNat - 65)).toNat = label.toNat - 65 ∧
      65 ≤ label.toNat ∧ label.toNat ≤ 90 := by
  have hlow : 65 ≤ label.toNat := h.1
  have hhigh : label.toNat ≤ 90 := h.2
  refine ⟨?_, hlow, hhigh⟩
  rw [UInt8.toNat_ofNat']
  omega

@[simp] theorem TraceChannel.length_encode (channel : TraceChannel) (reserved : ReservedChannel) :
    (channel.encode reserved).length = channelDescSize := by
  simp [TraceChannel.encode, channelDescSize]

/-- The descriptor of a channel is read back wherever it stands in the table. -/
theorem decodeChannel_encode {buf : List UInt8} {i : ℕ} {channel : TraceChannel}
    {reserved : ReservedChannel}
    (hslice : LittleEndian.slice channelDescSize buf (headerSize + i * channelDescSize) =
      channel.encode reserved)
    (h : 'A' ≤ channel.label ∧ channel.label ≤ 'Z') : decodeChannel buf i = .ok channel := by
  obtain ⟨hcode, hlow, hhigh⟩ := label_code h
  have hbyte : ∀ k < 4, byteAt buf (headerSize + i * channelDescSize + k) =
      byteAt (channel.encode reserved) k := by
    intro k hk
    rw [← hslice, byteAt_slice (hk.trans (by decide))]
  have hfloat : ∀ k ≤ 12, u32At buf (headerSize + i * channelDescSize + k) =
      u32At (channel.encode reserved) k := by
    intro k hk
    have hfit : k + 4 ≤ channelDescSize := Nat.add_le_add_right hk 4
    rw [← hslice, u32At_slice hfit]
  have h₀ : byteAt buf (headerSize + i * channelDescSize) =
      UInt8.ofNat (channel.label.toNat - 65) := hbyte 0 (by decide)
  have h₁ : byteAt buf (headerSize + i * channelDescSize + 1) = channel.rangeCode :=
    hbyte 1 (by decide)
  have h₂ : byteAt buf (headerSize + i * channelDescSize + 2) = channel.coupling.toByte :=
    hbyte 2 (by decide)
  have h₄ : u32At buf (headerSize + i * channelDescSize + 4) = channel.scaleVPerCount := by
    rw [hfloat 4 (by decide), TraceChannel.encode, List.append_assoc, List.append_assoc,
      u32At_append_right (by simp)]
    exact u32At_le32 _ _
  have h₈ : u32At buf (headerSize + i * channelDescSize + 8) = channel.offsetV := by
    rw [hfloat 8 (by decide), TraceChannel.encode, List.append_assoc,
      u32At_append_right (by simp)]
    simp
  have hvalid : ¬ 25 < UInt8.ofNat (channel.label.toNat - 65) := by
    rw [UInt8.lt_iff_toNat_lt, hcode]
    show ¬ 25 < channel.label.toNat - 65
    omega
  have hlabel : Char.ofNat (65 + (channel.label.toNat - 65)) = channel.label := by
    rw [Nat.add_sub_cancel' hlow, Char.ofNat_toNat]
  rw [decodeChannel]
  simp only [h₀, h₁, h₂, h₄, h₈, hcode, hlabel, if_neg hvalid, TraceCoupling.ofByte_toByte]

/-! ## The round trip -/

namespace ScopeCapture

@[simp] theorem length_header (c : ScopeCapture) (reserved : Vector UInt8 12) :
    (c.header reserved).length = headerSize := by
  simp [header, headerSize]

/-- The fields of a header are read back at their offsets. -/
theorem header_fields (c : ScopeCapture) (reserved : Vector UInt8 12) (rest : List UInt8) :
    u32At (c.header reserved ++ rest) 0 = magic ∧
      u16At (c.header reserved ++ rest) 4 = version ∧
      u16At (c.header reserved ++ rest) 6 = c.flags ∧
      u64At (c.header reserved ++ rest) 8 = c.seq ∧
      u64At (c.header reserved ++ rest) 16 = c.captureMonoNs ∧
      u64At (c.header reserved ++ rest) 24 = c.sampleIntervalNs ∧
      u32At (c.header reserved ++ rest) 32 = c.preTriggerSamples ∧
      u32At (c.header reserved ++ rest) 36 = c.postTriggerSamples ∧
      u32At (c.header reserved ++ rest) 40 = c.samplesPerChannel ∧
      byteAt (c.header reserved ++ rest) 44 = UInt8.ofNat c.channels.length ∧
      byteAt (c.header reserved ++ rest) 45 = c.resolutionBits ∧
      u16At (c.header reserved ++ rest) 46 = c.overflowMask ∧
      u32At (c.header reserved ++ rest) 48 = c.screenSamples := by
  simp only [header, List.append_assoc, byteAt_append_right, u16At_append_right,
    u32At_append_right, u64At_append_right, length_le16, length_le32, length_le64,
    List.length_cons, List.length_nil, Nat.reduceAdd, Nat.reduceLeDiff, Nat.reduceSub, le_refl,
    Nat.sub_self, u16At_le16, u32At_le32, u64At_le64, true_and, and_true]
  exact ⟨rfl, rfl⟩

theorem encode_eq (c : ScopeCapture) (reserved : Vector UInt8 12) (channels : ℕ → ReservedChannel) :
    c.encode reserved channels = c.header reserved ++ (c.table channels ++ c.payload) :=
  List.append_assoc _ _ _

@[simp] theorem length_table (c : ScopeCapture) (channels : ℕ → ReservedChannel) :
    (c.table channels).length = c.channels.length * channelDescSize := by
  rw [table, List.length_flatMap]
  simp

theorem length_payload {c : ScopeCapture} (h : c.WellFormed) :
    c.payload.length = c.samplesPerChannel.toNat * c.channels.length * 2 := by
  rw [payload, List.length_flatMap]
  simp [h.samples, Nat.mul_comm]

/-- The descriptors of a frame are read back. -/
theorem decodeChannels_encode {c : ScopeCapture} (h : c.WellFormed) (reserved : Vector UInt8 12)
    (channels : ℕ → ReservedChannel) :
    (List.range c.channels.length).mapM (decodeChannel (c.encode reserved channels)) =
      .ok c.channels := by
  refine mapM_eq_ok.mpr (List.forall₂_iff_get.mpr ⟨List.length_range, fun i hrange hi => ?_⟩)
  have hzip : i < c.channels.zipIdx.length := by rwa [List.length_zipIdx]
  have hslice := @LittleEndian.slice_flatMap _ (c.header reserved) c.payload
    (fun p : TraceChannel × ℕ => p.1.encode (channels p.2)) channelDescSize
    (fun p => p.1.length_encode _) c.channels.zipIdx i hzip
  rw [List.getElem_zipIdx, length_header] at hslice
  rw [List.get_eq_getElem, List.getElem_range, encode_eq]
  exact decodeChannel_encode hslice (h.labels _ (List.getElem_mem hi))

/-- **LSCP/1 round trip.** A frame with the layout of a capture, whatever stands in the positions
that the format reserves, decodes to the capture.

**Proof sketch.** Every field of the header is read behind the fields in front of it, every
descriptor is its slice of the table, and the payload is what remains. -/
theorem decode_encode (c : ScopeCapture) (h : c.WellFormed) (reserved : Vector UInt8 12)
    (channels : ℕ → ReservedChannel) : decode (c.encode reserved channels) = .ok c := by
  have htable := decodeChannels_encode h reserved channels
  rw [encode_eq] at htable ⊢
  obtain ⟨hmagic, hversion, hflags, hseq, hmono, hinterval, hpre, hpost, hspc, hchannels,
    hresolution, hoverflow, hscreen⟩ := header_fields c reserved (c.table channels ++ c.payload)
  have hcount : (UInt8.ofNat c.channels.length).toNat = c.channels.length := by
    have hbyte := h.channels
    rw [UInt8.toNat_ofNat']
    omega
  have htotal : headerSize + c.channels.length * channelDescSize ≤
      (c.header reserved ++ (c.table channels ++ c.payload)).length := by
    simp only [List.length_append, length_header, length_table]
    omega
  have hdrop : (c.header reserved ++ (c.table channels ++ c.payload)).drop
      (headerSize + c.channels.length * channelDescSize) = c.payload := by
    rw [← List.append_assoc]
    refine List.drop_left' ?_
    rw [List.length_append, length_header, length_table]
  rw [decode, if_neg (by simp), hmagic, hversion]
  simp only [ne_eq, not_true_eq_false, if_false, hchannels, hcount, if_neg (not_lt.mpr htotal),
    htable, hdrop, hspc, bind, Except.bind]
  rw [if_neg (not_not.mpr (length_payload h)), hflags, hseq, hmono, hinterval, hpre, hpost,
    hresolution, hoverflow, hscreen, payload, samplesOf_encode]

/-- Two channels with two counts each, one of them not captured. -/
abbrev clipped : ScopeCapture where
  seq := 7
  captureMonoNs := 123456789000
  sampleIntervalNs := 0x4030000000000000
  preTriggerSamples := 2
  postTriggerSamples := 0
  samplesPerChannel := 2
  resolutionBits := 8
  overflowMask := 2
  flags := 1
  screenSamples := 0
  channels := [⟨'A', 7, .dc, 0x3AA3D70A, 0⟩, ⟨'Z', 4, .gnd, 0x3B23D70A, 0x7FC00001⟩]
  samples := [1000, -1000, -32768, -5]

/-- A frame whose reserved bytes are all set decodes. -/
theorem decode_clipped :
    decode (clipped.encode (Vector.replicate 12 255) fun _ => ⟨255, Vector.replicate 4 255⟩) =
      .ok clipped :=
  decode_encode clipped ⟨by decide, by decide, by decide⟩ _ _

end ScopeCapture

end Lager
