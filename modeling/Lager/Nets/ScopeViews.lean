import Lager.Nets.ScopeFrame
import Lager.Rust.Text
import Mathlib.Data.List.FinRange
import Mathlib.Data.Nat.Bitwise

set_option relaxedAutoImplicit false
set_option autoImplicit false

/-!
# The channels of a capture

A capture keeps the counts of its channels one channel after the other, and its channels are asked
for by their labels. This file has the views of one channel, and proves that they are a partition of
the counts.

## Main definitions

* `Lager.ScopeCapture.channelIndex`, `Lager.ScopeCapture.counts`, `Lager.ScopeCapture.volts`,
  `Lager.ScopeCapture.overflowed` — the views of a channel.

## Main results

* `Lager.Decodes.wellFormed` — what decodes has as many counts as its channels have samples.
* `Lager.views_partition` — the views of the channels of a capture.

## Implementation notes

The index of a channel carries that it is one of the capture.
-/

namespace Lager

open Library

/-! ## Views -/

/-- `NO_SAMPLE`. -/
def noSample : Int16 := Int16.minValue

/-- `f64::NAN`. -/
def nan : Float := .ofBits 0x7FF8000000000000

/-- A count of a channel in volts. -/
def TraceChannel.voltsOf (channel : TraceChannel) (count : Int16) : Float :=
  let scale := (Float32.ofBits channel.scaleVPerCount).toFloat
  let offset := (Float32.ofBits channel.offsetV).toFloat
  if count = noSample then nan else .ofInt count.toInt * scale + offset

namespace ScopeCapture

/-- `ScopeCapture::channel_index`. -/
def channelIndex (c : ScopeCapture) (label : Char) : Option (Fin c.channels.length) :=
  c.channels.findFinIdx? fun channel => channel.label = label.toUpper

/-- `ScopeCapture::counts`. -/
def counts (c : ScopeCapture) (label : Char) : Option (List Int16) := do
  let index ← c.channelIndex label
  let n := c.samplesPerChannel.toNat
  (Checked.slice c.samples (index * n) ((index + 1) * n)).toOption

/-- `ScopeCapture::volts`. -/
def volts (c : ScopeCapture) (label : Char) : Option (List Float) := do
  let index ← c.channelIndex label
  let channel := c.channels[index]
  let counts ← c.counts label
  return counts.map channel.voltsOf

/-- `ScopeCapture::overflowed`. -/
def overflowed (c : ScopeCapture) (label : Char) : Bool :=
  match c.channelIndex label with
  | some index =>
    if index.val < 16 then c.overflowMask &&& (1 <<< UInt16.ofNat index) ≠ 0 else false
  | none => false

end ScopeCapture

/-! ## What decodes is well formed -/

/-- A payload has a count for each two bytes. -/
theorem length_samplesOf (payload : List UInt8) :
    (samplesOf payload).length = payload.length / 2 := by
  fun_induction samplesOf payload with
  | case1 low high rest ih =>
    simp only [List.length_cons, ih]
    omega
  | case2 payload h =>
    rcases payload with _ | ⟨low, _ | ⟨high, rest⟩⟩
    · simp
    · simp
    · exact absurd rfl (h low high rest)

/-- The label in a descriptor is a letter. -/
theorem decodeChannel_label {buf : List UInt8} {i : ℕ} {channel : TraceChannel}
    (h : decodeChannel buf i = .ok channel) : 'A' ≤ channel.label ∧ channel.label ≤ 'Z' := by
  rw [decodeChannel] at h
  split at h
  · cases h
  next hcode =>
  cases h
  rw [UInt8.lt_iff_toNat_lt, not_lt] at hcode
  have hle : (byteAt buf (headerSize + i * channelDescSize)).toNat ≤ 25 := hcode
  generalize (byteAt buf (headerSize + i * channelDescSize)).toNat = code at hle
  have hletters : ∀ code ≤ 25, 'A' ≤ Char.ofNat (65 + code) ∧ Char.ofNat (65 + code) ≤ 'Z' := by
    decide
  exact hletters code hle

/-- What decodes has the channels A to Z, and as many counts as its channels have samples. -/
theorem Decodes.wellFormed {buf : List UInt8} {c : ScopeCapture} (h : Decodes buf c) :
    c.WellFormed := by
  obtain ⟨hlength, hread⟩ := List.forall₂_iff_get.mp (mapM_eq_ok.mp h.channels)
  rw [List.length_range] at hlength
  refine ⟨?_, fun channel hchannel => ?_, ?_⟩
  · rw [← hlength]
    exact Nat.le_of_lt_succ (byteAt buf 44).toNat_lt
  · obtain ⟨i, hi, rfl⟩ := List.getElem_of_mem hchannel
    have hi' : i < (List.range (channelCount buf)).length := by rwa [List.length_range, hlength]
    exact decodeChannel_label (hread i hi' hi)
  · rw [h.samples, length_samplesOf, h.payload, hlength, h.samplesPerChannel,
      Nat.mul_div_cancel _ (by decide), Nat.mul_comm]

/-! ## Labels -/

/-- The upper case of a character. -/
theorem toNat_toUpper (c : Char) :
    c.toUpper.toNat = if 97 ≤ c.toNat ∧ c.toNat ≤ 122 then c.toNat - 32 else c.toNat := by
  have hiff : ('a'.val ≤ c.val ∧ c.val ≤ 'z'.val) ↔ (97 ≤ c.toNat ∧ c.toNat ≤ 122) := Iff.rfl
  delta Char.toUpper
  split
  next h =>
    rw [if_pos (hiff.mp h)]
    have h' := hiff.mp h
    have hshift : ('A'.val - 'a'.val).toNat = 2 ^ 32 - 32 := by decide
    have hsum : (c.val + ('A'.val - 'a'.val)).toNat = (c.toNat + (2 ^ 32 - 32)) % 2 ^ 32 := by
      rw [UInt32.toNat_add, hshift]
      rfl
    have hwrap : (c.toNat + (2 ^ 32 - 32)) % 2 ^ 32 = c.toNat - 32 := by omega
    exact hsum.trans hwrap
  next h => rw [if_neg (fun h' => h (hiff.mpr h'))]

/-- A letter is asked for by itself and by its lower case. -/
theorem toUpper_eq_iff {label letter : Char} (h : 'A' ≤ letter ∧ letter ≤ 'Z') :
    label.toUpper = letter ↔ label = letter ∨ label = letter.toLower := by
  obtain ⟨hlow, hhigh⟩ : 65 ≤ letter.toNat ∧ letter.toNat ≤ 90 := h
  rw [← Char.toNat_inj, ← Char.toNat_inj, ← Char.toNat_inj, toNat_toUpper, toNat_toLower,
    if_pos (show 65 ≤ letter.toNat ∧ letter.toNat ≤ 90 from ⟨hlow, hhigh⟩)]
  split <;> omega

/-! ## Slices -/

/-- The slices of one width of a list make it up. -/
theorem flatten_slices {α : Type} {n k : ℕ} {l : List α} (h : l.length = k * n) :
    ((List.range k).map fun i => (l.drop (i * n)).take n).flatten = l := by
  induction k generalizing l with
  | zero =>
    rw [Nat.zero_mul] at h
    simp [List.eq_nil_of_length_eq_zero h]
  | succ k ih =>
    have hrest : (l.drop n).length = k * n := by
      rw [List.length_drop, h, Nat.succ_mul, Nat.add_sub_cancel]
    have hslices : ((fun i => (l.drop (i * n)).take n) ∘ Nat.succ) =
        fun i => ((l.drop n).drop (i * n)).take n := by
      funext i
      simp only [Function.comp, List.drop_drop, Nat.succ_mul, Nat.add_comm]
    rw [List.range_succ_eq_map, List.map_cons, List.map_map, List.flatten_cons, hslices, ih hrest,
      Nat.zero_mul, List.drop_zero, List.take_append_drop]

namespace ScopeCapture

variable {c : ScopeCapture}

/-- The counts of the channel at an index. -/
def slice (c : ScopeCapture) (i : ℕ) : List Int16 :=
  (c.samples.drop (i * c.samplesPerChannel.toNat)).take c.samplesPerChannel.toNat

/-- A slice of a capture within its counts. -/
theorem slice_le (h : c.WellFormed) {i : ℕ} (hi : i < c.channels.length) :
    (i + 1) * c.samplesPerChannel.toNat ≤ c.samples.length := by
  rw [h.samples]
  exact Nat.mul_le_mul_right _ hi

/-- Every channel has as many counts as it has samples. -/
theorem length_slice (h : c.WellFormed) {i : ℕ} (hi : i < c.channels.length) :
    (c.slice i).length = c.samplesPerChannel.toNat := by
  have hle := slice_le h hi
  rw [Nat.succ_mul] at hle
  rw [slice, List.length_take, List.length_drop]
  omega

/-- The counts of a channel are its slice. -/
theorem counts_eq (h : c.WellFormed) (label : Char) :
    c.counts label = (c.channelIndex label).map fun index => c.slice index.val := by
  rw [counts]
  cases c.channelIndex label with
  | none => rfl
  | some index =>
    have hslice := Checked.slice_eq (Nat.mul_le_mul_right _ (Nat.le_succ _)) (slice_le h index.isLt)
    simp only [Option.bind_eq_bind, Option.bind_some, hslice]
    rw [Nat.succ_mul, Nat.add_sub_cancel_left]
    rfl

/-- There are volts where there are counts, as many. -/
theorem map_length_volts (label : Char) :
    (c.volts label).map List.length = (c.counts label).map List.length := by
  rw [volts]
  cases hindex : c.channelIndex label with
  | none => simp [counts, hindex]
  | some index =>
    cases hcounts : c.counts label with
    | none => rfl
    | some counts =>
      show some (counts.map _).length = some counts.length
      rw [List.length_map]

/-- Where no two channels have one label, each is found at its position. -/
theorem channelIndex_eq_some (hlabels : (c.channels.map TraceChannel.label).Nodup) {label : Char}
    {index : Fin c.channels.length} :
    c.channelIndex label = some index ↔ label.toUpper = c.channels[index].label := by
  rw [channelIndex, List.findFinIdx?_eq_some_iff]
  refine ⟨fun h => (of_decide_eq_true h.1).symm, fun h => ⟨decide_eq_true h.symm, ?_⟩⟩
  intro earlier hlt hfound
  have hsame : c.channels[earlier].label = c.channels[index].label :=
    (of_decide_eq_true hfound).trans h
  have hget : (c.channels.map TraceChannel.label).get ⟨earlier, by simp⟩ =
      (c.channels.map TraceChannel.label).get ⟨index, by simp⟩ := by
    simpa using hsame
  exact hlt.ne (Fin.ext (hlabels.getElem_inj_iff.mp hget))

/-- A label is found where it is that of a channel, in either case. -/
theorem isSome_channelIndex (h : c.WellFormed) (label : Char) :
    (c.channelIndex label).isSome ↔
      ∃ channel ∈ c.channels, label = channel.label ∨ label = channel.label.toLower := by
  rw [channelIndex, List.isSome_findFinIdx?, List.any_eq_true]
  refine exists_congr fun channel => and_congr_right fun hchannel => ?_
  rw [decide_eq_true_iff, eq_comm]
  exact toUpper_eq_iff (h.labels channel hchannel)

/-- A channel is found at its position, by its label in either case. -/
theorem channelIndex_channel (h : c.WellFormed)
    (hlabels : (c.channels.map TraceChannel.label).Nodup) {index : Fin c.channels.length}
    {label : Char}
    (hlabel : label = c.channels[index].label ∨ label = c.channels[index].label.toLower) :
    c.channelIndex label = some index :=
  (channelIndex_eq_some hlabels).mpr
    ((toUpper_eq_iff (h.labels _ (List.getElem_mem index.isLt))).mpr hlabel)

/-- The slices of the channels make up the counts. -/
theorem flatten_counts (h : c.WellFormed) (hlabels : (c.channels.map TraceChannel.label).Nodup) :
    (c.channels.filterMap fun channel => c.counts channel.label).flatten = c.samples := by
  have hslices : (c.channels.filterMap fun channel => c.counts channel.label) =
      (List.range c.channels.length).map c.slice := by
    calc c.channels.filterMap (fun channel => c.counts channel.label)
      _ = ((List.finRange c.channels.length).map fun index => c.channels[index]).filterMap
            fun channel => c.counts channel.label := by
          simp
      _ = (List.finRange c.channels.length).filterMap fun index =>
            some (c.slice index.val) := by
          rw [List.filterMap_map]
          refine List.filterMap_congr fun index _ => ?_
          simp only [Function.comp]
          rw [counts_eq h, channelIndex_channel h hlabels (.inl rfl), Option.map_some]
      _ = (List.range c.channels.length).map c.slice := by
          rw [List.filterMap_eq_map', ← List.map_coe_finRange_eq_range, List.map_map]
          rfl
  rw [hslices]
  exact flatten_slices h.samples

/-- A bit of the mask. -/
theorem mask_bit (mask : UInt16) {i : ℕ} (hi : i < 16) :
    mask &&& (1 <<< UInt16.ofNat i) ≠ 0 ↔ mask.toNat.testBit i := by
  have hshift : ∀ i < 16, ((1 : UInt16) <<< UInt16.ofNat i).toNat = 2 ^ i := by decide
  rw [ne_eq, ← UInt16.toNat_inj, UInt16.toNat_and, hshift i hi, Nat.land_comm, Nat.two_pow_and]
  cases mask.toNat.testBit i <;> simp

/-- The overflow of a channel is the bit for its position, where there is one. -/
theorem overflowed_eq {label : Char} {index : Fin c.channels.length}
    (h : c.channelIndex label = some index) :
    c.overflowed label = (decide (index.val < 16) && c.overflowMask.toNat.testBit index) := by
  simp only [overflowed, h]
  split
  next hi => simp [hi, mask_bit _ hi]
  next hi => simp [hi]

end ScopeCapture

/-- **The views of the channels partition the counts.** In a capture that decodes, whose labels
differ, there are counts for a label where it is that of a channel, in either case; they are as many
as a channel has samples, and channel by channel they make up the counts of the capture. There are
as many volts, for the same labels. A channel has overflowed where the mask has the bit for its
position, which it has for the first 16 only.

**Proof sketch.** The decoder has checked that there are as many counts as its channels have
samples, so that the slice of every channel is within them. Labels are letters, so that a label is
found by itself and by its lower case, and at its own position because labels differ. -/
theorem views_partition {buf : List UInt8} {c : ScopeCapture}
    (h : ScopeCapture.decode buf = .ok c) (hlabels : (c.channels.map TraceChannel.label).Nodup) :
    (∀ label, (c.counts label).isSome ↔
        ∃ channel ∈ c.channels, label = channel.label ∨ label = channel.label.toLower) ∧
      (∀ label counts, c.counts label = some counts →
        counts.length = c.samplesPerChannel.toNat) ∧
      (c.channels.filterMap fun channel => c.counts channel.label).flatten = c.samples ∧
      (∀ label, (c.volts label).map List.length = (c.counts label).map List.length) ∧
      (∀ (index : Fin c.channels.length) label,
        label = c.channels[index].label ∨ label = c.channels[index].label.toLower →
          c.overflowed label =
            (decide (index.val < 16) && c.overflowMask.toNat.testBit index)) ∧
      ∀ label, c.counts label = none → c.overflowed label = false := by
  have hwell := (decode_inv h).wellFormed
  refine ⟨fun label => ?_, fun label counts hcounts => ?_,
    ScopeCapture.flatten_counts hwell hlabels, ScopeCapture.map_length_volts,
    fun index label hlabel => ?_, fun label hnone => ?_⟩
  · rw [ScopeCapture.counts_eq hwell, Option.isSome_map]
    exact ScopeCapture.isSome_channelIndex hwell label
  · rw [ScopeCapture.counts_eq hwell] at hcounts
    obtain ⟨index, -, rfl⟩ := Option.map_eq_some_iff.mp hcounts
    exact ScopeCapture.length_slice hwell index.isLt
  · exact ScopeCapture.overflowed_eq (ScopeCapture.channelIndex_channel hwell hlabels hlabel)
  · rw [ScopeCapture.counts_eq hwell, Option.map_eq_none_iff] at hnone
    simp only [ScopeCapture.overflowed, hnone]

/-- In the frame of a capture of the channels A and Z, where only Z has overflowed. -/
theorem views_partition_clipped :
    (ScopeCapture.clipped.counts 'z').isSome ∧ ¬ (ScopeCapture.clipped.counts 'B').isSome ∧
      ScopeCapture.clipped.overflowed 'a' = false ∧ ScopeCapture.clipped.overflowed 'z' = true :=
  have h := views_partition ScopeCapture.decode_clipped (by decide)
  ⟨(h.1 'z').mpr (by decide), mt (h.1 'B').mp (by decide),
    (h.2.2.2.2.1 0 'a' (by decide)).trans (by decide),
    (h.2.2.2.2.1 1 'z' (by decide)).trans (by decide)⟩

end Lager
