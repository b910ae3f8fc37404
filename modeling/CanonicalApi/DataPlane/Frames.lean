import CanonicalApi.DataPlane

/-!
# `CanonicalApi.DataPlane.Frames`: the frames of the stateful TCP path

`encodeFrame` and `decodeFrame` are two readings of one relation: `encodeFrame_eq_ok_iff` and
`decodeFrame_eq_ok_iff` say that each succeeds exactly on an `IsFrame`, with the limit that both
clamp the caller's maximum to. `frame_codec` follows from the two.
-/

set_option autoImplicit false

namespace CanonicalApi

namespace DataPlane

open Framing

variable {payload frame : List UInt8} {maximum : Nat}

/-- The limit on both sides. -/
def frameLimit (maximum : Nat) : Nat := min maximum maxFrameBytes

/-- No limit that a caller gives lets a frame grow beyond `MAX_FRAME_BYTES`. -/
theorem frameLimit_le (maximum : Nat) : frameLimit maximum ≤ 262144 :=
  Nat.min_le_right _ _

/-- Four bytes hold every length within the limit. -/
theorem frameLimit_lt (maximum : Nat) : frameLimit maximum < 256 ^ 4 :=
  Nat.lt_of_le_of_lt (frameLimit_le maximum) (by decide)

/-- Four bytes more than the limit fit into `usize`. -/
theorem usizeAdd_eq_some {n : Nat} (h : n ≤ frameLimit maximum) : usizeAdd 4 n = some (4 + n) := by
  have hlimit := frameLimit_le maximum
  have hsize := USize.le_size
  exact if_pos (by omega)

/-! ### The four bytes in front -/

/-- The length word of a payload within the limit is its length in four big-endian bytes. The
conversion to `u32` loses nothing, since the limit is far below 2^32. -/
theorem toBeBytes_ofNat {n : Nat} (h : n ≤ frameLimit maximum) :
    toBeBytes (UInt32.ofNat n) = bigEndian 4 n := by
  have hlimit := frameLimit_le maximum
  rw [toBeBytes, UInt32.toNat_ofNat_of_lt' (by rw [UInt32.size]; omega)]

/-- Four bytes, read as a word, are their big-endian number. -/
theorem toNat_fromBeBytes {word : List UInt8} (h : word.length = 4) :
    (fromBeBytes word).toNat = ofBigEndian word := by
  have hlt := ofBigEndian_lt word
  rw [h] at hlt
  exact UInt32.toNat_ofNat_of_lt' hlt

/-- The bytes of a length are read back. -/
theorem fromBeBytes_toBeBytes (n : UInt32) : fromBeBytes (toBeBytes n) = n := by
  rw [fromBeBytes, toBeBytes, ofBigEndian_bigEndian n.toNat_lt, UInt32.ofNat_toNat]

/-! ### What the two functions compute -/

/-- `encode_frame` writes the frame of a payload within the limit and refuses the others. -/
theorem encodeFrame_eq (payload : List UInt8) (maximum : Nat) :
    encodeFrame payload maximum =
      some (if 1 ≤ payload.length ∧ payload.length ≤ frameLimit maximum
        then .ok (bigEndian 4 payload.length ++ payload) else .error .frameSize) := by
  have hlimit := frameLimit_le maximum
  have hsize : UInt32.size - 1 = 4294967295 := rfl
  have hnil : payload = [] ↔ payload.length = 0 := List.length_eq_zero_iff.symm
  unfold encodeFrame
  by_cases hfits : 1 ≤ payload.length ∧ payload.length ≤ frameLimit maximum
  · -- Within the limit the word holds the length, as the limit is below its size.
    have haccepted : ¬ (payload = [] ∨ frameLimit maximum < payload.length ∨
        UInt32.size - 1 < payload.length) := by
      rw [hnil, hsize]
      omega
    rw [if_pos hfits]
    refine (if_neg haccepted).trans ?_
    rw [usizeAdd_eq_some hfits.2, toBeBytes_ofNat hfits.2]
    rfl
  · have hrefused : payload = [] ∨ frameLimit maximum < payload.length ∨
        UInt32.size - 1 < payload.length := by
      rw [hnil, hsize]
      omega
    rw [if_neg hfits]
    exact if_pos hrefused

/-- `decode_frame` gives what follows the length when the length is within the limit and counts
it, and refuses the others. -/
theorem decodeFrame_eq (frame : List UInt8) (maximum : Nat) :
    decodeFrame frame maximum =
      some (if 4 ≤ frame.length ∧ 1 ≤ ofBigEndian (frame.take 4) ∧
          ofBigEndian (frame.take 4) ≤ frameLimit maximum ∧
          frame.length = 4 + ofBigEndian (frame.take 4)
        then .ok (frame.drop 4) else .error .frameSize) := by
  unfold decodeFrame lengthPrefix
  -- The checks in the order of the source; a frame without a whole prefix fails the first one.
  by_cases hle : 4 ≤ frame.length
  · rw [if_pos hle, Option.map_some]
    dsimp only
    rw [toNat_fromBeBytes (List.length_take_of_le hle)]
    by_cases hbound : ofBigEndian (frame.take 4) = 0 ∨
        frameLimit maximum < ofBigEndian (frame.take 4)
    · refine (if_pos hbound).trans ?_
      rw [if_neg (by omega)]
    · refine (if_neg hbound).trans ?_
      have hle : ofBigEndian (frame.take 4) ≤ frameLimit maximum := by omega
      -- The sum of prefix and payload does not overflow, because the limit bounds the payload.
      rw [usizeAdd_eq_some hle, Option.bind_eq_bind, Option.bind_some]
      by_cases hlength : frame.length = 4 + ofBigEndian (frame.take 4)
      · rw [if_neg (not_not.mpr hlength), if_pos (by omega)]
        rfl
      · rw [if_pos hlength, if_neg (by omega)]
        rfl
  · rw [if_neg hle, Option.map_none, if_neg (by omega)]

/-- `encode_frame` succeeds exactly on the payloads that have a frame, with this frame. -/
theorem encodeFrame_eq_ok_iff :
    encodeFrame payload maximum = some (.ok frame) ↔
      IsFrame 4 (frameLimit maximum) payload frame := by
  rw [encodeFrame_eq, Option.some.injEq]
  constructor
  · intro h
    split at h
    · next hlength =>
      cases h
      exact ⟨hlength.1, hlength.2, rfl⟩
    · cases h
  · intro h
    rw [if_pos ⟨h.pos, h.le⟩, h.eq]

/-- `decode_frame` succeeds exactly on the frames, with their payload. -/
theorem decodeFrame_eq_ok_iff :
    decodeFrame frame maximum = some (.ok payload) ↔
      IsFrame 4 (frameLimit maximum) payload frame := by
  rw [decodeFrame_eq, Option.some.injEq, isFrame_iff (frameLimit_lt maximum)]
  constructor
  · intro h
    split at h
    · next hframe =>
      cases h
      exact ⟨hframe.1, hframe.2.1, hframe.2.2.1, hframe.2.2.2, rfl⟩
    · cases h
  · intro ⟨hle, hpos, hbound, hlength, hdrop⟩
    rw [if_pos ⟨hle, hpos, hbound, hlength⟩, hdrop]

/-- What `decode_frame` does not accept it refuses with the one error. -/
theorem decodeFrame_refused (h : ∀ payload, ¬ IsFrame 4 (frameLimit maximum) payload frame) :
    decodeFrame frame maximum = some (.error .frameSize) := by
  rw [decodeFrame_eq]
  split
  · next hframe =>
    exact absurd ((isFrame_iff (frameLimit_lt maximum)).mpr
      ⟨hframe.1, hframe.2.1, hframe.2.2.1, hframe.2.2.2, rfl⟩) (h _)
  · rfl

/-- A byte string whose length in front is zero or above the limit is refused, whatever
follows. -/
theorem decodeFrame_length_refused (n : UInt32) (rest : List UInt8)
    (h : n.toNat = 0 ∨ frameLimit maximum < n.toNat) :
    decodeFrame (toBeBytes n ++ rest) maximum = some (.error .frameSize) := by
  refine decodeFrame_refused fun payload hframe => ?_
  obtain ⟨-, hpos, hbound, -, -⟩ := (isFrame_iff (frameLimit_lt maximum)).mp hframe
  have hlength : (toBeBytes n).length = 4 := length_bigEndian ..
  rw [List.take_left' hlength, ← toNat_fromBeBytes hlength, fromBeBytes_toBeBytes] at hpos hbound
  omega

end DataPlane

open DataPlane Framing

/-- The frame codec, for every payload, frame and maximum. `encode_frame` succeeds exactly on the
payloads of 1 to `min maximum 262144` bytes, and `decode_frame` gives the payload back. A byte
string is decoded to a payload exactly when it is the frame that the payload is encoded to. All
others are refused: what `encode_frame` does not write, a frame without its end, a frame with
bytes behind it, and any byte string with the length zero or one above the limit in front. No sum
overflows. -/
theorem frame_codec (payload frame : List UInt8) (maximum : Nat) :
    ((∃ f, encodeFrame payload maximum = some (.ok f)) ↔
      1 ≤ payload.length ∧ payload.length ≤ min maximum 262144) ∧
    (∀ f, encodeFrame payload maximum = some (.ok f) →
      decodeFrame f maximum = some (.ok payload)) ∧
    (decodeFrame frame maximum = some (.ok payload) ↔
      encodeFrame payload maximum = some (.ok frame)) ∧
    ((∀ p, encodeFrame p maximum ≠ some (.ok frame)) →
      decodeFrame frame maximum = some (.error .frameSize)) ∧
    (∀ f rest, rest ≠ [] → encodeFrame payload maximum = some (.ok (f ++ rest)) →
      decodeFrame f maximum = some (.error .frameSize)) ∧
    (∀ f rest, rest ≠ [] → encodeFrame payload maximum = some (.ok f) →
      decodeFrame (f ++ rest) maximum = some (.error .frameSize)) ∧
    (∀ (n : UInt32) rest, n.toNat = 0 ∨ min maximum 262144 < n.toNat →
      decodeFrame (toBeBytes n ++ rest) maximum = some (.error .frameSize)) ∧
    encodeFrame payload maximum ≠ none ∧ decodeFrame frame maximum ≠ none := by
  -- Both directions of the codec are the relation `IsFrame`; each clause is a fact about it.
  have hlimit := frameLimit_lt maximum
  refine ⟨?_, ?_, ?_, ?_, ?_, ?_, ?_, ?_, ?_⟩
  · simp only [encodeFrame_eq_ok_iff]
    exact exists_isFrame_iff
  · intro f h
    exact decodeFrame_eq_ok_iff.mpr (encodeFrame_eq_ok_iff.mp h)
  · rw [decodeFrame_eq_ok_iff, encodeFrame_eq_ok_iff]
  · intro h
    exact decodeFrame_refused fun p hframe => h p (encodeFrame_eq_ok_iff.mpr hframe)
  · intro f rest hrest h
    exact decodeFrame_refused fun p hframe =>
      hrest (hframe.eq_of_append hlimit (encodeFrame_eq_ok_iff.mp h))
  · intro f rest hrest h
    exact decodeFrame_refused fun p hframe =>
      hrest ((encodeFrame_eq_ok_iff.mp h).eq_of_append hlimit hframe)
  · intro n rest h
    exact decodeFrame_length_refused n rest h
  · rw [encodeFrame_eq]
    exact nofun
  · rw [decodeFrame_eq]
    exact nofun

/-- The frame of the source's test. -/
example : encodeFrame [116, 121, 112] 64 = some (.ok [0, 0, 0, 3, 116, 121, 112]) := by
  rw [encodeFrame_eq]
  rfl

end CanonicalApi
