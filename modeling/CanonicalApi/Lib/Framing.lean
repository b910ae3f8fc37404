import Mathlib.Algebra.Group.Nat.Defs
import Mathlib.Data.List.Induction

/-!
# `CanonicalApi.Lib.Framing`: frames with a length in front

`bigEndian w n` are the `w` big-endian bytes of a number and `ofBigEndian` reads them back. The
two are inverse to each other on the numbers below `256 ^ w` and on the byte strings of
length `w`.

A frame is a payload behind its length in `w` bytes. `isFrame_iff` reads a frame from its side:
the length in front is not zero, not above the limit and accounts for all that follows. So a
decoder that makes these tests inverts an encoder that writes such frames.
-/

set_option autoImplicit false

namespace Framing

/-! ## Big-endian numbers -/

/-- The `w` big-endian bytes of `n`, without what is above them. -/
def bigEndian : Nat → Nat → List UInt8
  | 0, _ => []
  | w + 1, n => bigEndian w (n / 256) ++ [UInt8.ofNat n]

/-- The number that a byte string spells. -/
def ofBigEndian (bs : List UInt8) : Nat :=
  bs.foldl (fun n b => 256 * n + b.toNat) 0

/-- The last byte is the least significant one. -/
theorem ofBigEndian_concat (bs : List UInt8) (b : UInt8) :
    ofBigEndian (bs ++ [b]) = 256 * ofBigEndian bs + b.toNat := by
  rw [ofBigEndian, List.foldl_append]
  rfl

/-- A big-endian number of `w` bytes has `w` bytes. -/
@[simp] theorem length_bigEndian (w n : Nat) : (bigEndian w n).length = w := by
  induction w generalizing n with
  | zero => rfl
  | succ w ih => rw [bigEndian, List.length_append, ih, List.length_singleton]

/-- Bytes spell a number below `256 ^ length`. -/
theorem ofBigEndian_lt (bs : List UInt8) : ofBigEndian bs < 256 ^ bs.length := by
  induction bs using List.reverseRecOn with
  | nil => exact Nat.one_pos
  | append_singleton bs b ih =>
    have hb := b.toNat_lt
    rw [ofBigEndian_concat, List.length_append, List.length_singleton, Nat.pow_succ]
    omega

/-- A number that fits is read back. -/
theorem ofBigEndian_bigEndian {w n : Nat} (h : n < 256 ^ w) : ofBigEndian (bigEndian w n) = n := by
  induction w generalizing n with
  | zero =>
    have hn : n = 0 := by simpa using h
    rw [hn]
    rfl
  | succ w ih =>
    have hquot : n / 256 < 256 ^ w := by
      rw [Nat.pow_succ] at h
      omega
    rw [bigEndian, ofBigEndian_concat, ih hquot]
    show 256 * (n / 256) + n % 256 = n
    omega

/-- The number that bytes spell is written with these bytes. -/
theorem bigEndian_ofBigEndian (bs : List UInt8) : bigEndian bs.length (ofBigEndian bs) = bs := by
  induction bs using List.reverseRecOn with
  | nil => rfl
  | append_singleton bs b ih =>
    have hb := b.toNat_lt
    have hquot : (256 * ofBigEndian bs + b.toNat) / 256 = ofBigEndian bs := by omega
    have hlast : UInt8.ofNat (256 * ofBigEndian bs + b.toNat) = b := by
      rw [← UInt8.toNat_inj]
      show (256 * ofBigEndian bs + b.toNat) % 256 = b.toNat
      omega
    rw [List.length_append, List.length_singleton, bigEndian, ofBigEndian_concat, hquot, ih, hlast]

/-! ## Frames -/

/-- `frame` is the frame of `payload`, with a length of `w` bytes and at most `limit` bytes of
payload. -/
structure IsFrame (w limit : Nat) (payload frame : List UInt8) : Prop where
  pos : 1 ≤ payload.length
  le : payload.length ≤ limit
  eq : frame = bigEndian w payload.length ++ payload

section

variable {w limit : Nat} {payload frame : List UInt8}

/-- A frame is its payload and the `w` bytes of its length. -/
theorem IsFrame.length (h : IsFrame w limit payload frame) :
    frame.length = w + payload.length := by
  rw [h.eq, List.length_append, length_bigEndian]

/-- A payload within the limit has a frame. -/
theorem exists_isFrame_iff :
    (∃ frame, IsFrame w limit payload frame) ↔ 1 ≤ payload.length ∧ payload.length ≤ limit := by
  constructor
  · intro ⟨_, h⟩
    exact ⟨h.pos, h.le⟩
  · intro ⟨hpos, hle⟩
    exact ⟨_, hpos, hle, rfl⟩

/-- The length in front of a frame. -/
theorem IsFrame.ofBigEndian_take (hlimit : limit < 256 ^ w)
    (h : IsFrame w limit payload frame) : ofBigEndian (frame.take w) = payload.length := by
  have htake : frame.take w = bigEndian w payload.length := by
    rw [h.eq]
    exact List.take_left' (length_bigEndian ..)
  rw [htake]
  exact ofBigEndian_bigEndian (Nat.lt_of_le_of_lt h.le hlimit)

/-- A frame as its reader sees it: the length in front is within the limit, it counts the bytes
that follow, and they are the payload. -/
theorem isFrame_iff (hlimit : limit < 256 ^ w) :
    IsFrame w limit payload frame ↔
      w ≤ frame.length ∧ 1 ≤ ofBigEndian (frame.take w) ∧ ofBigEndian (frame.take w) ≤ limit ∧
        frame.length = w + ofBigEndian (frame.take w) ∧ frame.drop w = payload := by
  constructor
  · intro h
    have hlength := h.length
    rw [h.ofBigEndian_take hlimit]
    refine ⟨by omega, h.pos, h.le, hlength, ?_⟩
    rw [h.eq]
    exact List.drop_left' (length_bigEndian ..)
  · intro ⟨hle, hpos, hbound, hlength, hdrop⟩
    have hpayload : payload.length = ofBigEndian (frame.take w) := by
      rw [← hdrop, List.length_drop]
      omega
    refine ⟨by omega, by omega, ?_⟩
    -- The first `w` bytes are what the writer puts in front.
    have htake : (frame.take w).length = w := List.length_take_of_le hle
    have hfront := bigEndian_ofBigEndian (frame.take w)
    rw [htake, ← hpayload] at hfront
    rw [hfront, ← hdrop]
    exact (List.take_append_drop w frame).symm

/-- No frame is a proper beginning of another one. -/
theorem IsFrame.eq_of_append (hlimit : limit < 256 ^ w) {payload' rest : List UInt8}
    (h : IsFrame w limit payload frame) (h' : IsFrame w limit payload' (frame ++ rest)) :
    rest = [] := by
  have hsame : ofBigEndian ((frame ++ rest).take w) = ofBigEndian (frame.take w) := by
    rw [List.take_append_of_le_length (by rw [h.length]; omega)]
  rw [h.ofBigEndian_take hlimit, h'.ofBigEndian_take hlimit] at hsame
  have hlength := h'.length
  rw [List.length_append, h.length, hsame] at hlength
  exact List.eq_nil_of_length_eq_zero (by omega)

end

end Framing
