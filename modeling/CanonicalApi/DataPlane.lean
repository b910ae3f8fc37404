import CanonicalApi.Lib.Framing

/-!
# `CanonicalApi.DataPlane`: the data paths between web and API

The part of `web_data_plane` that computes on data: the frames of the stateful TCP path and the
receipts of the asynchronous path.

A length is a natural number. Where the source adds to a length, the sum must fit into `usize`:
`usizeAdd` gives nothing otherwise, and a frame function that gives nothing has overflowed.
-/

set_option autoImplicit false

namespace CanonicalApi

namespace DataPlane

/-! ### Receipts -/

/-- Where an asynchronous operation stands. -/
inductive AsyncStatus where
  | pending
  | published
  | processing
  | succeeded
  | failed
  | deadLetter
deriving DecidableEq, Repr

/-- The errors of frames and receipts. -/
inductive DataPlaneError where
  | frameSize
  | invalidStatusTransition (origin target : AsyncStatus)
deriving DecidableEq, Repr

/-- The moves that `can_transition_to` allows. A failed operation may be published again;
`succeeded` and `deadLetter` allow nothing more. -/
def AsyncStatus.canTransitionTo : AsyncStatus → AsyncStatus → Bool
  | .pending, .published => true
  | .published, .processing => true
  | .processing, .succeeded | .processing, .failed => true
  | .failed, .published | .failed, .deadLetter => true
  | _, _ => false

/-- The greatest `u16`. -/
def u16Max : Nat := 65535

/-- `u16::saturating_add`. -/
def saturatingAdd (a b : Nat) : Nat := min (a + b) u16Max

/-- The receipt of an asynchronous operation. -/
structure AsyncReceipt where
  operationId : String
  dedupeKey : String
  status : AsyncStatus
  attempt : Nat
  metadata : List (String × String)
deriving DecidableEq, Repr

/-- The receipt in its next status. An attempt is counted when its processing starts; the counter
is a `u32` and saturates. -/
def AsyncReceipt.transition (receipt : AsyncReceipt) (next : AsyncStatus) :
    Except DataPlaneError AsyncReceipt :=
  if receipt.status.canTransitionTo next = false then
    .error (.invalidStatusTransition receipt.status next)
  else
    .ok { receipt with
      status := next
      attempt := saturatingAdd receipt.attempt (if next = .processing then 1 else 0) }

/-! ### Frames -/

/-- `MAX_FRAME_BYTES`. -/
def maxFrameBytes : Nat := 256 * 1024

/-- A sum in `usize`. -/
def usizeAdd (a b : Nat) : Option Nat :=
  if a + b < USize.size then some (a + b) else none

/-- `u32::to_be_bytes`. -/
def toBeBytes (n : UInt32) : List UInt8 :=
  Framing.bigEndian 4 n.toNat

/-- `u32::from_be_bytes`. -/
def fromBeBytes (word : List UInt8) : UInt32 :=
  UInt32.ofNat (Framing.ofBigEndian word)

/-- The frame of a payload. The capacity of the buffer is a sum in `usize`. -/
def encodeFrame (payload : List UInt8) (maximum : Nat) :
    Option (Except DataPlaneError (List UInt8)) :=
  let maximum := min maximum maxFrameBytes
  if payload = [] ∨ maximum < payload.length ∨ UInt32.size - 1 < payload.length then
    some (.error .frameSize)
  else do
    let _capacity ← usizeAdd 4 payload.length
    return .ok (toBeBytes (UInt32.ofNat payload.length) ++ payload)

/-- `frame.get(..4)`. -/
def lengthPrefix (frame : List UInt8) : Option (List UInt8) :=
  if 4 ≤ frame.length then some (frame.take 4) else none

/-- The payload of a frame. The sum of the last test is computed only for a length that passes
the tests before it. -/
def decodeFrame (frame : List UInt8) (maximum : Nat) :
    Option (Except DataPlaneError (List UInt8)) :=
  match (lengthPrefix frame).map fromBeBytes with
  | none => some (.error .frameSize)
  | some length =>
      let length := length.toNat
      let maximum := min maximum maxFrameBytes
      if length = 0 ∨ maximum < length then some (.error .frameSize)
      else do
        let total ← usizeAdd 4 length
        if frame.length ≠ total then return .error .frameSize
        else return .ok (frame.drop 4)

end DataPlane

end CanonicalApi
