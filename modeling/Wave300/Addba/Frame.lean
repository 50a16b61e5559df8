import Wave300.Addba.Handlers

/-!
# Block ack action frames

The way of a block ack action frame through `mtlk_process_man_frame` in `frame.c`. The frame
is what memory holds from the start of the buffer on: the length is not looked at. The other
frame types and categories are left out.
-/

namespace Wave300.Addba

/-- A 16-bit field, which is little endian on the air. -/
def le16 (frame : Nat → UInt8) (i : Nat) : Nat := (frame i).toNat + 256 * (frame (i + 1)).toNat

/-- `MTLK_U_BITS_GET` -/
def bitsGet (v start len : Nat) : Nat := v / 2 ^ start % 2 ^ len

/-- The size of `frame_head_t`. -/
def frameHeadSize : Nat := 24

/-- `IEEE80211_CCMP_HEADER_LEN` -/
def ccmpHeaderLen : Nat := 8

/-- `MAN_TYPE_ACTION` -/
def manTypeAction : Nat := 13

/-- `ACTION_FRAME_CATEGORY_BLOCK_ACK` -/
def categoryBlockAck : Nat := 3

/-- The handler a block ack frame ends up in, with its arguments. -/
inductive BaFrame where
  | addbaReq (tid : Nat) (req : AddbaReq)
  | addbaRes (resCode tid winSizeRsp dlgt : Nat)
  | delba (tid resCode : Nat) (initiator : Bool)
  deriving DecidableEq, Repr

/-- `ADDBA_PARAM_SET_SIZE` of the request whose body starts at `body`. -/
def addbaReqSize (frame : Nat → UInt8) (body : Nat) : Nat := bitsGet (le16 frame (body + 1)) 6 10

/-- `mtlk_process_action_frame_block_ack`, for a known station. The size is cut to a byte. -/
def processActionFrameBlockAck (frame : Nat → UInt8) (fbuf : Nat) : Option BaFrame :=
  let body := fbuf + 1
  match (frame fbuf).toNat with
  | 0 =>
    let paramSet := le16 frame (body + 1)
    some (.addbaReq (bitsGet paramSet 2 4)
      { ssn := bitsGet (le16 frame (body + 5)) 4 12
        winSize := addbaReqSize frame body % 256
        dlgt := (frame body).toNat
        tmout := le16 frame (body + 3)
        ackPolicy := bitsGet paramSet 1 1
        rate := rateAdaptive })
  | 1 =>
    let paramSet := le16 frame (body + 3)
    some (.addbaRes (le16 frame (body + 1)) (bitsGet paramSet 2 4) (bitsGet paramSet 6 10 % 256)
      (frame body).toNat)
  | 2 =>
    let paramSet := le16 frame body
    some (.delba (bitsGet paramSet 12 4) (le16 frame (body + 2))
      (decide (bitsGet paramSet 11 1 ≠ 0)))
  | _ => none

/-- Where the payload of a management frame starts. -/
def payload (frame : Nat → UInt8) : Nat :=
  frameHeadSize + if bitsGet (le16 frame 0) 14 1 ≠ 0 then ccmpHeaderLen else 0

/-- The part of `mtlk_process_man_frame` that block ack frames go through. `sta` says whether
the sender is known and `replay` what `detect_replay` finds in a protected frame. -/
def processManFrame (sta replay : Bool) (frame : Nat → UInt8) : Option BaFrame :=
  let frameCtrl := le16 frame 0
  let protectedFrame := decide (bitsGet frameCtrl 14 1 ≠ 0)
  if protectedFrame && (!sta || replay) then none
  else if bitsGet frameCtrl 4 4 ≠ manTypeAction then none
  else if (frame (payload frame)).toNat ≠ categoryBlockAck then none
  else if sta then processActionFrameBlockAck frame (payload frame + 1)
  else none

/-- The body of a block ack frame, behind the category and the action. -/
def baBody (frame : Nat → UInt8) : Nat := payload frame + 2

/-- What `mtlk_process_man_frame` hands on of a request is what the frame says, but for the
size. -/
theorem processManFrame_addbaReq {sta replay : Bool} {frame : Nat → UInt8} {tid : Nat}
    {req : AddbaReq} (h : processManFrame sta replay frame = some (.addbaReq tid req)) :
    req.winSize = addbaReqSize frame (baBody frame) % 256 ∧ req.rate = rateAdaptive := by
  unfold processManFrame at h
  simp only at h
  split at h
  · cases h
  · split at h
    · cases h
    · split at h
      · cases h
      · split at h
        · unfold processActionFrameBlockAck at h
          simp only at h
          split at h
          · cases h
            exact ⟨rfl, rfl⟩
          · cases h
          · cases h
          · cases h
        · cases h

end Wave300.Addba
