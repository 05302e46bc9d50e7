import SerialNet.Flash.Nor
import SerialNet.Lib.Window

namespace SerialNet

/-!
# `app_main.c` — firmware update over TCP

`FwUpgradeProcess` announces a file, `OtaDataThread` receives it in sectors of 4096 bytes, writes
each one to the backup area of the flash and, when all bytes are there, copies the backup area
over the main image.

What `recv` delivers comes from the sender: the data arrive in segments, and one `recv` returns
at most what it was asked for of the first segment.
-/

/-- `NVM_FW_MAIN_OFFSET`, the area of the firmware that is started. -/
def nvmFwMainOffset : ℕ := 0
/-- `NVM_FW_BAK_OFFSET`, the area of the backup. -/
def nvmFwBakOffset : ℕ := 212992
/-- `FW_IMG_SIZE_MAX`, the length of an area. -/
def fwImgSizeMax : ℕ := 196608

/-- `UPGRADE_START`: an upgrade has been asked for. -/
def upgradeStart : ℕ := 1
/-- `UPGRADE_DOING`: the file is being received. -/
def upgradeDoing : ℕ := 4
/-- `UPGRADE_OKFILE`: all of the file is in the flash. -/
def upgradeOkfile : ℕ := 8
/-- `UPGRADE_DONE`: the upgrade is over. -/
def upgradeDone : ℕ := 16

/-- The static variables of the update, `ret` of `OtaDataThread`, and the flash. -/
structure OtaState where
  otaDataBuf : List UInt8
  writePtr : ℕ
  upgradeFlag : ℕ
  fileSize : ℕ
  recvFileSize : ℕ
  upgradeSector : ℕ
  ret : ℤ
  flash : Flash

/-- How one turn of the receive loop ends. -/
inductive OtaNext where
  /-- The loop goes on. -/
  | more
  /-- The connection is closed without success. -/
  | closed
  /-- `FwUpgradeFinishAck` reports success. -/
  | updated
deriving DecidableEq

/-! ### The code -/

/-- `FwUpgradeProcess`; `acked` says that the acknowledgement could be sent. -/
def fwUpgradeProcess (s : OtaState) (fileSize : ℕ) (acked : Bool) : OtaState :=
  let s : OtaState := { s with upgradeFlag := s.upgradeFlag ||| upgradeStart, fileSize := fileSize }
  if acked then s else { s with upgradeFlag := 0 }

/-- The start of a turn: the counters are reset at the first turn of an update. -/
def otaBegin (s : OtaState) : OtaState :=
  if s.upgradeFlag &&& upgradeDoing = 0 then
    -- `upgradeSector` keeps what an earlier connection left in it.
    { s with writePtr := 0, recvFileSize := 0, upgradeFlag := s.upgradeFlag ||| upgradeDoing }
  else s

/-- The loop that copies `n` more sectors, from sector `i` on, over the main image. -/
def otaReplace : ℕ → ℕ → OtaState → OtaState
  | 0, _, s => s
  | n + 1, i, s =>
    let buf := qSpiFlashRead s.flash (u32 (nvmFwBakOffset + i * flashSectorSize)) flashSectorSize
    let s : OtaState := { s with otaDataBuf := buf }
    let r := qSpiWriteOneSector s.flash (u32 (nvmFwMainOffset + i * flashSectorSize)) s.otaDataBuf
    -- `break` of the inner loop: the sectors before this one are already replaced.
    if r.2 ≠ 0 then { s with flash := r.1, upgradeFlag := 0, ret := -1 }
    else otaReplace n (i + 1) { s with flash := r.1 }

/-- All bytes are there: the last sector is written and the backup area copied. -/
def otaFinish (s : OtaState) : OtaState × OtaNext :=
  let s : OtaState := { s with upgradeFlag := s.upgradeFlag ||| upgradeOkfile }
  let r := qSpiWriteOneSector s.flash
    (u32 (nvmFwBakOffset + s.upgradeSector * flashSectorSize)) s.otaDataBuf
  if r.2 ≠ 0 then ({ s with flash := r.1, upgradeFlag := 0 }, .closed)
  else
    let s : OtaState := { s with
      flash := r.1, upgradeSector := u32 (s.upgradeSector + 1), writePtr := 0 }
    -- The backup area is copied from its first sector on, wherever this file starts in it.
    let s := otaReplace s.upgradeSector 0 s
    if s.ret < 0 then (s, .closed)
    else
      let s : OtaState := { s with
        -- The only place where `upgradeSector` is set back.
        upgradeFlag := s.upgradeFlag ||| upgradeDone, upgradeSector := 0, recvFileSize := 0 }
      ({ s with upgradeFlag := 0 }, .updated)

/-- Bytes are missing: a full buffer is written to the next sector. -/
def otaWriteSector (s : OtaState) : OtaState × OtaNext :=
  if s.writePtr = flashSectorSize then
    let r := qSpiWriteOneSector s.flash
      (u32 (nvmFwBakOffset + s.upgradeSector * flashSectorSize)) s.otaDataBuf
    if r.2 ≠ 0 then ({ s with flash := r.1, upgradeFlag := 0 }, .closed)
    else ({ s with flash := r.1, upgradeSector := u32 (s.upgradeSector + 1), writePtr := 0 }, .more)
  else (s, .more)

/-- What `OtaDataThread` does with the bytes that `recv` returned; none of them means that the
    connection is lost. -/
def otaReceived (s : OtaState) (bytes : List UInt8) : OtaState × OtaNext :=
  if bytes = [] then ({ s with upgradeFlag := 0 }, .closed)
  else
    let s : OtaState := { s with
      otaDataBuf := writeAt s.otaDataBuf s.writePtr bytes
      recvFileSize := u32 (s.recvFileSize + bytes.length)
      writePtr := u32 (s.writePtr + bytes.length) }
    -- At the last byte the buffer is written by `otaFinish`, full or not.
    if s.recvFileSize = s.fileSize then otaFinish s else otaWriteSector s

/-- `recv`: at most `len` bytes of the first segment, and what is left; nothing when the
    connection is lost. -/
def recvSegment (segments : List (List UInt8)) (len : ℕ) : List UInt8 × List (List UInt8) :=
  match segments with
  | [] => ([], [])
  | segment :: rest =>
      (segment.take len, if len < segment.length then segment.drop len :: rest else rest)

/-- What `recv` returns and what it leaves are the segments. -/
theorem recvSegment_flatten (segments : List (List UInt8)) (len : ℕ) :
    (recvSegment segments len).1 ++ (recvSegment segments len).2.flatten = segments.flatten := by
  cases segments with
  | nil => rfl
  | cons segment rest =>
    simp only [recvSegment]
    split
    · rw [List.flatten_cons, ← List.append_assoc, List.take_append_drop, List.flatten_cons]
    · rw [List.take_of_length_le (by omega), List.flatten_cons]

/-- The receive loop of `OtaDataThread` for one connection, and whether it reports success. -/
def otaDataLoop (s : OtaState) (segments : List (List UInt8)) : OtaState × Bool :=
  -- A connection that no announcement precedes is closed at once.
  if s.upgradeFlag &&& upgradeStart = 0 then (s, false)
  else
    let s := otaBegin s
    let r := recvSegment segments (flashSectorSize - s.writePtr)
    let next := otaReceived s r.1
    if r.1 = [] then (next.1, false)
    else match next.2 with
      | .more => otaDataLoop next.1 r.2
      | .closed => (next.1, false)
      | .updated => (next.1, true)
termination_by segments.flatten.length
decreasing_by
  -- Each turn that goes on has taken at least one byte from the segments.
  have hlength : (r.1 ++ r.2.flatten).length = segments.flatten.length :=
    congrArg List.length (recvSegment_flatten segments _)
  rw [List.length_append] at hlength
  have hpos : 0 < r.1.length := List.length_pos_of_ne_nil (by assumption)
  show r.2.flatten.length < segments.flatten.length
  omega

/-! ### Transfers -/

/-- One attempt to send a file: it is announced, the announcement may fail to be acknowledged,
    the connection may never come about, or be lost after any part of the file has arrived, in
    any segments. -/
structure Transfer where
  file : List UInt8
  acked : Bool
  connects : Bool
  segments : List (List UInt8)
  size : 1 ≤ file.length ∧ file.length ≤ fwImgSizeMax
  sent : segments.flatten <+: file
  nonempty : ∀ segment ∈ segments, segment ≠ []

/-- The whole file arrives. -/
def Transfer.Completed (t : Transfer) : Prop :=
  t.acked ∧ t.connects ∧ t.segments.flatten = t.file

/-- One transfer, and whether `OtaDataThread` reports success. -/
def otaTransfer (s : OtaState) (t : Transfer) : OtaState × Bool :=
  let s := fwUpgradeProcess s t.file.length t.acked
  if t.connects then otaDataLoop s t.segments else (s, false)

/-- No update is going on; `flash` may have any content, the buffer too. -/
def otaBoot (buf : List UInt8) (flash : Flash) : OtaState :=
  { otaDataBuf := buf, writePtr := 0, upgradeFlag := 0, fileSize := 0, recvFileSize := 0
    upgradeSector := 0, ret := 0, flash := flash }

end SerialNet
