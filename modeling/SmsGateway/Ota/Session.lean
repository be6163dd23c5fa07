import SmsGateway.Codec.Octets
import SmsGateway.Ota.Version

/-! Firmware uploads (`ota_service.c`).

The flash and the hash are outside: their calls are logged and answered. The hash
operation is the bytes that were fed to it. -/

namespace SmsGateway.Ota

/-- `esp_err_t`. -/
abbrev EspErr := Int

def espOk : EspErr := 0
def espFail : EspErr := -1
def espErrNoMem : EspErr := 0x101
def espErrInvalidArg : EspErr := 0x102
def espErrInvalidState : EspErr := 0x103
def espErrOtaValidateFailed : EspErr := 0x1503

def gatewayOtaErrBase : EspErr := 0x7A00
def gatewayOtaErrHashMismatch : EspErr := gatewayOtaErrBase + 1
def gatewayOtaErrProjectMismatch : EspErr := gatewayOtaErrBase + 2
def gatewayOtaErrVersionFormat : EspErr := gatewayOtaErrBase + 3
def gatewayOtaErrReinstallRejected : EspErr := gatewayOtaErrBase + 4
def gatewayOtaErrDowngradeRejected : EspErr := gatewayOtaErrBase + 5
def gatewayOtaErrSecureVersion : EspErr := gatewayOtaErrBase + 6
def gatewayOtaErrPendingVerify : EspErr := gatewayOtaErrBase + 7
def gatewayOtaErrImageSize : EspErr := gatewayOtaErrBase + 8

/-- `err >= GATEWAY_OTA_ERR_BASE && err <= GATEWAY_OTA_ERR_IMAGE_SIZE`. -/
def isRejection (err : EspErr) : Bool :=
  decide (gatewayOtaErrBase ≤ err ∧ err ≤ gatewayOtaErrImageSize)

/-- `sizeof(esp_image_header_t) + sizeof(esp_image_segment_header_t)`. -/
def descOffset : Nat := 24 + 8

/-- `OTA_PREFIX_REQUIRED`. -/
def otaPrefixRequired : Nat := descOffset + 256

def otaExpectedProject : CStr := .text "esp32_sms_gateway"

/-- The fields of `esp_app_desc_t` that are read; the texts are arrays of 32 bytes. -/
structure AppDesc where
  magicWord : UInt32
  secureVersion : UInt32
  version : List UInt8
  projectName : List UInt8
  deriving DecidableEq, Repr

/-- `ESP_APP_DESC_MAGIC_WORD`. -/
def espAppDescMagicWord : UInt32 := 0xABCD5432

def littleEndian (bytes : List UInt8) : UInt32 :=
  bytes.foldr (fun byte rest => rest <<< 8 ||| byte.toUInt32) 0

/-- The descriptor whose bytes these are. -/
def AppDesc.ofBytes (bytes : List UInt8) : AppDesc where
  magicWord := littleEndian (bytes.take 4)
  secureVersion := littleEndian ((bytes.drop 4).take 4)
  version := (bytes.drop 16).take 32
  projectName := (bytes.drop 48).take 32

/-- The last byte of both texts is a terminator. -/
def AppDesc.terminate (desc : AppDesc) : AppDesc :=
  { desc with
    version := desc.version.take 31 ++ [0]
    projectName := desc.projectName.take 31 ++ [0] }

/-- `strncmp(a, b, 32) == 0` of two such texts. -/
def sameText (a b : List UInt8) : Bool := decide (CStr.ofBytes a = CStr.ofBytes b)

structure Partition where
  size : Nat
  label : CStr
  deriving DecidableEq, Repr

/-- `gateway_ota_session`. The hash operation is active from the start on; `hashed` is
what it was fed. -/
structure Session where
  partition : Partition
  otaStarted : Bool
  hashActive : Bool
  hashed : List UInt8
  expectedSize : Nat
  received : Nat
  expectedHash : List UInt8
  prefixBytes : List UInt8
  allowReinstall : Bool
  allowDowngrade : Bool
  lastError : EspErr
  candidate : AppDesc
  deriving DecidableEq, Repr

/-- `gateway_ota_diagnostics_t`, as far as uploads change it. -/
structure Diagnostics where
  updateInProgress : Bool
  uploadAttempts : UInt32
  uploadSuccesses : UInt32
  uploadRejections : UInt32
  uploadFailures : UInt32
  lastError : EspErr
  lastCandidateVersion : CStr
  deriving DecidableEq, Repr

/-- The calls to the flash and to the hash. -/
inductive Call where
  | otaBegin (size : Nat)
  | otaWrite (bytes : List UInt8)
  | otaEnd
  | otaAbort
  | otaSetBootPartition
  | hashSetup
  | hashUpdate (bytes : List UInt8)
  | hashFinish
  | hashAbort
  deriving DecidableEq, Repr

/-- What `gateway_ota_write` is answered; `running` is the description of the running
image. -/
structure WriteAnswers where
  hashUpdate : Bool
  running : Option AppDesc
  otaBegin : EspErr
  otaWritePrefix : EspErr
  otaWrite : EspErr
  deriving DecidableEq, Repr

structure FinishAnswers where
  hashFinish : Bool
  otaEnd : EspErr
  description : EspErr × AppDesc
  setBoot : EspErr
  deriving DecidableEq, Repr

/-- A live session with the diagnostics and the calls so far. -/
structure Upload where
  session : Session
  diag : Diagnostics
  calls : List Call
  deriving DecidableEq, Repr

def Upload.call (u : Upload) (call : Call) : Upload := { u with calls := u.calls ++ [call] }

def decisionError : VersionDecision → EspErr
  | .rejectProject => gatewayOtaErrProjectMismatch
  | .rejectFormat => gatewayOtaErrVersionFormat
  | .rejectReinstall => gatewayOtaErrReinstallRejected
  | .rejectDowngrade => gatewayOtaErrDowngradeRejected
  | .rejectSecureVersion => gatewayOtaErrSecureVersion
  | .accept => espOk

/-- The descriptor in the first bytes of an image. -/
def candidateOf (prefixBytes : List UInt8) : AppDesc :=
  (AppDesc.ofBytes ((prefixBytes.drop descOffset).take 256)).terminate

/-- The checks of `validate_prefix_and_start` before the flash is touched. -/
def checkCandidate (session : Session) (running : Option AppDesc) : EspErr :=
  let candidate := candidateOf session.prefixBytes
  if candidate.magicWord ≠ espAppDescMagicWord then espErrOtaValidateFailed
  else match running with
    | none => espFail
    | some running =>
        decisionError (otaVersionPolicyDecide otaExpectedProject (.ofBytes running.version)
          running.secureVersion (.ofBytes candidate.projectName) (.ofBytes candidate.version)
          candidate.secureVersion session.allowReinstall session.allowDowngrade)

def validatePrefixAndStart (u : Upload) (a : WriteAnswers) : EspErr × Upload :=
  let err := checkCandidate u.session a.running
  if err ≠ espOk then (err, u)
  else
    let u := u.call (.otaBegin u.session.expectedSize)
    if a.otaBegin ≠ espOk then (a.otaBegin, u)
    else
      let u := { u with session := { u.session with otaStarted := true } }
      let u := u.call (.otaWrite u.session.prefixBytes)
      if a.otaWritePrefix ≠ espOk then (a.otaWritePrefix, u)
      else
        let candidate := candidateOf u.session.prefixBytes
        (espOk, { u with
          session := { u.session with candidate := candidate }
          diag := { u.diag with lastCandidateVersion := .ofBytes candidate.version } })

/-- `session->last_error = err; return err;`. -/
def Upload.fail (u : Upload) (err : EspErr) : EspErr × Upload :=
  (err, { u with session := { u.session with lastError := err } })

/-- The part of `gateway_ota_write` that completes the first bytes of the image: the
result, and how much of the data it took. -/
def bufferPrefix (u : Upload) (data : List UInt8) (a : WriteAnswers) : EspErr × Nat × Upload :=
  if u.session.otaStarted then (espOk, 0, u)
  else
    let need := otaPrefixRequired - u.session.prefixBytes.length
    let copy := if data.length < need then data.length else need
    let u := { u with
      session := { u.session with prefixBytes := u.session.prefixBytes ++ data.take copy } }
    if u.session.prefixBytes.length = otaPrefixRequired then
      let (err, u) := validatePrefixAndStart u a
      (err, copy, u)
    else (espOk, copy, u)

def gatewayOtaWrite (u : Upload) (data : List UInt8) (a : WriteAnswers) : EspErr × Upload :=
  if data = [] then (espErrInvalidArg, u)
  else if u.session.received > u.session.expectedSize ∨
      data.length > u.session.expectedSize - u.session.received then u.fail gatewayOtaErrImageSize
  else
    let u := u.call (.hashUpdate data)
    if !a.hashUpdate then u.fail espFail
    else
      let u := { u with session := { u.session with hashed := u.session.hashed ++ data } }
      let (err, consumed, u) := bufferPrefix u data a
      if err ≠ espOk then u.fail err
      else
        let (err, u) :=
          if u.session.otaStarted ∧ consumed < data.length then
            (a.otaWrite, u.call (.otaWrite (data.drop consumed)))
          else (espOk, u)
        if err ≠ espOk then u.fail err
        else (espOk, { u with
          session := { u.session with received := u.session.received + data.length } })

/-- The calls of `session_release`, and the diagnostics behind it; the session is gone. -/
def sessionRelease (u : Upload) (abortOta : Bool) : Diagnostics × List Call :=
  let u := if abortOta ∧ u.session.otaStarted then u.call .otaAbort else u
  let u := if u.session.hashActive then u.call .hashAbort else u
  ({ u.diag with updateInProgress := false }, u.calls)

/-- `gateway_ota_result_t`. -/
structure OtaResult where
  version : CStr
  projectName : CStr
  partition : CStr
  sha256 : List UInt8
  imageSize : Nat
  deriving DecidableEq, Repr

/-- `constant_equal` of two arrays of one length. -/
def constantEqual (a b : List UInt8) : Bool :=
  (a.zip b).foldl (fun diff (pair : UInt8 × UInt8) => diff ||| (pair.1 ^^^ pair.2)) 0 == 0

/-- `hex_encode` with small letters. -/
def hexEncode32 (digest : List UInt8) : List UInt8 :=
  let digit (value : Nat) : UInt8 :=
    if value < 10 then UInt8.ofNat (0x30 + value) else UInt8.ofNat (0x61 + (value - 10))
  digest.flatMap fun (byte : UInt8) => [digit (byte >>> 4).toNat, digit (byte &&& 0x0F).toNat]

def hexDecode32 (text : CStr) : Option (List UInt8) :=
  if text.length ≠ 64 then none else hexPairs text.bytes

/-- The part of `gateway_ota_finish` before `done`. -/
def finishImage (sha256 : List UInt8 → List UInt8) (u : Upload) (a : FinishAnswers) :
    EspErr × Option OtaResult × Upload :=
  if u.session.received ≠ u.session.expectedSize ∨ !u.session.otaStarted then
    (gatewayOtaErrImageSize, none, u)
  else
    let u := u.call .hashFinish
    let digest := sha256 u.session.hashed
    if !a.hashFinish ∨ digest.length ≠ 32 then (espFail, none, u)
    else
      let u := { u with session := { u.session with hashActive := false } }
      if !constantEqual digest u.session.expectedHash then (gatewayOtaErrHashMismatch, none, u)
      else
        let u := u.call .otaEnd
        let u := { u with session := { u.session with otaStarted := false } }
        if a.otaEnd ≠ espOk then (a.otaEnd, none, u)
        else
          let (err, written) := a.description
          if err ≠ espOk then (err, none, u)
          else if written.magicWord ≠ espAppDescMagicWord ∨
              !sameText written.projectName u.session.candidate.projectName ∨
              !sameText written.version u.session.candidate.version then
            (espErrOtaValidateFailed, none, u)
          else
            let u := u.call .otaSetBootPartition
            if a.setBoot ≠ espOk then (a.setBoot, none, u)
            else
              (espOk, some ⟨.ofBytes written.version, .ofBytes written.projectName,
                u.session.partition.label, hexEncode32 digest, u.session.expectedSize⟩, u)

/-- The counter of a finished upload. -/
def Diagnostics.record (diag : Diagnostics) (err : EspErr) : Diagnostics :=
  let diag := { diag with lastError := err }
  if isRejection err then { diag with uploadRejections := diag.uploadRejections + 1 }
  else { diag with uploadFailures := diag.uploadFailures + 1 }

def gatewayOtaFinish (sha256 : List UInt8 → List UInt8) (u : Upload) (a : FinishAnswers) :
    EspErr × Option OtaResult × Diagnostics × List Call :=
  let (err, result, u) := finishImage sha256 u a
  let u :=
    if err = espOk then
      { u with diag := { u.diag with
          lastError := err
          uploadSuccesses := u.diag.uploadSuccesses + 1
          lastCandidateVersion := .ofBytes u.session.candidate.version } }
    else { u with diag := u.diag.record err }
  (err, result, sessionRelease u (err ≠ espOk))

def gatewayOtaAbort (u : Upload) : Diagnostics × List Call :=
  let err := if u.session.lastError ≠ espOk then u.session.lastError else espFail
  sessionRelease { u with diag := u.diag.record err } true

/-- `gateway_ota_request_t`. -/
structure Request where
  imageSize : Nat
  sha256Hex : CStr
  allowReinstall : Bool
  allowDowngrade : Bool
  deriving DecidableEq, Repr

structure BeginAnswers where
  pendingVerify : Bool
  partition : Option Partition
  calloc : Bool
  hashSetup : Bool
  deriving DecidableEq, Repr

/-- The session that `gateway_ota_begin` builds. -/
def freshSession (request : Request) (partition : Partition) (hash : List UInt8) : Session where
  partition := partition
  otaStarted := false
  hashActive := false
  hashed := []
  expectedSize := request.imageSize
  received := 0
  expectedHash := hash
  prefixBytes := []
  allowReinstall := request.allowReinstall
  allowDowngrade := request.allowDowngrade
  lastError := espOk
  candidate := ⟨0, 0, [], []⟩

/-- The result, and the session when there is one. -/
def gatewayOtaBegin (diag : Diagnostics) (calls : List Call) (request : Request)
    (a : BeginAnswers) : EspErr × Option Session × Diagnostics × List Call :=
  match hexDecode32 request.sha256Hex with
  | none => (espErrInvalidArg, none, diag, calls)
  | some hash =>
      if a.pendingVerify then (gatewayOtaErrPendingVerify, none, diag, calls)
      else match a.partition with
        | none => (gatewayOtaErrImageSize, none, diag, calls)
        | some partition =>
            if request.imageSize < otaPrefixRequired ∨ request.imageSize > partition.size then
              (gatewayOtaErrImageSize, none, diag, calls)
            else if diag.updateInProgress then (espErrInvalidState, none, diag, calls)
            else
              let diag := { diag with
                updateInProgress := true
                uploadAttempts := diag.uploadAttempts + 1 }
              if !a.calloc then
                (espErrNoMem, none, { diag with
                  updateInProgress := false
                  uploadFailures := diag.uploadFailures + 1
                  lastError := espErrNoMem }, calls)
              else
                let session := freshSession request partition hash
                let calls := calls ++ [.hashSetup]
                if !a.hashSetup then
                  let diag := { diag with
                    uploadFailures := diag.uploadFailures + 1
                    lastError := espFail }
                  (espFail, none, sessionRelease ⟨session, diag, calls⟩ false)
                else (espOk, some { session with hashActive := true }, diag, calls)

end SmsGateway.Ota
