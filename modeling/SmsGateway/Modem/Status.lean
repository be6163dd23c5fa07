import SmsGateway.At.Protocol

/-! The status lines of the modem (`modem_status.c`) and the recovery policy
(`modem_recovery_policy.c`). A cursor is the rest of the line. -/

namespace SmsGateway.Modem

open At

/-- `modem_sim_state_t`. -/
inductive SimState where
  | unknown
  | ready
  | pinRequired
  | pukRequired
  | notInserted
  | blocked
  | error
  deriving DecidableEq, Repr

/-- `modem_registration_status_t`. -/
inductive RegistrationStatus where
  | unknown
  | notRegistered
  | home
  | searching
  | denied
  | unknownNetwork
  | roaming
  deriving DecidableEq, Repr

/-- `modem_registration_t`. -/
structure Registration where
  status : RegistrationStatus
  accessTechnology : Int
  deriving DecidableEq, Repr

/-- `modem_signal_t`. -/
structure Signal where
  rssi : Int
  rssiDbm : Int
  ber : Int
  deriving DecidableEq, Repr

/-- `modem_operator_t`. -/
structure Operator where
  mode : Int
  format : Int
  name : CString 64
  accessTechnology : Int
  deriving DecidableEq, Repr

def comma : UInt8 := 0x2C

def quote : UInt8 := 0x22

def skipSpace (cursor : List UInt8) : List UInt8 := cursor.dropWhile isBlank

/-- The number and the cursor behind it. `int` and `long` have the same range on the
target. -/
def parseInt (cursor : List UInt8) : Option (Int × List UInt8) :=
  match strtol (skipSpace cursor) with
  | none => none
  | some (parsed, rest) =>
      if parsed < longMin ∨ parsed > longMax then none else some (parsed, rest)

def consumeChar (cursor : List UInt8) (expected : UInt8) : Option (List UInt8) :=
  match skipSpace cursor with
  | ch :: rest => if ch = expected then some rest else none
  | [] => none

def modemStatusParseCpin (line : CStr) : Option SimState :=
  if !line.startsWith (.text "+CPIN:") then none
  else
    let value := skipSpace (line.bytes.drop 6)
    if value = (CStr.text "READY").bytes then some .ready
    else if value = (CStr.text "SIM PIN").bytes then some .pinRequired
    else if value = (CStr.text "SIM PUK").bytes then some .pukRequired
    else if value = (CStr.text "NOT INSERTED").bytes ∨
        value = (CStr.text "SIM NOT INSERTED").bytes then some .notInserted
    else if value = (CStr.text "SIM BLOCK").bytes ∨ value = (CStr.text "SIM BLOCKED").bytes then
      some .blocked
    else some .error

/-- `INT16_MIN`. -/
def int16Min : Int := -32768

def modemStatusParseCsq (line : CStr) : Option Signal := do
  if !line.startsWith (.text "+CSQ:") then none
  else
    let (rssi, cursor) ← parseInt (line.bytes.drop 5)
    let cursor ← consumeChar cursor comma
    let (ber, cursor) ← parseInt cursor
    if skipSpace cursor ≠ [] ∨ ¬ ((0 ≤ rssi ∧ rssi ≤ 31) ∨ rssi = 99) ∨
        ¬ ((0 ≤ ber ∧ ber ≤ 7) ∨ ber = 99) then none
    else some ⟨rssi, if rssi = 99 then int16Min else -113 + 2 * rssi, ber⟩

/-- What is behind the last comma: `strrchr(cursor, ',') + 1`. -/
def afterLastComma (cursor : List UInt8) : Option (List UInt8) :=
  if comma ∈ cursor then some (cursor.reverse.takeWhile (· ≠ comma)).reverse else none

/-- The status of the number in front and, behind its comma, the second one: the status
and the cursor of the rest. -/
def registrationStatus (first : Int) (cursor : List UInt8) : Int × List UInt8 :=
  match skipSpace cursor with
  | ch :: rest =>
      if ch ≠ comma then (first, skipSpace cursor)
      else
        let secondStart := skipSpace rest
        if secondStart.head? = some quote then (first, secondStart)
        else match parseInt secondStart with
          | none => (first, secondStart)
          | some (second, afterSecond) =>
              -- The query form starts with the mode of the report.
              if 0 ≤ first ∧ first ≤ 2 ∧ 0 ≤ second ∧ second ≤ 5 then (second, afterSecond)
              else (first, secondStart)
  | [] => (first, [])

def accessTechnology (cursor : List UInt8) : Int :=
  match afterLastComma cursor with
  | none => -1
  | some field =>
      match parseInt field with
      | some (parsed, rest) => if skipSpace rest = [] then parsed else -1
      | none => -1

/-- `(modem_registration_status_t)status` of a checked value. -/
def registrationStatusOf (status : Int) : Option RegistrationStatus :=
  if status = 0 then some .notRegistered
  else if status = 1 then some .home
  else if status = 2 then some .searching
  else if status = 3 then some .denied
  else if status = 4 then some .unknownNetwork
  else if status = 5 then some .roaming
  else none

def modemStatusParseRegistration (line start : CStr) : Option Registration := do
  if !line.startsWith start then none
  else
    let (first, cursor) ← parseInt (line.bytes.drop start.length)
    let (status, cursor) := registrationStatus first cursor
    let status ← registrationStatusOf status
    some ⟨status, accessTechnology cursor⟩

def modemStatusParseOperator (line : CStr) : Option Operator := do
  if !line.startsWith (.text "+COPS:") then none
  else
    let (mode, cursor) ← parseInt (line.bytes.drop 6)
    if skipSpace cursor = [] then some ⟨mode, -1, .zero, -1⟩
    else
      let cursor ← consumeChar cursor comma
      let (format, cursor) ← parseInt cursor
      let cursor ← consumeChar cursor comma
      let cursor ← consumeChar cursor quote
      let name := cursor.takeWhile (· ≠ quote)
      -- The closing quote must be there; the name is cut to its array.
      let cursor ← (cursor.drop name.length).tail?
      let name := CString.ofBytes (name.take 63)
      match skipSpace cursor with
      | [] => some ⟨mode, format, name, -1⟩
      | ch :: rest =>
          if ch ≠ comma then none
          else
            let (technology, cursor) ← parseInt rest
            if skipSpace cursor ≠ [] then none else some ⟨mode, format, name, technology⟩

def modemRegistrationIsRegistered (status : RegistrationStatus) : Bool :=
  status == .home || status == .roaming

def modemRegistrationIsRoaming (status : RegistrationStatus) : Bool := status == .roaming

/-- `modem_recovery_action_t`. -/
inductive RecoveryAction where
  | none
  | reinit
  | functionalReset
  | hardReset
  deriving DecidableEq, Repr

/-- The action, and the rounds since the last hard reset. -/
def modemRecoveryPolicyNext (consecutiveFailures failureThreshold hardResetAfterRounds
    roundsSinceHardReset : UInt32) : RecoveryAction × UInt32 :=
  if failureThreshold = 0 ∨ hardResetAfterRounds = 0 ∨ consecutiveFailures < failureThreshold then
    (.none, roundsSinceHardReset)
  else
    let rounds := roundsSinceHardReset + 1
    if rounds = 1 then (.reinit, rounds)
    else if rounds ≤ hardResetAfterRounds then (.functionalReset, rounds)
    else (.hardReset, 0)

end SmsGateway.Modem
