import SmsGateway.Base

/-! The lines of the modem: unsolicited ones, final results and the router that
tells them apart. -/

namespace SmsGateway.At

def defaultUrcPrefixes : List CStr :=
  ["+CMTI:", "+CMT:", "+CDS:", "+CDSI:", "+CBM:", "+CREG:", "+CGREG:", "+CEREG:", "+CUSD:",
    "+CLIP:", "+CRING:", "+CGEV:", "+CPIN:", "+CFUN:", "^RSSI:", "^MODE:", "^SRVST:", "^BOOT",
    "^DSFLOWRPT:", "^HCSQ:", "RING", "NO CARRIER", "SMS READY", "PB DONE"].map CStr.text

/-- `at_protocol_matches_any_prefix`; the lists of the callers have no `NULL` entry. -/
def matchesAnyPrefix (line : CStr) (prefixes : List CStr) : Bool :=
  prefixes.any line.startsWith

def isDefaultUrc (line : CStr) : Bool := matchesAnyPrefix line defaultUrcPrefixes

/-- The lines that one payload line follows. -/
def isHeader (line : CStr) : Bool :=
  line.startsWith (.text "+CMT:") || line.startsWith (.text "+CDS:") ||
    line.startsWith (.text "+CBM:")

def urcContinuationLines (line : CStr) : Nat := if isHeader line then 1 else 0

def shouldRouteAsUrc (line : CStr) (expectedPrefixes : List CStr) : Bool :=
  isDefaultUrc line && !matchesAnyPrefix line expectedPrefixes

/-- `at_final_kind_t`. -/
inductive FinalKind where
  | none
  | ok
  | error
  | cmeError
  | cmsError
  deriving DecidableEq, Repr

/-- `at_final_status_t`. -/
structure FinalStatus where
  kind : FinalKind
  errorCode : Int
  deriving DecidableEq, Repr

/-- The largest and smallest `long` of the target, where it has 32 bits. -/
def longMax : Int := 2147483647

def longMin : Int := -2147483648

/-- `strtol(value, &end, 10)`: the number and what is left at `end`; nothing when
`end == value`. Numbers out of range are cut to the range of `long`. -/
def strtol (value : List UInt8) : Option (Int × List UInt8) :=
  let unsigned := value.dropWhile isSpace
  let negative := unsigned.head? == some 45
  let digits := if negative || unsigned.head? == some 43 then unsigned.tail else unsigned
  let run := digits.takeWhile isDigit
  if run.isEmpty then none
  else
    let magnitude : Nat := run.foldl (fun n ch => n * 10 + (ch.toNat - 48)) 0
    let number : Int := if negative then -magnitude else magnitude
    some (max longMin (min longMax number), digits.drop run.length)

def isBlank (ch : UInt8) : Bool := ch == 32 || ch == 9

def parsePrefixedError (line start : CStr) (kind : FinalKind) : FinalStatus :=
  let value := (line.bytes.drop start.length).dropWhile isBlank
  match strtol value with
  | some (parsed, rest) =>
      if (rest.dropWhile isBlank).isEmpty && decide (0 ≤ parsed) && decide (parsed ≤ 2147483647) then
        ⟨kind, parsed⟩
      else ⟨kind, -1⟩
  | none => ⟨kind, -1⟩

def finalStatus (line : CStr) : FinalStatus :=
  if line = .text "OK" then ⟨.ok, -1⟩
  else if line = .text "ERROR" then ⟨.error, -1⟩
  else if line.startsWith (.text "+CME ERROR:") then
    parsePrefixedError line (.text "+CME ERROR:") .cmeError
  else if line.startsWith (.text "+CMS ERROR:") then
    parsePrefixedError line (.text "+CMS ERROR:") .cmsError
  else ⟨.none, -1⟩

/-- `at_route_t`. -/
inductive Route where
  | response
  | urc
  deriving DecidableEq, Repr

/-- `at_router_t`. -/
structure Router where
  urcContinuationLines : Nat
  deriving DecidableEq, Repr

def Router.init : Router := ⟨0⟩

def Router.routeLine (router : Router) (line : CStr) (expectedPrefixes : List CStr) :
    Route × Router :=
  if 0 < router.urcContinuationLines then (.urc, ⟨router.urcContinuationLines - 1⟩)
  else if shouldRouteAsUrc line expectedPrefixes then (.urc, ⟨At.urcContinuationLines line⟩)
  else (.response, router)

end SmsGateway.At
