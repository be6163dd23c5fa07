import SmsGateway.At.Engine
import SmsGateway.Service.Outbound

/-! The scan of the modem's inbox (`scan_stored_messages`), and a modem that lists
and deletes what it stores. -/

namespace SmsGateway

open Lib Prog

/-- `+CMGL:`. -/
def cmglLead : List UInt8 := [0x2B, 0x43, 0x4D, 0x47, 0x4C, 0x3A]

def parseCmglIndex (line : CStr) : Option Int :=
  if line.bytes.take 6 ≠ cmglLead then none
  else match strtol ((line.bytes.drop 6).dropWhile isSpace) with
    | none => none
    | some value => if value < 0 ∨ value > 65535 then none else some value

def isHexPduLine (line : CStr) : Bool :=
  decide (4 ≤ line.length) && line.length % 2 == 0 &&
    line.bytes.all (fun ch => (hexValue ch).isSome) && smsPduTypeDetect line != .unknown

/-- A PDU of a known type is a line that the scan takes for one. -/
theorem isHexPduLine_of_known {line : CStr} (known : smsPduTypeDetect line ≠ .unknown) :
    isHexPduLine line = true := by
  have decoded : ∃ octets, hexDecode line smsMaxPduOctets = .ok octets ∧ 2 ≤ octets.length := by
    simp only [smsPduTypeDetect] at known
    split at known
    · exact absurd rfl known
    · rename_i octets decoded
      split at known
      · exact absurd rfl known
      · rename_i long
        exact ⟨octets, decoded, Nat.not_lt.mp long⟩
  obtain ⟨octets, decoded, long⟩ := decoded
  obtain ⟨even, length, digits⟩ := hexDecode_ok decoded
  simp only [isHexPduLine, Bool.and_eq_true, decide_eq_true_eq, beq_iff_eq, List.all_eq_true,
    bne_iff_ne]
  exact ⟨⟨⟨by omega, even⟩, digits⟩, known⟩

/-- The inner loop of `scan_stored_messages` over the captured lines; it returns
`processed`. -/
def scanLines : List CStr → Int → Nat → ServiceM Nat
  | [], _, processed => pure processed
  | line :: rest, pendingIndex, processed =>
      match parseCmglIndex line with
      | some index => scanLines rest index processed
      | none =>
          if pendingIndex ≥ 0 ∧ isHexPduLine line then do
            match ← processAnyPdu line pendingIndex with
            | .ok () => scanLines rest (-1) (processed + 1)
            | .error _ => scanLines rest (-1) processed
          else scanLines rest pendingIndex processed

/-- The outer loop, with this many batches left. -/
def scanBatches : Nat → ServiceM Unit
  | 0 => pure ()
  | batches + 1 => do
      match ← execute ⟨.cmgl, none, none⟩ with
      | .error _ => pure ()
      | .ok response =>
          if response.result ≠ .ok then pure ()
          else do
            let processed ← scanLines response.lines (-1) 0
            if processed = 0 then pure () else scanBatches batches

def scanStoredMessages : ServiceM Unit := scanBatches smsStoreMaxRecords

/-- A message in the modem, with the lines that list it. -/
structure StoredMessage where
  index : Int
  header : CStr
  pdu : CStr
  announced : parseCmglIndex header = some index
  plain : parseCmglIndex pdu = none

/-- The messages in the modem, in the order of their indices. -/
structure Inbox where
  messages : List StoredMessage
  ordered : messages.Pairwise fun first second => first.index < second.index

namespace Inbox

def lines (inbox : Inbox) : List CStr := inbox.messages.flatMap fun m => [m.header, m.pdu]

/-- What is left of the listing in the bounded response. -/
def listed (inbox : Inbox) : List CStr :=
  (inbox.lines.foldl At.Response.captureLine .reset).lines

def remove (inbox : Inbox) (index : Int) : Inbox :=
  ⟨inbox.messages.filter fun m => m.index ≠ index, inbox.ordered.filter _⟩

end Inbox

/-- The gateway and its modem. -/
structure Site where
  world : World
  inbox : Inbox

/-- Surroundings that refuse nothing, with a modem that lists and deletes its
messages. -/
def Site.handle : (request : ServiceCall) → Site → request.Reply × Site
  | .execute ⟨.cmgl, _, _⟩, site => (.ok ⟨.ok, -1, site.inbox.listed⟩, site)
  | .execute ⟨.cmgd index, payload, origin⟩, site =>
      ((ServiceCall.handle (.execute ⟨.cmgd index, payload, origin⟩) site.world).1,
        { site with inbox := site.inbox.remove index })
  | request, site =>
      ((request.handle site.world).1, { site with world := (request.handle site.world).2 })

/-- `process_any_pdu` returns `ESP_OK` for this PDU. -/
def World.accepts (w : World) (pdu : CStr) : Bool :=
  (Prog.run ServiceCall.handle (processAnyPdu pdu (-1)) w).1.isOk

end SmsGateway
