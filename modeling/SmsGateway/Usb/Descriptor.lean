import Mathlib.Data.List.DropRight
import SmsGateway.Lib.Memory

/-! The search for serial interfaces in a USB configuration descriptor
(`usb_modem_descriptor.c`). The descriptor is an array that is only read inside. -/

namespace SmsGateway.Usb

open Lib

/-- `modem_usb_candidate_t`. -/
structure ModemUsbCandidate where
  interfaceNumber : UInt8
  interfaceClass : UInt8
  interfaceSubclass : UInt8
  interfaceProtocol : UInt8
  bulkInEp : UInt8
  bulkOutEp : UInt8
  interruptInEp : UInt8
  score : UInt8
  deriving DecidableEq, Repr

def ModemUsbCandidate.zero : ModemUsbCandidate := ⟨0, 0, 0, 0, 0, 0, 0, 0⟩

def usbDescTypeInterface : UInt8 := 0x04
def usbDescTypeEndpoint : UInt8 := 0x05
def usbEpXferTypeMask : UInt8 := 0x03
def usbEpXferBulk : UInt8 := 0x02
def usbEpXferInterrupt : UInt8 := 0x03
def usbEpDirIn : UInt8 := 0x80
def usbVendorSpecificClass : UInt8 := 0xFF

def candidateScore (candidate : ModemUsbCandidate) : UInt8 :=
  let score : UInt8 := 10
  let score :=
    if candidate.interfaceProtocol = 0x01 then score + 100
    else if candidate.interfaceProtocol = 0x12 then score + 50
    else score
  if candidate.interruptInEp ≠ 0 then score + 10 else score

/-- The entries before `current` with a lower score move up by one. -/
def insertCandidate (current : ModemUsbCandidate) (sorted : List ModemUsbCandidate) :
    List ModemUsbCandidate :=
  sorted.rdropWhile (fun candidate => candidate.score < current.score) ++
    current :: sorted.rtakeWhile fun candidate => candidate.score < current.score

def sortCandidates (candidates : List ModemUsbCandidate) : List ModemUsbCandidate :=
  candidates.foldl (fun sorted current => insertCandidate current sorted) []

def addCandidate (maxCandidates : Nat) (candidates : List ModemUsbCandidate)
    (candidate : ModemUsbCandidate) : List ModemUsbCandidate :=
  if candidate.interfaceClass ≠ usbVendorSpecificClass ∨ candidate.bulkInEp = 0 ∨
      candidate.bulkOutEp = 0 ∨ candidates.length ≥ maxCandidates then candidates
  else candidates ++ [{ candidate with score := candidateScore candidate }]

/-- The variables of the loop. -/
structure DescriptorScan where
  current : ModemUsbCandidate
  collecting : Bool
  candidates : List ModemUsbCandidate
  deriving DecidableEq, Repr

/-- The candidates with the one that was being collected. -/
def DescriptorScan.finish (maxCandidates : Nat) (scan : DescriptorScan) : List ModemUsbCandidate :=
  if scan.collecting then addCandidate maxCandidates scan.candidates scan.current
  else scan.candidates

def visitInterface (descriptor : List UInt8) (maxCandidates cursor : Nat) (scan : DescriptorScan) :
    Access DescriptorScan := do
  let interfaceNumber ← load descriptor (cursor + 2)
  let alternateSetting ← load descriptor (cursor + 3)
  let interfaceClass ← load descriptor (cursor + 5)
  let interfaceSubclass ← load descriptor (cursor + 6)
  let interfaceProtocol ← load descriptor (cursor + 7)
  pure {
    current := ⟨interfaceNumber, interfaceClass, interfaceSubclass, interfaceProtocol, 0, 0, 0, 0⟩
    collecting := alternateSetting = 0 ∧ interfaceClass = usbVendorSpecificClass
    candidates := scan.finish maxCandidates }

/-- What an endpoint with this address and these attributes changes. -/
def addEndpoint (address attributes : UInt8) (current : ModemUsbCandidate) : ModemUsbCandidate :=
  let transferType := attributes &&& usbEpXferTypeMask
  if transferType = usbEpXferBulk then
    if address &&& usbEpDirIn ≠ 0 then { current with bulkInEp := address }
    else { current with bulkOutEp := address }
  else if transferType = usbEpXferInterrupt ∧ address &&& usbEpDirIn ≠ 0 then
    { current with interruptInEp := address }
  else current

def visitEndpoint (descriptor : List UInt8) (cursor : Nat) (scan : DescriptorScan) :
    Access DescriptorScan := do
  let address ← load descriptor (cursor + 2)
  let attributes ← load descriptor (cursor + 3)
  pure { scan with current := addEndpoint address attributes scan.current }

/-- The body of the loop behind the checks of the length. -/
def visitAt (descriptor : List UInt8) (maxCandidates cursor : Nat) (length type : UInt8)
    (scan : DescriptorScan) : Access DescriptorScan :=
  if type = usbDescTypeInterface ∧ length ≥ 9 then
    visitInterface descriptor maxCandidates cursor scan
  else if type = usbDescTypeEndpoint ∧ length ≥ 7 ∧ scan.collecting then
    visitEndpoint descriptor cursor scan
  else pure scan

def scanDescriptors (descriptor : List UInt8) (maxCandidates cursor : Nat)
    (scan : DescriptorScan) : Access DescriptorScan :=
  if cursor + 2 ≤ descriptor.length then do
    let length ← load descriptor cursor
    let type ← load descriptor (cursor + 1)
    if _ : length < 2 ∨ cursor + length.toNat > descriptor.length then pure scan
    else
      let scan ← visitAt descriptor maxCandidates cursor length type scan
      scanDescriptors descriptor maxCandidates (cursor + length.toNat) scan
  else pure scan
  termination_by descriptor.length - cursor
  decreasing_by
    rename_i wellFormed
    have two : 2 ≤ length.toNat := by
      simp only [not_or, UInt8.not_lt, UInt8.le_iff_toNat_le] at wellFormed
      exact wellFormed.1
    omega

/-- The candidates that are written; their number is returned. -/
def modemUsbFindSerialCandidates (descriptor : List UInt8) (maxCandidates : Nat) :
    Access (List ModemUsbCandidate) :=
  if maxCandidates = 0 then pure []
  else do
    let scan ← scanDescriptors descriptor maxCandidates 0 ⟨.zero, false, []⟩
    pure (sortCandidates (scan.finish maxCandidates))

end SmsGateway.Usb
