import Mathlib.Data.List.Perm.Lattice
import SmsGateway.Usb.Descriptor

/-! The eligible interfaces of a descriptor, and how they are ranked. -/

namespace SmsGateway.Usb

open Lib

/-- The descriptors up to the first malformed one. -/
def descriptors : List UInt8 → List (List UInt8)
  | length :: type :: rest =>
      let bytes := length :: type :: rest
      if length.toNat < 2 ∨ bytes.length < length.toNat then []
      else bytes.take length.toNat :: descriptors (bytes.drop length.toNat)
  | _ => []
  termination_by bytes => bytes.length
  decreasing_by
    simp only [List.length_drop, List.length_cons]
    omega

def field (descriptor : List UInt8) (index : Nat) : UInt8 := descriptor.getD index 0

def IsInterface (descriptor : List UInt8) : Prop :=
  field descriptor 1 = usbDescTypeInterface ∧ 9 ≤ descriptor.length

def IsEndpoint (descriptor : List UInt8) : Prop :=
  field descriptor 1 = usbDescTypeEndpoint ∧ 7 ≤ descriptor.length

instance (descriptor : List UInt8) : Decidable (IsInterface descriptor) :=
  inferInstanceAs (Decidable (_ ∧ _))

instance (descriptor : List UInt8) : Decidable (IsEndpoint descriptor) :=
  inferInstanceAs (Decidable (_ ∧ _))

/-- An endpoint descriptor with this transfer type and direction. -/
def IsEndpointOf (transferType : UInt8) (inward : Bool) (descriptor : List UInt8) : Prop :=
  IsEndpoint descriptor ∧ field descriptor 3 &&& usbEpXferTypeMask = transferType ∧
    decide (field descriptor 2 &&& usbEpDirIn ≠ 0) = inward

instance (transferType : UInt8) (inward : Bool) (descriptor : List UInt8) :
    Decidable (IsEndpointOf transferType inward descriptor) :=
  inferInstanceAs (Decidable (_ ∧ _ ∧ _))

/-- An interface descriptor and what follows it up to the next one. -/
structure Interface where
  descriptor : List UInt8
  following : List (List UInt8)

/-- The interfaces of a list of descriptors. -/
def interfaces : List (List UInt8) → List Interface
  | [] => []
  | descriptor :: rest =>
      if IsInterface descriptor then
        ⟨descriptor, rest.takeWhile fun other => ¬ IsInterface other⟩ :: interfaces rest
      else interfaces rest

namespace Interface

/-- The address of the last endpoint of a kind. -/
def endpoint (interface : Interface) (transferType : UInt8) (inward : Bool) : Option UInt8 :=
  (interface.following.filter (IsEndpointOf transferType inward)).getLast?.map (field · 2)

/-- Alternate setting 0 of a vendor-specific interface with a bulk IN endpoint and
bulk OUT endpoints, the last of which has an address. -/
def Eligible (interface : Interface) : Prop :=
  field interface.descriptor 3 = 0 ∧
    field interface.descriptor 5 = usbVendorSpecificClass ∧
    (∃ descriptor ∈ interface.following, IsEndpointOf usbEpXferBulk true descriptor) ∧
    ∃ address, interface.endpoint usbEpXferBulk false = some address ∧ address ≠ 0

instance (interface : Interface) : Decidable interface.Eligible :=
  decidable_of_iff (field interface.descriptor 3 = 0 ∧
    field interface.descriptor 5 = usbVendorSpecificClass ∧
    (∃ descriptor ∈ interface.following, IsEndpointOf usbEpXferBulk true descriptor) ∧
    ((interface.endpoint usbEpXferBulk false).any (· ≠ 0)) = true) (by
      simp only [Eligible, Option.any_eq_true, decide_eq_true_eq])

/-- The candidate of an interface. -/
def candidate (interface : Interface) : ModemUsbCandidate :=
  let unscored : ModemUsbCandidate := {
    interfaceNumber := field interface.descriptor 2
    interfaceClass := field interface.descriptor 5
    interfaceSubclass := field interface.descriptor 6
    interfaceProtocol := field interface.descriptor 7
    bulkInEp := (interface.endpoint usbEpXferBulk true).getD 0
    bulkOutEp := (interface.endpoint usbEpXferBulk false).getD 0
    interruptInEp := (interface.endpoint usbEpXferInterrupt true).getD 0
    score := 0 }
  { unscored with score := candidateScore unscored }

end Interface

/-- The candidates of the eligible interfaces, in the order of the descriptor. -/
def eligible (descriptor : List UInt8) : List ModemUsbCandidate :=
  ((interfaces (descriptors descriptor)).filter Interface.Eligible).map Interface.candidate

/-! The loop over the bytes is a loop over the descriptors. -/

/-- One descriptor of the loop. -/
def visitDescriptor (maxCandidates : Nat) (scan : DescriptorScan) (descriptor : List UInt8) :
    DescriptorScan :=
  if IsInterface descriptor then {
    current := ⟨field descriptor 2, field descriptor 5, field descriptor 6, field descriptor 7,
      0, 0, 0, 0⟩
    collecting := field descriptor 3 = 0 ∧ field descriptor 5 = usbVendorSpecificClass
    candidates := scan.finish maxCandidates }
  else if IsEndpoint descriptor ∧ scan.collecting then
    { scan with current := addEndpoint (field descriptor 2) (field descriptor 3) scan.current }
  else scan

theorem load_take {bytes : List UInt8} {cursor size index : Nat} (inside : cursor + size ≤ bytes.length)
    (below : index < size) :
    load bytes (cursor + index) = .ok (field ((bytes.drop cursor).take size) index) := by
  rw [load_window inside below 0, window_eq_take, field]

theorem visitAt_eq {bytes : List UInt8} {cursor : Nat} {length : UInt8} (maxCandidates : Nat)
    (scan : DescriptorScan) (two : 2 ≤ length.toNat)
    (inside : cursor + length.toNat ≤ bytes.length) :
    visitAt bytes maxCandidates cursor length (field ((bytes.drop cursor).take length.toNat) 1)
        scan =
      .ok (visitDescriptor maxCandidates scan ((bytes.drop cursor).take length.toNat)) := by
  have size : ((bytes.drop cursor).take length.toNat).length = length.toNat := by
    rw [List.length_take, List.length_drop]
    omega
  have read {index : Nat} (below : index < length.toNat) := load_take inside below
  generalize (bytes.drop cursor).take length.toNat = descriptor at size read
  have long (bound : UInt8) : length ≥ bound ↔ bound.toNat ≤ descriptor.length := by
    rw [size, ge_iff_le, UInt8.le_iff_toNat_le]
  simp only [visitAt, long, UInt8.reduceToNat, visitDescriptor]
  by_cases interface : IsInterface descriptor
  · rw [if_pos (show _ ∧ _ from interface), if_pos interface]
    have := interface.2
    simp only [visitInterface, read (show 2 < length.toNat by omega),
      read (show 3 < length.toNat by omega), read (show 5 < length.toNat by omega),
      read (show 6 < length.toNat by omega), read (show 7 < length.toNat by omega)]
    rfl
  · rw [if_neg (show ¬ (_ ∧ _) from interface), if_neg interface]
    by_cases endpoint : IsEndpoint descriptor ∧ scan.collecting = true
    · rw [if_pos (show _ ∧ _ ∧ _ from and_assoc.mp endpoint), if_pos endpoint]
      have := endpoint.1.2
      simp only [visitEndpoint, read (show 2 < length.toNat by omega),
        read (show 3 < length.toNat by omega)]
      rfl
    · rw [if_neg fun both => endpoint (and_assoc.mpr both), if_neg endpoint]
      rfl

theorem drop_shape {bytes : List UInt8} {cursor : Nat} (enough : cursor + 2 ≤ bytes.length) :
    ∃ length type rest, bytes.drop cursor = length :: type :: rest ∧
      load bytes cursor = .ok length ∧ load bytes (cursor + 1) = .ok type := by
  have first : cursor < bytes.length := by omega
  have second : cursor + 1 < bytes.length := by omega
  refine ⟨bytes[cursor], bytes[cursor + 1], bytes.drop (cursor + 2), ?_, ?_, ?_⟩
  · rw [List.drop_eq_getElem_cons first, List.drop_eq_getElem_cons second]
  · simp [load, first]
  · simp [load, second]

theorem scanDescriptors_eq (bytes : List UInt8) (maxCandidates cursor : Nat)
    (scan : DescriptorScan) :
    scanDescriptors bytes maxCandidates cursor scan =
      .ok ((descriptors (bytes.drop cursor)).foldl (visitDescriptor maxCandidates) scan) := by
  induction left : bytes.length - cursor using Nat.strongRecOn generalizing cursor scan with
  | ind left ih =>
      rw [scanDescriptors]
      by_cases enough : cursor + 2 ≤ bytes.length
      · obtain ⟨length, type, rest, shape, first, second⟩ := drop_shape enough
        have total := congrArg List.length shape
        simp only [List.length_drop, List.length_cons] at total
        rw [if_pos enough, first, second]
        simp only [bind, Except.bind]
        by_cases malformed : length < 2 ∨ cursor + length.toNat > bytes.length
        · have stops : descriptors (bytes.drop cursor) = [] := by
            rw [shape, descriptors, if_pos]
            rw [UInt8.lt_iff_toNat_lt] at malformed
            simp only [UInt8.reduceToNat, List.length_cons] at malformed ⊢
            omega
          rw [dif_pos malformed, stops]
          rfl
        · obtain ⟨two, inside⟩ : 2 ≤ length.toNat ∧ cursor + length.toNat ≤ bytes.length := by
            rw [not_or, UInt8.not_lt, UInt8.le_iff_toNat_le] at malformed
            exact ⟨malformed.1, Nat.not_lt.mp malformed.2⟩
          have head : descriptors (bytes.drop cursor) =
              (bytes.drop cursor).take length.toNat ::
                descriptors (bytes.drop (cursor + length.toNat)) := by
            rw [← List.drop_drop, shape, descriptors, if_neg]
            simp only [List.length_cons]
            omega
          have typeField : field ((bytes.drop cursor).take length.toNat) 1 = type := by
            rw [field, List.getD_eq_getElem?_getD, List.getElem?_take_of_lt (by omega), shape]
            rfl
          have visited := visitAt_eq maxCandidates scan two inside
          rw [typeField] at visited
          rw [dif_neg malformed, visited]
          simp only
          rw [ih _ (by omega) _ _ rfl, head, List.foldl_cons]
      · have stops : descriptors (bytes.drop cursor) = [] := by
          have short : (bytes.drop cursor).length < 2 := by
            rw [List.length_drop]
            omega
          match bytes.drop cursor, short with
          | [], _ => rw [descriptors]; simp
          | [_], _ => rw [descriptors]; simp
        rw [if_neg enough, stops]
        rfl

/-! What is collected for an interface. -/

/-- A candidate after the descriptors that follow its interface. -/
def absorb (current : ModemUsbCandidate) (following : List (List UInt8)) : ModemUsbCandidate :=
  following.foldl (fun current descriptor =>
    if IsEndpoint descriptor then addEndpoint (field descriptor 2) (field descriptor 3) current
    else current) current

/-- The candidate at an interface descriptor. -/
def started (descriptor : List UInt8) : ModemUsbCandidate :=
  ⟨field descriptor 2, field descriptor 5, field descriptor 6, field descriptor 7, 0, 0, 0, 0⟩

/-- An interface for which endpoints are collected. -/
def Interface.collected (interface : Interface) : Option ModemUsbCandidate :=
  if field interface.descriptor 3 = 0 ∧ field interface.descriptor 5 = usbVendorSpecificClass then
    some (absorb (started interface.descriptor) interface.following)
  else none

/-- The candidates of a scan: the one being collected goes on up to the next interface. -/
theorem finish_foldl (maxCandidates : Nat) (scan : DescriptorScan) (rest : List (List UInt8)) :
    (rest.foldl (visitDescriptor maxCandidates) scan).finish maxCandidates =
      ((if scan.collecting then
          [absorb scan.current (rest.takeWhile fun other => ¬ IsInterface other)] else []) ++
        (interfaces rest).filterMap Interface.collected).foldl (addCandidate maxCandidates)
          scan.candidates := by
  induction rest generalizing scan with
  | nil =>
      cases collecting : scan.collecting <;>
        simp [DescriptorScan.finish, collecting, interfaces, absorb]
  | cons descriptor rest ih =>
      rw [List.foldl_cons, ih]
      by_cases interface : IsInterface descriptor
      · have current : scan.finish maxCandidates =
            (if scan.collecting then [absorb scan.current []] else []).foldl
              (addCandidate maxCandidates) scan.candidates := by
          cases collecting : scan.collecting <;> simp [DescriptorScan.finish, collecting, absorb]
        simp only [visitDescriptor, interface, ↓reduceIte, current, interfaces,
          List.takeWhile_cons, decide_not, decide_true, Bool.not_true, Bool.false_eq_true,
          List.filterMap_cons, Interface.collected, List.foldl_append, started, decide_eq_true_eq]
        by_cases vendor : field descriptor 3 = 0 ∧ field descriptor 5 = usbVendorSpecificClass
        · simp only [vendor, and_self, ↓reduceIte, List.foldl_cons, List.foldl_nil]
        · simp only [vendor, ↓reduceIte, List.foldl_nil]
      · simp only [visitDescriptor, interface, ↓reduceIte, interfaces, List.takeWhile_cons,
          decide_not, decide_false, Bool.not_false]
        by_cases collecting : scan.collecting = true
        · by_cases endpoint : IsEndpoint descriptor
          · simp [collecting, endpoint, absorb]
          · simp [collecting, endpoint, absorb]
        · simp [collecting]

/-! The endpoints that were found. -/

theorem getLast?_filter_cons {α : Type} (p : α → Bool) (a : α) (rest : List α) :
    ((a :: rest).filter p).getLast? = (rest.filter p).getLast?.or (if p a then some a else none) := by
  rw [List.filter_cons]
  split
  · rw [List.getLast?_cons]
    cases (rest.filter p).getLast? <;> rfl
  · cases (rest.filter p).getLast? <;> rfl

/-- A field that the endpoints of one kind write holds the address of the last of them. -/
theorem absorb_field (get : ModemUsbCandidate → UInt8) (transferType : UInt8) (inward : Bool)
    (writes : ∀ current descriptor,
      get (if IsEndpoint descriptor then addEndpoint (field descriptor 2) (field descriptor 3) current
        else current) =
        if IsEndpointOf transferType inward descriptor then field descriptor 2 else get current)
    (current : ModemUsbCandidate) (following : List (List UInt8)) :
    get (absorb current following) =
      ((following.filter (IsEndpointOf transferType inward)).getLast?.map (field · 2)).getD
        (get current) := by
  induction following generalizing current with
  | nil => rfl
  | cons descriptor rest ih =>
      rw [absorb, List.foldl_cons]
      refine (ih _).trans ?_
      rw [writes, getLast?_filter_cons]
      cases (rest.filter (IsEndpointOf transferType inward)).getLast? with
      | some last => rfl
      | none => by_cases kind : IsEndpointOf transferType inward descriptor <;> simp [kind]

/-- Every field is written by the endpoints of one kind and direction. -/
theorem addEndpoint_fields (current : ModemUsbCandidate) (descriptor : List UInt8) :
    let next := if IsEndpoint descriptor then
      addEndpoint (field descriptor 2) (field descriptor 3) current else current
    next.bulkInEp = (if IsEndpointOf usbEpXferBulk true descriptor then field descriptor 2
      else current.bulkInEp) ∧
    next.bulkOutEp = (if IsEndpointOf usbEpXferBulk false descriptor then field descriptor 2
      else current.bulkOutEp) ∧
    next.interruptInEp = (if IsEndpointOf usbEpXferInterrupt true descriptor then
      field descriptor 2 else current.interruptInEp) := by
  by_cases endpoint : IsEndpoint descriptor
  · simp only [endpoint, ↓reduceIte, addEndpoint, IsEndpointOf, true_and]
    have other : usbEpXferInterrupt ≠ usbEpXferBulk := by decide
    by_cases bulk : field descriptor 3 &&& usbEpXferTypeMask = usbEpXferBulk
    · by_cases inward : field descriptor 2 &&& usbEpDirIn = 0 <;> simp [bulk, inward, other.symm]
    · by_cases interrupt : field descriptor 3 &&& usbEpXferTypeMask = usbEpXferInterrupt
      · by_cases inward : field descriptor 2 &&& usbEpDirIn = 0 <;> simp [interrupt, inward, other]
      · simp [bulk, interrupt]
  · simp [endpoint, IsEndpointOf]

theorem absorb_fields (current : ModemUsbCandidate) (following : List (List UInt8)) :
    (absorb current following).bulkInEp =
      ((following.filter (IsEndpointOf usbEpXferBulk true)).getLast?.map (field · 2)).getD
        current.bulkInEp ∧
    (absorb current following).bulkOutEp =
      ((following.filter (IsEndpointOf usbEpXferBulk false)).getLast?.map (field · 2)).getD
        current.bulkOutEp ∧
    (absorb current following).interruptInEp =
      ((following.filter (IsEndpointOf usbEpXferInterrupt true)).getLast?.map (field · 2)).getD
        current.interruptInEp := by
  refine ⟨?_, ?_, ?_⟩
  · exact absorb_field (·.bulkInEp) _ _ (fun c d => (addEndpoint_fields c d).1) current following
  · exact absorb_field (·.bulkOutEp) _ _ (fun c d => (addEndpoint_fields c d).2.1) current following
  · exact absorb_field (·.interruptInEp) _ _ (fun c d => (addEndpoint_fields c d).2.2) current
      following

/-- A candidate with these endpoints. -/
def ModemUsbCandidate.withEndpoints (current endpoints : ModemUsbCandidate) : ModemUsbCandidate :=
  { current with
    bulkInEp := endpoints.bulkInEp
    bulkOutEp := endpoints.bulkOutEp
    interruptInEp := endpoints.interruptInEp }

/-- Endpoints leave the rest of a candidate alone. -/
theorem absorb_frame (current : ModemUsbCandidate) (following : List (List UInt8)) :
    absorb current following = current.withEndpoints (absorb current following) := by
  induction following generalizing current with
  | nil => rfl
  | cons descriptor rest ih =>
      have step : (if IsEndpoint descriptor then
          addEndpoint (field descriptor 2) (field descriptor 3) current else current) =
          current.withEndpoints (if IsEndpoint descriptor then
            addEndpoint (field descriptor 2) (field descriptor 3) current else current) := by
        by_cases endpoint : IsEndpoint descriptor
        · simp only [endpoint, ↓reduceIte, addEndpoint]
          repeat' split
          all_goals rfl
        · simp only [endpoint, ↓reduceIte]
          rfl
      have later := ih (if IsEndpoint descriptor then
        addEndpoint (field descriptor 2) (field descriptor 3) current else current)
      rw [step] at later
      rw [absorb, List.foldl_cons, ← absorb, step]
      exact later

/-- A collected interface is added with the candidate of its endpoints. -/
theorem scored_absorb (interface : Interface) :
    { absorb (started interface.descriptor) interface.following with
      score := candidateScore (absorb (started interface.descriptor) interface.following) } =
      interface.candidate := by
  have frame := absorb_frame (started interface.descriptor) interface.following
  obtain ⟨bulkIn, bulkOut, interruptIn⟩ :=
    absorb_fields (started interface.descriptor) interface.following
  rw [frame, ModemUsbCandidate.withEndpoints, bulkIn, bulkOut, interruptIn]
  rfl

/-! Which candidates are added. -/

/-- What `add_candidate` asks of a candidate. -/
def ModemUsbCandidate.Serial (candidate : ModemUsbCandidate) : Prop :=
  candidate.interfaceClass = usbVendorSpecificClass ∧ candidate.bulkInEp ≠ 0 ∧
    candidate.bulkOutEp ≠ 0

instance (candidate : ModemUsbCandidate) : Decidable candidate.Serial :=
  inferInstanceAs (Decidable (_ ∧ _ ∧ _))

def ModemUsbCandidate.scored (candidate : ModemUsbCandidate) : ModemUsbCandidate :=
  { candidate with score := candidateScore candidate }

/-- In the order of the candidates, as many as there is room for. -/
theorem foldl_addCandidate (maxCandidates : Nat) (added candidates : List ModemUsbCandidate) :
    candidates.foldl (addCandidate maxCandidates) added =
      added ++ ((candidates.filter ModemUsbCandidate.Serial).map ModemUsbCandidate.scored).take
        (maxCandidates - added.length) := by
  induction candidates generalizing added with
  | nil => simp
  | cons candidate rest ih =>
      rw [List.foldl_cons, ih, List.filter_cons]
      by_cases serial : candidate.Serial
      · obtain ⟨cls, bulkIn, bulkOut⟩ := serial
        have here : candidate.Serial := ⟨cls, bulkIn, bulkOut⟩
        by_cases full : added.length ≥ maxCandidates
        · simp [addCandidate, full, Nat.sub_eq_zero_of_le full]
        · have one : maxCandidates - added.length = maxCandidates - (added.length + 1) + 1 := by
            omega
          have grown : addCandidate maxCandidates added candidate = added ++ [candidate.scored] := by
            rw [addCandidate, if_neg (by tauto)]
            rfl
          rw [grown, if_pos (decide_eq_true here), List.map_cons, one, List.take_succ_cons,
            List.length_append, List.length_singleton, List.append_assoc]
          rfl
      · have same : addCandidate maxCandidates added candidate = added := by
          rw [addCandidate, if_pos]
          simp only [ModemUsbCandidate.Serial] at serial
          tauto
        rw [same, if_neg (by simpa using serial)]

theorem isEndpointOf_address {transferType : UInt8} {descriptor : List UInt8}
    (inward : IsEndpointOf transferType true descriptor) : field descriptor 2 ≠ 0 := by
  intro zero
  have direction := inward.2.2
  rw [zero] at direction
  revert direction
  decide

theorem getLast?_filter_isSome {α : Type} (p : α → Bool) (list : List α) :
    ((list.filter p).getLast?).isSome = true ↔ ∃ a ∈ list, p a = true := by
  rw [List.getLast?_isSome, ne_eq, List.filter_eq_nil_iff]
  push Not
  rfl

/-- Of the interfaces with endpoints collected, those that are added are eligible. -/
theorem Interface.serial_iff {interface : Interface} (first : field interface.descriptor 3 = 0)
    (vendor : field interface.descriptor 5 = usbVendorSpecificClass) :
    (absorb (started interface.descriptor) interface.following).Serial ↔ interface.Eligible := by
  have cls : (absorb (started interface.descriptor) interface.following).interfaceClass =
      usbVendorSpecificClass := by
    rw [absorb_frame]
    exact vendor
  have bulkIn : (absorb (started interface.descriptor) interface.following).bulkInEp ≠ 0 ↔
      ∃ descriptor ∈ interface.following, IsEndpointOf usbEpXferBulk true descriptor := by
    rw [(absorb_fields _ _).1]
    have found := getLast?_filter_isSome (fun descriptor => decide
      (IsEndpointOf usbEpXferBulk true descriptor)) interface.following
    simp only [decide_eq_true_eq] at found
    rw [← found]
    cases last : (interface.following.filter (IsEndpointOf usbEpXferBulk true)).getLast? with
    | none => simp [started]
    | some descriptor =>
        have member := List.mem_filter.mp (List.mem_of_getLast? last)
        simpa using isEndpointOf_address (of_decide_eq_true member.2)
  have bulkOut : (absorb (started interface.descriptor) interface.following).bulkOutEp ≠ 0 ↔
      ∃ address, interface.endpoint usbEpXferBulk false = some address ∧ address ≠ 0 := by
    rw [(absorb_fields _ _).2.1, Interface.endpoint]
    cases (interface.following.filter (IsEndpointOf usbEpXferBulk false)).getLast? with
    | none => simp [started]
    | some descriptor => simp
  rw [ModemUsbCandidate.Serial, bulkIn, bulkOut, Interface.Eligible]
  exact ⟨fun serial => ⟨first, vendor, serial.2⟩, fun eligible => ⟨cls, eligible.2.2⟩⟩

theorem serial_collected (list : List Interface) :
    ((list.filterMap Interface.collected).filter ModemUsbCandidate.Serial).map
        ModemUsbCandidate.scored =
      (list.filter Interface.Eligible).map Interface.candidate := by
  induction list with
  | nil => rfl
  | cons interface rest ih =>
      rw [List.filterMap_cons, List.filter_cons]
      by_cases vendor : field interface.descriptor 3 = 0 ∧
          field interface.descriptor 5 = usbVendorSpecificClass
      · have serial := Interface.serial_iff vendor.1 vendor.2
        rw [Interface.collected, if_pos vendor]
        simp only [List.filter_cons]
        by_cases eligible : interface.Eligible
        · rw [if_pos (decide_eq_true (serial.mpr eligible)), if_pos (decide_eq_true eligible),
            List.map_cons, List.map_cons, ih]
          exact congrArg (· :: _) (scored_absorb interface)
        · rw [if_neg (by simpa using fun here => eligible (serial.mp here)),
            if_neg (by simpa using eligible), ih]
      · have notEligible : ¬ interface.Eligible := fun eligible =>
          vendor ⟨eligible.1, eligible.2.1⟩
        rw [Interface.collected, if_neg vendor, if_neg (by simpa using notEligible)]
        exact ih

/-- The call reads inside the descriptor only, takes the first eligible interfaces in
the order of the descriptor and sorts them. -/
theorem modemUsbFindSerialCandidates_eq (descriptor : List UInt8) (maxCandidates : Nat) :
    modemUsbFindSerialCandidates descriptor maxCandidates =
      .ok (sortCandidates ((eligible descriptor).take maxCandidates)) := by
  rw [modemUsbFindSerialCandidates]
  split
  · rename_i none
    subst none
    rfl
  · rw [scanDescriptors_eq]
    simp only [bind, Except.bind, List.drop_zero]
    rw [finish_foldl, foldl_addCandidate]
    simp only [Bool.false_eq_true, ↓reduceIte, List.nil_append, List.length_nil, Nat.sub_zero,
      serial_collected, eligible]
    rfl

/-! The order. -/

theorem rdropWhile_append_rtakeWhile {α : Type} (p : α → Bool) (list : List α) :
    list.rdropWhile p ++ list.rtakeWhile p = list := by
  rw [List.rdropWhile, List.rtakeWhile, ← List.reverse_append, List.takeWhile_append_dropWhile,
    List.reverse_reverse]

theorem insertCandidate_perm (current : ModemUsbCandidate) (sorted : List ModemUsbCandidate) :
    (insertCandidate current sorted).Perm (current :: sorted) := by
  rw [insertCandidate]
  refine List.perm_middle.trans ?_
  rw [rdropWhile_append_rtakeWhile]

theorem insertCandidate_sorted {current : ModemUsbCandidate} {sorted : List ModemUsbCandidate}
    (before : sorted.Pairwise fun a b => b.score ≤ a.score) :
    (insertCandidate current sorted).Pairwise fun a b => b.score ≤ a.score := by
  have low : ∀ candidate ∈ sorted.rtakeWhile (fun candidate => candidate.score < current.score),
      candidate.score < current.score := by
    intro candidate member
    rw [List.rtakeWhile, List.mem_reverse] at member
    have lower := List.mem_takeWhile_imp member
    exact of_decide_eq_true lower
  have last := List.rdropWhile_last_not (fun candidate => candidate.score < current.score) sorted
  rw [← rdropWhile_append_rtakeWhile (fun candidate => candidate.score < current.score) sorted,
    List.pairwise_append] at before
  rw [insertCandidate]
  generalize sorted.rdropWhile (fun candidate => candidate.score < current.score) = kept
    at before last
  generalize sorted.rtakeWhile (fun candidate => candidate.score < current.score) = moved
    at before low
  have high : ∀ candidate ∈ kept, current.score ≤ candidate.score := by
    intro candidate member
    have nonempty := List.ne_nil_of_mem member
    have lastHigh : current.score ≤ (kept.getLast nonempty).score := by
      simpa [UInt8.not_lt] using last nonempty
    have ends : kept.dropLast ++ [kept.getLast nonempty] = kept :=
      List.dropLast_append_getLast nonempty
    have ordered := before.1
    rw [← ends, List.pairwise_append] at ordered
    rw [← ends, List.mem_append, List.mem_singleton] at member
    rcases member with early | atEnd
    · exact UInt8.le_trans lastHigh (ordered.2.2 candidate early _ (List.mem_singleton.mpr rfl))
    · rw [atEnd]
      exact lastHigh
  refine List.pairwise_append.mpr ⟨before.1, List.pairwise_cons.mpr ⟨?_, before.2.1⟩, ?_⟩
  · intro candidate member
    exact UInt8.le_of_lt (low candidate member)
  · intro candidate member other behind
    rcases List.mem_cons.mp behind with rfl | later
    · exact high candidate member
    · exact before.2.2 candidate member other later

theorem sortCandidates_spec (candidates : List ModemUsbCandidate) :
    (sortCandidates candidates).Perm candidates ∧
      (sortCandidates candidates).Pairwise fun a b => b.score ≤ a.score := by
  have general (rest sorted : List ModemUsbCandidate)
      (before : sorted.Pairwise fun a b => b.score ≤ a.score) :
      (rest.foldl (fun sorted current => insertCandidate current sorted) sorted).Perm
          (sorted ++ rest) ∧
        (rest.foldl (fun sorted current => insertCandidate current sorted) sorted).Pairwise
          fun a b => b.score ≤ a.score := by
    induction rest generalizing sorted with
    | nil => exact ⟨by simp, before⟩
    | cons current rest ih =>
        obtain ⟨perm, ordered⟩ := ih _ (insertCandidate_sorted before)
        refine ⟨perm.trans ?_, ordered⟩
        refine ((insertCandidate_perm current sorted).append_right rest).trans ?_
        exact List.perm_middle.symm
  exact general candidates [] .nil

/-- The call returns as many of the eligible interfaces as there is room for, sorted
by descending score, and none that it left out has a higher score. -/
def RanksBest (descriptor : List UInt8) (maxCandidates : Nat)
    (run : Access (List ModemUsbCandidate)) : Prop :=
  ∃ returned omitted, run = .ok returned ∧
    returned.length = min maxCandidates (eligible descriptor).length ∧
    (returned.Pairwise fun a b => b.score ≤ a.score) ∧
    (returned ++ omitted).Perm (eligible descriptor) ∧
    ∀ candidate ∈ returned, ∀ other ∈ omitted, other.score ≤ candidate.score

/-- The best candidates are returned exactly when no interface behind the first
`maxCandidates` eligible ones has a higher score than one of these. -/
theorem usb_candidates_iff (descriptor : List UInt8) (maxCandidates : Nat) :
    RanksBest descriptor maxCandidates (modemUsbFindSerialCandidates descriptor maxCandidates) ↔
      ∀ first ∈ (eligible descriptor).take maxCandidates,
        ∀ later ∈ (eligible descriptor).drop maxCandidates, later.score ≤ first.score := by
  rw [modemUsbFindSerialCandidates_eq]
  obtain ⟨perm, sorted⟩ := sortCandidates_spec ((eligible descriptor).take maxCandidates)
  constructor
  · rintro ⟨returned, omitted, run, -, -, parts, best⟩
    cases run
    have whole : ((eligible descriptor).take maxCandidates ++ omitted).Perm
        ((eligible descriptor).take maxCandidates ++ (eligible descriptor).drop maxCandidates) := by
      rw [List.take_append_drop]
      exact (perm.symm.append_right omitted).trans parts
    have left := (List.perm_append_left_iff _).mp whole
    intro first member later behind
    exact best first (perm.mem_iff.mpr member) later (left.mem_iff.mpr behind)
  · intro best
    refine ⟨_, (eligible descriptor).drop maxCandidates, rfl, ?_, sorted, ?_, ?_⟩
    · rw [perm.length_eq, List.length_take]
    · refine (perm.append_right _).trans ?_
      rw [List.take_append_drop]
    · intro candidate member other behind
      exact best candidate (perm.mem_iff.mp member) other behind

/-- A vendor-specific interface with a bulk pair. -/
def bulkInterface (number protocol : UInt8) : List UInt8 :=
  [9, 4, number, 0, 2, 0xFF, 2, protocol, 0, 7, 5, 0x82, 2, 64, 0, 0, 7, 5, 0x02, 2, 64, 0, 0]

/-- Four interfaces of unknown protocols before the AT interface. -/
def crowdedDescriptor : List UInt8 :=
  [9, 2, 124, 0, 5, 1, 0, 0x80, 1] ++ bulkInterface 0 0x10 ++ bulkInterface 1 0x10 ++
    bulkInterface 2 0x10 ++ bulkInterface 3 0x10 ++ bulkInterface 4 0x01

/-- With room for four candidates, the AT interface is left out. -/
theorem at_interface_left_out :
    ¬ RanksBest crowdedDescriptor 4 (modemUsbFindSerialCandidates crowdedDescriptor 4) := by
  rintro ⟨returned, omitted, run, -, -, parts, best⟩
  have returnedScores : (modemUsbFindSerialCandidates crowdedDescriptor 4).map
      (List.map ModemUsbCandidate.score) = .ok [10, 10, 10, 10] := by
    decide +kernel
  rw [run, Except.map, Except.ok.injEq] at returnedScores
  have scores := parts.map ModemUsbCandidate.score
  have eligibleScores : (eligible crowdedDescriptor).map ModemUsbCandidate.score =
      [10, 10, 10, 10, 110] := by
    decide +kernel
  rw [List.map_append, returnedScores, eligibleScores] at scores
  have left : (110 : UInt8) ∈ omitted.map ModemUsbCandidate.score := by
    have total := scores.mem_iff.mpr (show (110 : UInt8) ∈ [10, 10, 10, 10, 110] by decide)
    exact (List.mem_append.mp total).resolve_left (by decide)
  have here : (10 : UInt8) ∈ returned.map ModemUsbCandidate.score := by
    rw [returnedScores]
    decide
  obtain ⟨other, behind, high⟩ := List.mem_map.mp left
  obtain ⟨candidate, member, low⟩ := List.mem_map.mp here
  have order := best candidate member other behind
  rw [high, low] at order
  revert order
  decide

end SmsGateway.Usb
