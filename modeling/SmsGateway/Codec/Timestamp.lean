import SmsGateway.Codec.Deliver

/-! Which octets `timestamp_decode` takes for a timestamp, and that it tells them apart. -/

namespace SmsGateway

namespace Timestamp

/-- The digits of an octet: the tens are in its low half. -/
def tens (octet : UInt8) : Nat := octet.toNat % 16

def ones (octet : UInt8) : Nat := octet.toNat / 16

def Decimal (octet : UInt8) : Prop := tens octet ≤ 9 ∧ ones octet ≤ 9

def value (octet : UInt8) : Nat := tens octet * 10 + ones octet

/-- The tens of the zone, without its sign. -/
def zoneTens (zone : UInt8) : Nat := zone.toNat % 8

def quarters (zone : UInt8) : Nat := zoneTens zone * 10 + ones zone

/-- Digits in range up to the second. -/
structure DateTime (data : List UInt8) : Prop where
  decimal : ∀ i < 6, Decimal (data.getD i 0)
  month : 1 ≤ value (data.getD 1 0) ∧ value (data.getD 1 0) ≤ 12
  day : 1 ≤ value (data.getD 2 0) ∧ value (data.getD 2 0) ≤ 31
  hour : value (data.getD 3 0) ≤ 23
  minute : value (data.getD 4 0) ≤ 59
  second : value (data.getD 5 0) ≤ 59

/-- Every half octet but the sign is a digit, and every field is in its range. -/
def WellFormed (data : List UInt8) : Prop :=
  DateTime data ∧ (zoneTens (data.getD 6 0) ≤ 9 ∧ ones (data.getD 6 0) ≤ 9) ∧
    quarters (data.getD 6 0) ≤ 79

/-- A date and a time with a zone in range whose ones are no digit. -/
def LooseZone (data : List UInt8) : Prop :=
  DateTime data ∧ 9 < ones (data.getD 6 0) ∧ quarters (data.getD 6 0) ≤ 79

/-! ## The fields as the code reads them -/

theorem low_half (octet : UInt8) : (octet &&& 0x0F).toNat = tens octet :=
  forall_octet (P := fun octet => (octet &&& 0x0F).toNat = octet.toNat % 16) (by decide +kernel)
    octet

theorem high_half (octet : UInt8) : ((octet >>> 4) &&& 0x0F).toNat = ones octet :=
  forall_octet (P := fun octet => ((octet >>> 4) &&& 0x0F).toNat = octet.toNat / 16)
    (by decide +kernel) octet

theorem zone_tens (zone : UInt8) : (zone &&& 0x07).toNat = zoneTens zone :=
  forall_octet (P := fun zone => (zone &&& 0x07).toNat = zone.toNat % 8) (by decide +kernel) zone

theorem zone_sign (zone : UInt8) : zone &&& 0x08 ≠ 0 ↔ zone.toNat / 8 % 2 = 1 :=
  forall_octet (P := fun zone => zone &&& 0x08 ≠ 0 ↔ zone.toNat / 8 % 2 = 1) (by decide +kernel)
    zone

theorem semiOctetValue_eq (octet : UInt8) :
    semiOctetValue octet = if tens octet > 9 ∨ ones octet > 9 then none else some (value octet) := by
  rw [semiOctetValue, low_half, high_half]
  rfl

theorem semiOctetValue_some {octet : UInt8} {number : Nat} :
    semiOctetValue octet = some number ↔ Decimal octet ∧ number = value octet := by
  rw [semiOctetValue_eq, Decimal]
  split
  · rename_i beyond
    exact ⟨nofun, fun both => absurd both.1 (by omega)⟩
  · rename_i within
    exact ⟨fun same => ⟨by omega, (Option.some.inj same).symm⟩, fun both => by rw [both.2]⟩

def year (octet : UInt8) : Nat := if value octet ≥ 70 then 1900 + value octet else 2000 + value octet

/-- What the source prints of seven octets. -/
def text (data : List UInt8) : List UInt8 :=
  timestampText (year (data.getD 0 0)) (value (data.getD 1 0)) (value (data.getD 2 0))
    (value (data.getD 3 0)) (value (data.getD 4 0)) (value (data.getD 5 0))
    (decide (data.getD 6 0 &&& 0x08 ≠ 0)) (quarters (data.getD 6 0) * 15 / 60)
    (quarters (data.getD 6 0) * 15 % 60)

theorem text_length (data : List UInt8) : (text data).length = 25 := by
  simp [text, timestampText, decimal2]

theorem below_six {i : Nat} (inside : i < 6) : i = 0 ∨ i = 1 ∨ i = 2 ∨ i = 3 ∨ i = 4 ∨ i = 5 := by
  omega

theorem timestampDecode_iff {data : List UInt8} {outCapacity : Nat} (whole : 7 ≤ data.length)
    (room : 25 < outCapacity) (out : List UInt8) :
    timestampDecode data outCapacity = some out ↔
      (DateTime data ∧ quarters (data.getD 6 0) ≤ 79) ∧ out = text data := by
  have enough : ¬ (data.length < 7 ∨ outCapacity < 24) := by omega
  have printed : (if (text data).length < outCapacity then some (text data) else none) =
      some (text data) := if_pos (by rw [text_length]; exact room)
  simp only [timestampDecode, if_neg enough, Option.bind_eq_bind, Option.bind_eq_some_iff,
    semiOctetValue_some, zone_tens, high_half]
  constructor
  · rintro ⟨_, ⟨d0, rfl⟩, _, ⟨d1, rfl⟩, _, ⟨d2, rfl⟩, _, ⟨d3, rfl⟩, _, ⟨d4, rfl⟩, _, ⟨d5, rfl⟩,
      written⟩
    split at written
    · cases written
    · rename_i ranges
      simp only [not_or, Nat.not_lt] at ranges
      obtain ⟨m1, m12, d1', d31, h23, mi59, s59, zone⟩ := ranges
      refine ⟨⟨⟨?_, ⟨m1, m12⟩, ⟨d1', d31⟩, h23, mi59, s59⟩, zone⟩, ?_⟩
      · intro i inside
        obtain rfl | rfl | rfl | rfl | rfl | rfl := below_six inside
        · exact d0
        · exact d1
        · exact d2
        · exact d3
        · exact d4
        · exact d5
      · exact (Option.some.inj (printed.symm.trans written)).symm
  · rintro ⟨⟨date, zone⟩, rfl⟩
    have ranges : ¬ (value (data.getD 1 0) < 1 ∨ value (data.getD 1 0) > 12 ∨
        value (data.getD 2 0) < 1 ∨ value (data.getD 2 0) > 31 ∨ value (data.getD 3 0) > 23 ∨
        value (data.getD 4 0) > 59 ∨ value (data.getD 5 0) > 59 ∨
        zoneTens (data.getD 6 0) * 10 + ones (data.getD 6 0) > 79) := by
      have month := date.month
      have day := date.day
      have hour := date.hour
      have minute := date.minute
      have second := date.second
      rw [quarters] at zone
      omega
    refine ⟨_, ⟨date.decimal 0 (by decide), rfl⟩, _, ⟨date.decimal 1 (by decide), rfl⟩,
      _, ⟨date.decimal 2 (by decide), rfl⟩, _, ⟨date.decimal 3 (by decide), rfl⟩,
      _, ⟨date.decimal 4 (by decide), rfl⟩, _, ⟨date.decimal 5 (by decide), rfl⟩, ?_⟩
    rw [if_neg ranges]
    exact printed

theorem timestampDecode_accepts {data : List UInt8} {outCapacity : Nat} (whole : 7 ≤ data.length)
    (room : 25 < outCapacity) :
    (timestampDecode data outCapacity).isSome ↔ DateTime data ∧ quarters (data.getD 6 0) ≤ 79 := by
  rw [Option.isSome_iff_exists]
  constructor
  · rintro ⟨out, decoded⟩
    exact ((timestampDecode_iff whole room out).mp decoded).1
  · intro fields
    exact ⟨text data, (timestampDecode_iff whole room _).mpr ⟨fields, rfl⟩⟩

/-- The only octets that are accepted and should not be have a loose zone. -/
theorem accepts_wellFormed_iff {data : List UInt8} {outCapacity : Nat} (whole : 7 ≤ data.length)
    (room : 25 < outCapacity) :
    ((timestampDecode data outCapacity).isSome ↔ WellFormed data) ↔ ¬ LooseZone data := by
  have tensDigit : zoneTens (data.getD 6 0) ≤ 9 := by
    simp only [zoneTens]
    omega
  rw [timestampDecode_accepts whole room]
  constructor
  · rintro exact ⟨date, beyond, zone⟩
    have digits := (exact.mp ⟨date, zone⟩).2.1.2
    omega
  · intro tight
    refine ⟨fun ⟨date, zone⟩ => ⟨date, ⟨tensDigit, ?_⟩, zone⟩, fun ⟨date, _, zone⟩ => ⟨date, zone⟩⟩
    by_contra beyond
    exact tight ⟨date, by omega, zone⟩

/-! ## The text tells the octets apart -/

theorem decimal2_injective {a b : Nat} (smallA : a < 100) (smallB : b < 100)
    (same : decimal2 a = decimal2 b) : a = b := by
  simp only [decimal2, List.cons.injEq, and_true] at same
  have high := congrArg UInt8.toNat same.1
  have low := congrArg UInt8.toNat same.2
  simp only [UInt8.toNat_ofNat'] at high low
  omega

theorem timestampText_fields {year month day hour minute second tzHours tzMins : Nat}
    {year' month' day' hour' minute' second' tzHours' tzMins' : Nat} {negative negative' : Bool}
    (same : timestampText year month day hour minute second negative tzHours tzMins =
      timestampText year' month' day' hour' minute' second' negative' tzHours' tzMins') :
    (decimal2 (year % 100) = decimal2 (year' % 100) ∧ decimal2 month = decimal2 month' ∧
      decimal2 day = decimal2 day' ∧ decimal2 hour = decimal2 hour' ∧
      decimal2 minute = decimal2 minute' ∧ decimal2 second = decimal2 second') ∧
      negative = negative' ∧ decimal2 tzHours = decimal2 tzHours' ∧
      decimal2 tzMins = decimal2 tzMins' := by
  have signs : (if negative then (0x2D : UInt8) else 0x2B) =
      (if negative' then 0x2D else 0x2B) → negative = negative' := by
    cases negative <;> cases negative' <;> decide
  simp only [timestampText, decimal2, List.cons_append, List.nil_append, List.cons.injEq, and_true,
    true_and] at same ⊢
  obtain ⟨-, -, y1, y2, m1, m2, d1, d2, h1, h2, i1, i2, s1, s2, sign, t1, t2, z1, z2⟩ := same
  exact ⟨⟨⟨y1, y2⟩, ⟨m1, m2⟩, ⟨d1, d2⟩, ⟨h1, h2⟩, ⟨i1, i2⟩, ⟨s1, s2⟩⟩, signs sign, ⟨t1, t2⟩, ⟨z1, z2⟩⟩

theorem Decimal.value_lt {octet : UInt8} (decimal : Decimal octet) : value octet < 100 := by
  have digits := decimal
  simp only [Decimal, value] at digits ⊢
  omega

theorem octet_of_value {a b : UInt8} (decimalA : Decimal a) (decimalB : Decimal b)
    (same : value a = value b) : a = b := by
  apply UInt8.toNat_inj.mp
  simp only [Decimal, value, tens, ones] at decimalA decimalB same
  omega

theorem octet_of_text {a b : UInt8} (decimalA : Decimal a) (decimalB : Decimal b)
    (same : decimal2 (value a) = decimal2 (value b)) : a = b :=
  octet_of_value decimalA decimalB
    (decimal2_injective decimalA.value_lt decimalB.value_lt same)

theorem year_mod {octet : UInt8} (decimal : Decimal octet) : year octet % 100 = value octet := by
  have small := decimal.value_lt
  simp only [year]
  split <;> omega

theorem zone_of_text {a b : UInt8} (digitA : ones a ≤ 9) (digitB : ones b ≤ 9)
    (rangeA : quarters a ≤ 79) (rangeB : quarters b ≤ 79)
    (sign : decide (a &&& 0x08 ≠ 0) = decide (b &&& 0x08 ≠ 0))
    (hours : decimal2 (quarters a * 15 / 60) = decimal2 (quarters b * 15 / 60))
    (minutes : decimal2 (quarters a * 15 % 60) = decimal2 (quarters b * 15 % 60)) : a = b := by
  have sameHours := decimal2_injective (by omega) (by omega) hours
  have sameMinutes := decimal2_injective (by omega) (by omega) minutes
  have sameSign : a.toNat / 8 % 2 = 1 ↔ b.toNat / 8 % 2 = 1 := by
    rw [← zone_sign, ← zone_sign]
    exact decide_eq_decide.mp sign
  have sameQuarters : quarters a = quarters b := by omega
  simp only [quarters] at sameQuarters
  have sameOnes : ones a = ones b := by omega
  have sameTens : zoneTens a = zoneTens b := by omega
  simp only [zoneTens, ones] at sameOnes sameTens
  apply UInt8.toNat_inj.mp
  omega

theorem text_injective {a b : List UInt8} (sevenA : a.length = 7) (sevenB : b.length = 7)
    (formA : WellFormed a) (formB : WellFormed b) (same : text a = text b) : a = b := by
  obtain ⟨dateA, ⟨-, digitA⟩, rangeA⟩ := formA
  obtain ⟨dateB, ⟨-, digitB⟩, rangeB⟩ := formB
  obtain ⟨⟨y, mo, d, h, mi, s⟩, sign, hours, minutes⟩ := timestampText_fields same
  rw [year_mod (dateA.decimal 0 (by decide)), year_mod (dateB.decimal 0 (by decide))] at y
  have date : ∀ i < 6, decimal2 (value (a.getD i 0)) = decimal2 (value (b.getD i 0)) := by
    intro i inside
    obtain rfl | rfl | rfl | rfl | rfl | rfl := below_six inside
    · exact y
    · exact mo
    · exact d
    · exact h
    · exact mi
    · exact s
  have octets : ∀ i < 7, a.getD i 0 = b.getD i 0 := by
    intro i inside
    by_cases zone : i = 6
    · rw [zone]
      exact zone_of_text digitA digitB rangeA rangeB sign hours minutes
    · exact octet_of_text (dateA.decimal i (by omega)) (dateB.decimal i (by omega))
        (date i (by omega))
  apply List.ext_getElem (sevenA.trans sevenB.symm)
  intro i inA inB
  have here := octets i (by omega)
  rwa [List.getD_eq_getElem _ _ inA, List.getD_eq_getElem _ _ inB] at here

end Timestamp

open Timestamp

/-- Two timestamps are accepted exactly when they are well formed and are told apart by their
texts, unless one of them has a zone with ones that are no digit. -/
theorem timestamp_decode_exact {a b : List UInt8} {outCapacity : Nat} (sevenA : a.length = 7)
    (sevenB : b.length = 7) (room : 25 < outCapacity) :
    (((timestampDecode a outCapacity).isSome ↔ WellFormed a) ∧
      ((timestampDecode b outCapacity).isSome ↔ WellFormed b) ∧
      (∀ out, timestampDecode a outCapacity = some out →
        timestampDecode b outCapacity = some out → a = b)) ↔
      ¬ LooseZone a ∧ ¬ LooseZone b := by
  have wholeA : 7 ≤ a.length := Nat.le_of_eq sevenA.symm
  have wholeB : 7 ≤ b.length := Nat.le_of_eq sevenB.symm
  rw [accepts_wellFormed_iff wholeA room, accepts_wellFormed_iff wholeB room]
  constructor
  · rintro ⟨tightA, tightB, -⟩
    exact ⟨tightA, tightB⟩
  · rintro ⟨tightA, tightB⟩
    refine ⟨tightA, tightB, fun out outA outB => ?_⟩
    have formA : WellFormed a :=
      ((accepts_wellFormed_iff wholeA room).mpr tightA).mp (by rw [outA]; rfl)
    have formB : WellFormed b :=
      ((accepts_wellFormed_iff wholeB room).mpr tightB).mp (by rw [outB]; rfl)
    have textA := ((timestampDecode_iff wholeA room out).mp outA).2
    have textB := ((timestampDecode_iff wholeB room out).mp outB).2
    exact text_injective sevenA sevenB formA formB (textA.symm.trans textB)

/-- Noon of New Year's Day 2024, ten quarters of an hour east of Greenwich. -/
def tenQuarters : List UInt8 := [0x42, 0x10, 0x10, 0x21, 0x00, 0x00, 0x01]

def greenwich : List UInt8 := [0x42, 0x10, 0x10, 0x21, 0x00, 0x00, 0x00]

/-- Ten quarters again, all of them in the ones of the zone. -/
def looseTenQuarters : List UInt8 := [0x42, 0x10, 0x10, 0x21, 0x00, 0x00, 0xA0]

theorem timestamp_decode_exact_tenQuarters :
    tenQuarters.length = 7 ∧ greenwich.length = 7 ∧
    ((((timestampDecode tenQuarters 40).isSome ↔ WellFormed tenQuarters) ∧
      ((timestampDecode greenwich 40).isSome ↔ WellFormed greenwich) ∧
      (∀ out, timestampDecode tenQuarters 40 = some out →
        timestampDecode greenwich 40 = some out → tenQuarters = greenwich)) ↔
      ¬ LooseZone tenQuarters ∧ ¬ LooseZone greenwich) :=
  ⟨rfl, rfl, timestamp_decode_exact rfl rfl (by decide)⟩

theorem loose_zone_accepted :
    timestampDecode looseTenQuarters 40 = timestampDecode tenQuarters 40 ∧
      (timestampDecode looseTenQuarters 40).isSome ∧ looseTenQuarters ≠ tenQuarters ∧
      ¬ WellFormed looseTenQuarters := by
  refine ⟨by decide, by decide, by decide, fun formed => ?_⟩
  exact absurd formed.2.1.2 (by decide)

end SmsGateway
