import Mathlib.Algebra.Order.Field.Rat
import Mathlib.Algebra.Order.Ring.Cast
import Mathlib.Tactic.Linarith
import Mathlib.Tactic.NormNum
import Mathlib.Tactic.Ring
import SmsGateway.Lib.Potential

/-! The token bucket in front of the requests (`api_common.c`). The doubles are read as
rationals; the milliseconds are `int64_t`. -/

namespace SmsGateway.Api

open Lib

/-- `gateway_rate_limiter_t`. -/
structure RateLimiter where
  capacity : ℚ
  tokens : ℚ
  refillPerSecond : ℚ
  lastMs : Int64

def gatewayRateLimiterInit (capacity refillPerSecond : ℚ) (nowMs : Int64) : RateLimiter :=
  let capacity := if capacity > 0 then capacity else 1
  { capacity := capacity
    tokens := capacity
    refillPerSecond := if refillPerSecond > 0 then refillPerSecond else 0
    lastMs := nowMs }

/-- `1e-9`. -/
def tolerance : ℚ := 1 / 1000000000

namespace RateLimiter

/-- The refill of `gateway_rate_limiter_allow`. The milliseconds are subtracted as
`int64_t`, before the quotient is taken. -/
def refill (limiter : RateLimiter) (nowMs : Int64) : RateLimiter :=
  if nowMs > limiter.lastMs ∧ limiter.refillPerSecond > 0 then
    let elapsed : ℚ := (nowMs - limiter.lastMs).toInt / 1000
    let tokens := limiter.tokens + elapsed * limiter.refillPerSecond
    { limiter with
      tokens := if tokens > limiter.capacity then limiter.capacity else tokens
      lastMs := nowMs }
  else limiter

end RateLimiter

def gatewayRateLimiterAllow (limiter : RateLimiter) (cost : ℚ) (nowMs : Int64) :
    Bool × RateLimiter :=
  if cost ≤ 0 then (false, limiter)
  else
    let limiter := limiter.refill nowMs
    if limiter.tokens + tolerance < cost then (false, limiter)
    else (true, { limiter with tokens := limiter.tokens - cost })

/-- A call of `gateway_rate_limiter_allow`. -/
structure Call where
  cost : ℚ
  nowMs : Int64
  positive : 0 < cost

namespace RateLimiter

def step (limiter : RateLimiter) (call : Call) : RateLimiter :=
  (gatewayRateLimiterAllow limiter call.cost call.nowMs).2

/-- What a call takes: its cost when it is allowed. -/
def charge (limiter : RateLimiter) (call : Call) : ℚ :=
  if (gatewayRateLimiterAllow limiter call.cost call.nowMs).1 then call.cost else 0

def after (limiter : RateLimiter) (calls : List Call) : RateLimiter := calls.foldl step limiter

def allowedCost (limiter : RateLimiter) (calls : List Call) : ℚ := spent step charge limiter calls

/-- The largest `now_ms` of the calls. -/
def latest (first : Call) (rest : List Call) : Int :=
  rest.foldl (fun largest call => max largest call.nowMs.toInt) first.nowMs.toInt

/-- The tokens stay between `-1e-9` and the capacity, and every part of the calls takes at
most the capacity and what is refilled in its time. -/
def Bounded (limiter : RateLimiter) (calls : List Call) : Prop :=
  (∀ before rest, calls = before ++ rest →
    -tolerance ≤ (limiter.after before).tokens ∧
      (limiter.after before).tokens ≤ limiter.capacity) ∧
  ∀ before first part rest, calls = before ++ first :: part ++ rest →
    (limiter.after before).allowedCost (first :: part) ≤
      limiter.capacity +
        limiter.refillPerSecond * (latest first part - first.nowMs.toInt : Int) / 1000 + tolerance

/-- The milliseconds since the last refill fit in `int64_t`. -/
def Fits (limiter : RateLimiter) (call : Call) : Prop :=
  limiter.lastMs < call.nowMs → 0 < limiter.refillPerSecond →
    call.nowMs.toInt - limiter.lastMs.toInt < 2 ^ 63

variable {limiter : RateLimiter} {call : Call} {nowMs : Int64}

/-! ## One call -/

theorem elapsed_toInt (fits : nowMs.toInt - limiter.lastMs.toInt < 2 ^ 63)
    (later : limiter.lastMs < nowMs) :
    (nowMs - limiter.lastMs).toInt = nowMs.toInt - limiter.lastMs.toInt := by
  have order := Int64.lt_iff_toInt_lt.mp later
  rw [Int64.toInt_sub, Int.bmod_eq_of_le (by omega) (by omega)]

/-- Either the tokens of the elapsed time are poured in, up to the capacity, or nothing
happens: the clock did not go on, or nothing is refilled. -/
theorem refill_cases (fits : limiter.Fits call) :
    (limiter.lastMs.toInt < call.nowMs.toInt ∧ 0 < limiter.refillPerSecond ∧
      limiter.refill call.nowMs =
        { limiter with
          tokens := min limiter.capacity (limiter.tokens +
            ((call.nowMs.toInt - limiter.lastMs.toInt : Int) : ℚ) / 1000 * limiter.refillPerSecond)
          lastMs := call.nowMs }) ∨
    ((call.nowMs.toInt ≤ limiter.lastMs.toInt ∨ limiter.refillPerSecond ≤ 0) ∧
      limiter.refill call.nowMs = limiter) := by
  by_cases pours : call.nowMs > limiter.lastMs ∧ limiter.refillPerSecond > 0
  · refine .inl ⟨Int64.lt_iff_toInt_lt.mp pours.1, pours.2, ?_⟩
    rw [refill, if_pos pours, elapsed_toInt (fits pours.1 pours.2) pours.1]
    simp only [min_def_lt, gt_iff_lt]
  · refine .inr ⟨?_, if_neg pours⟩
    by_contra both
    push Not at both
    exact pours ⟨Int64.lt_iff_toInt_lt.mpr both.1, both.2⟩

/-- The tokens, less those that the time so far was worth. -/
def potential (limiter : RateLimiter) : ℚ :=
  limiter.tokens - limiter.refillPerSecond * limiter.lastMs.toInt / 1000

/-- What holds between two calls. -/
structure Sound (start limiter : RateLimiter) : Prop where
  capacity : limiter.capacity = start.capacity
  rate : limiter.refillPerSecond = start.refillPerSecond
  lower : -tolerance ≤ limiter.tokens
  upper : limiter.tokens ≤ limiter.capacity

theorem refill_sound {start : RateLimiter} (sound : Sound start limiter)
    (fits : limiter.Fits call) : Sound start (limiter.refill call.nowMs) := by
  obtain ⟨later, rate, refilled⟩ | ⟨-, unchanged⟩ := refill_cases fits
  · rw [refilled]
    refine ⟨sound.capacity, sound.rate, le_min ?_ ?_, min_le_left _ _⟩
    · exact sound.lower.trans sound.upper
    · have time : (0 : ℚ) ≤ ((call.nowMs.toInt - limiter.lastMs.toInt : Int) : ℚ) / 1000 := by
        apply div_nonneg _ (by norm_num)
        exact_mod_cast (by omega : (0 : Int) ≤ call.nowMs.toInt - limiter.lastMs.toInt)
      have gain := mul_nonneg time rate.le
      linarith [sound.lower]
  · rw [unchanged]
    exact sound

theorem refill_potential (fits : limiter.Fits call) :
    (limiter.refill call.nowMs).potential ≤ limiter.potential := by
  obtain ⟨later, rate, refilled⟩ | ⟨-, unchanged⟩ := refill_cases fits
  · rw [refilled, potential, potential]
    have poured := min_le_right limiter.capacity (limiter.tokens +
      ((call.nowMs.toInt - limiter.lastMs.toInt : Int) : ℚ) / 1000 * limiter.refillPerSecond)
    push_cast at poured ⊢
    linarith
  · rw [unchanged]

/-- A call is refused behind the refill, or it takes its cost. -/
theorem allow_cases (limiter : RateLimiter) (call : Call) :
    (limiter.charge call = 0 ∧ limiter.step call = limiter.refill call.nowMs) ∨
    (limiter.charge call = call.cost ∧
      call.cost ≤ (limiter.refill call.nowMs).tokens + tolerance ∧
      limiter.step call =
        { limiter.refill call.nowMs with
          tokens := (limiter.refill call.nowMs).tokens - call.cost }) := by
  have some : ¬ call.cost ≤ 0 := not_le.mpr call.positive
  by_cases short : (limiter.refill call.nowMs).tokens + tolerance < call.cost
  · left
    simp [charge, step, gatewayRateLimiterAllow, some, short]
  · right
    refine ⟨?_, not_lt.mp short, ?_⟩
    · simp [charge, gatewayRateLimiterAllow, some, short]
    · simp [step, gatewayRateLimiterAllow, some, short]

theorem step_sound {start : RateLimiter} (sound : Sound start limiter)
    (fits : limiter.Fits call) : Sound start (limiter.step call) := by
  have refilled := refill_sound sound fits
  obtain ⟨-, refused⟩ | ⟨-, enough, allowed⟩ := allow_cases limiter call
  · rw [refused]
    exact refilled
  · rw [allowed]
    refine ⟨refilled.capacity, refilled.rate, ?_, ?_⟩
    · linarith
    · have upper := refilled.upper
      have positive := call.positive
      exact (sub_le_self _ positive.le).trans upper

theorem step_potential (limiter : RateLimiter) (call : Call) :
    limiter.charge call + (limiter.step call).potential =
      (limiter.refill call.nowMs).potential := by
  obtain ⟨free, refused⟩ | ⟨taken, -, allowed⟩ := allow_cases limiter call
  · rw [free, refused, zero_add]
  · rw [taken, allowed]
    simp only [potential]
    ring

theorem step_lastMs_eq (limiter : RateLimiter) (call : Call) :
    (limiter.step call).lastMs = (limiter.refill call.nowMs).lastMs := by
  obtain ⟨-, refused⟩ | ⟨-, -, allowed⟩ := allow_cases limiter call
  · rw [refused]
  · rw [allowed]

theorem step_lastMs_cases (limiter : RateLimiter) (call : Call) :
    (limiter.step call).lastMs = limiter.lastMs ∨ (limiter.step call).lastMs = call.nowMs := by
  rw [step_lastMs_eq, refill]
  split
  · exact .inr rfl
  · exact .inl rfl

/-! ## Whole runs -/

theorem after_sound {calls : List Call} (along : Along step Fits limiter calls)
    (sound : Sound limiter limiter) : Sound limiter (limiter.after calls) :=
  along.invariant (fun _ _ sound fits => step_sound sound fits) sound

theorem lastMs_le {bound : Int} (calls : List Call) (past : limiter.lastMs.toInt ≤ bound)
    (times : ∀ call ∈ calls, call.nowMs.toInt ≤ bound) :
    (limiter.after calls).lastMs.toInt ≤ bound := by
  induction calls generalizing limiter with
  | nil => exact past
  | cons call calls ih =>
      refine ih ?_ (fun later member => times later (List.mem_cons_of_mem _ member))
      rcases step_lastMs_cases limiter call with same | moved
      · rw [same]
        exact past
      · rw [moved]
        exact times call List.mem_cons_self

/-- A clock that starts at zero, such as the timer of the callers, never overflows. -/
theorem along_of_nonneg (calls : List Call) (past : 0 ≤ limiter.lastMs.toInt)
    (times : ∀ call ∈ calls, 0 ≤ call.nowMs.toInt) : Along step Fits limiter calls := by
  induction calls generalizing limiter with
  | nil => trivial
  | cons call calls ih =>
      refine ⟨?_, ih ?_ (fun later member => times later (List.mem_cons_of_mem _ member))⟩
      · intro _ _
        have largest := Int64.toInt_lt call.nowMs
        omega
      · rcases step_lastMs_cases limiter call with same | moved
        · rw [same]
          exact past
        · rw [moved]
          exact times call List.mem_cons_self

theorem le_latest (first : Call) (rest : List Call) :
    first.nowMs.toInt ≤ latest first rest ∧
      ∀ call ∈ rest, call.nowMs.toInt ≤ latest first rest := by
  unfold latest
  generalize first.nowMs.toInt = largest
  induction rest generalizing largest with
  | nil => simp
  | cons call rest ih =>
      obtain ⟨here, later⟩ := ih (max largest call.nowMs.toInt)
      refine ⟨(le_max_left _ _).trans here, ?_⟩
      intro other member
      rcases List.mem_cons.mp member with rfl | inRest
      · exact (le_max_right _ _).trans here
      · exact later other inRest

/-- Behind its refill, a limiter that refills is not behind the clock of the call. -/
theorem refill_not_behind (fits : limiter.Fits call) (rate : 0 < limiter.refillPerSecond) :
    call.nowMs.toInt ≤ (limiter.refill call.nowMs).lastMs.toInt := by
  obtain ⟨-, -, refilled⟩ | ⟨idle, unchanged⟩ := refill_cases fits
  · rw [refilled]
  · rw [unchanged]
    rcases idle with behind | none
    · exact behind
    · exact absurd rate (not_lt.mpr none)

/-- A part of the calls moves the time of the last refill at most from the time of its first
call to its latest time. -/
theorem refill_time_le {first : Call} {part : List Call} (fits : limiter.Fits first)
    (rate : 0 ≤ limiter.refillPerSecond) :
    limiter.refillPerSecond * ((limiter.after (first :: part)).lastMs.toInt -
      (limiter.refill first.nowMs).lastMs.toInt : Int) ≤
    limiter.refillPerSecond * (latest first part - first.nowMs.toInt : Int) := by
  rcases rate.eq_or_lt with none | some
  · simp [← none]
  · obtain ⟨atFirst, times⟩ := le_latest first part
    have reached := refill_not_behind fits some
    have moved : (limiter.after (first :: part)).lastMs.toInt ≤
        max (limiter.refill first.nowMs).lastMs.toInt (latest first part) := by
      refine lastMs_le part ?_ (fun call member => (times call member).trans (le_max_right _ _))
      rw [step_lastMs_eq]
      exact le_max_left _ _
    apply mul_le_mul_of_nonneg_left _ rate
    exact_mod_cast (by omega : (limiter.after (first :: part)).lastMs.toInt -
      (limiter.refill first.nowMs).lastMs.toInt ≤ latest first part - first.nowMs.toInt)

theorem allowedCost_le {start : RateLimiter} {first : Call} {part : List Call}
    (sound : Sound start limiter) (rate : 0 ≤ limiter.refillPerSecond)
    (along : Along step Fits limiter (first :: part)) :
    limiter.allowedCost (first :: part) ≤ limiter.capacity +
      limiter.refillPerSecond * (latest first part - first.nowMs.toInt : Int) / 1000 +
      tolerance := by
  have refilled := refill_sound sound along.1
  have ends : Sound start (limiter.after (first :: part)) :=
    along.invariant (fun _ _ sound fits => step_sound sound fits) sound
  -- The first call pours before it takes: the bucket is then at most full.
  have head := step_potential limiter first
  have tail : (limiter.step first).allowedCost part +
      (limiter.after (first :: part)).potential ≤ (limiter.step first).potential :=
    along.2.spent_le (fun s call fits => (step_potential s call).trans_le (refill_potential fits))
  have time := @refill_time_le limiter first part along.1 rate
  have total : limiter.allowedCost (first :: part) ≤
      (limiter.refill first.nowMs).potential - (limiter.after (first :: part)).potential := by
    rw [← head]
    change limiter.charge first + (limiter.step first).allowedCost part ≤ _
    linarith
  have full : (limiter.refill first.nowMs).tokens ≤ limiter.capacity := by
    rw [sound.capacity, ← refilled.capacity]
    exact refilled.upper
  have rest := ends.lower
  rw [potential, potential, refilled.rate, ends.rate, ← sound.rate] at total
  push_cast at time ⊢
  linarith

theorem init_sound (capacity refillPerSecond : ℚ) (nowMs : Int64) :
    Sound (gatewayRateLimiterInit capacity refillPerSecond nowMs)
      (gatewayRateLimiterInit capacity refillPerSecond nowMs) := by
  refine ⟨rfl, rfl, ?_, le_refl _⟩
  have positive : (0 : ℚ) < if capacity > 0 then capacity else 1 := by
    split
    · assumption
    · exact one_pos
  have small : -tolerance ≤ 0 := by norm_num [tolerance]
  exact small.trans positive.le

theorem init_rate (capacity refillPerSecond : ℚ) (nowMs : Int64) :
    0 ≤ (gatewayRateLimiterInit capacity refillPerSecond nowMs).refillPerSecond := by
  rw [gatewayRateLimiterInit]
  dsimp only
  split
  · exact le_of_lt ‹_›
  · exact le_refl _

/-- A limiter whose elapsed milliseconds never overflow keeps its bounds over every run. -/
theorem rate_limiter_bounded (capacity refillPerSecond : ℚ) (nowMs : Int64) (calls : List Call)
    (fits : Along step Fits (gatewayRateLimiterInit capacity refillPerSecond nowMs) calls) :
    Bounded (gatewayRateLimiterInit capacity refillPerSecond nowMs) calls := by
  have initial := init_sound capacity refillPerSecond nowMs
  have rate := init_rate capacity refillPerSecond nowMs
  generalize gatewayRateLimiterInit capacity refillPerSecond nowMs = limiter at *
  refine ⟨?_, ?_⟩
  · rintro before rest rfl
    have sound := after_sound fits.append.1 initial
    refine ⟨sound.lower, ?_⟩
    rw [← sound.capacity]
    exact sound.upper
  · rintro before first part rest rfl
    have inside := fits.append.1.append
    have sound := after_sound inside.1 initial
    have bound := allowedCost_le sound (sound.rate ▸ rate) inside.2
    rwa [sound.capacity, sound.rate] at bound

/-- Two calls at once and a third when a second has passed. -/
theorem rate_limiter_bounded_refilled :
    Bounded (gatewayRateLimiterInit 2 1 1000)
      [⟨1, 1000, one_pos⟩, ⟨1, 1000, one_pos⟩, ⟨1, 2000, one_pos⟩] := by
  apply rate_limiter_bounded
  exact along_of_nonneg _ (by decide) (by decide)

/-- The milliseconds from -1 to the largest ones are no `int64_t`: the bucket is emptied. -/
theorem overflow_not_bounded :
    ¬ Bounded (gatewayRateLimiterInit 1 1 (-1)) [⟨1, Int64.maxValue, one_pos⟩] := by
  intro bounded
  have lower := (bounded.1 [⟨1, Int64.maxValue, one_pos⟩] [] rfl).1
  revert lower
  decide +kernel

end RateLimiter

end SmsGateway.Api
