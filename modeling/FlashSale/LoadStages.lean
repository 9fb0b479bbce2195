import Mathlib.Algebra.Order.Field.Rat
import Mathlib.Tactic.Linarith
import Mathlib.Tactic.NormNum
import Mathlib.Tactic.Positivity
import Mathlib.Tactic.Ring
/-!
# The stages of the capacity ramp

`steppedArrivalRate` (packages/load-test/k6/config/options.ts) turns each stage
into a jump and a hold for k6's `ramping-arrival-rate` executor, which ramps
from target to target. `createStageTracker` (k6/lib/capacity-stages.ts) names
the stage of an iteration from the time that has passed. Both read the same
list of stages; this says that they agree.
-/

namespace FlashSale

/-! ## The two readings -/

structure RateStage where
  ratePerSecond : Nat
  durationSeconds : Nat
deriving DecidableEq

structure K6Stage where
  target : Nat
  durationSeconds : Nat
deriving DecidableEq

def JUMP_SECONDS : Nat := 2

/-- What `toK6Stages` makes of one stage. -/
def RateStage.toK6 (stage : RateStage) : List K6Stage :=
  let jumpSeconds := min JUMP_SECONDS stage.durationSeconds
  let holdSeconds := stage.durationSeconds - jumpSeconds
  if 0 < holdSeconds then [⟨stage.ratePerSecond, jumpSeconds⟩, ⟨stage.ratePerSecond, holdSeconds⟩]
  else [⟨stage.ratePerSecond, jumpSeconds⟩]

def toK6Stages (stages : List RateStage) : List K6Stage := stages.flatMap RateStage.toK6

/-- What the executor offers `ms` milliseconds after it was at the rate `rate`:
it ramps evenly to the target over the whole of a stage. -/
def offeredRate (rate : ℚ) (ms : ℚ) : List K6Stage → ℚ
  | [] => 0
  | stage :: stages =>
    if ms < stage.durationSeconds * 1000 then
      rate + (stage.target - rate) * (ms / (stage.durationSeconds * 1000))
    else offeredRate stage.target (ms - stage.durationSeconds * 1000) stages

def RateStage.name (stage : RateStage) : String := s!"rate_{stage.ratePerSecond}"

/-- `boundariesMs`, from a cumulative time. -/
def boundariesMs (cumulativeMs : Nat) : List RateStage → List Nat
  | [] => []
  | stage :: stages =>
    let cumulativeMs := cumulativeMs + stage.durationSeconds * 1000
    cumulativeMs :: boundariesMs cumulativeMs stages

/-- The stage that `recordIteration` counts an iteration in. -/
def recordedStage (stages : List RateStage) (elapsedMs : ℚ) : Option String :=
  let stageNames := stages.map RateStage.name
  match (boundariesMs 0 stages).findIdx? fun boundary : Nat => elapsedMs < boundary with
  | some i => stageNames[i]?
  | none => stageNames.getLast?

/-- How long stages last, in milliseconds. -/
def totalMs (stages : List RateStage) : Nat := (stages.map (·.durationSeconds * 1000)).sum

@[simp] theorem totalMs_nil : totalMs [] = 0 := rfl

@[simp] theorem totalMs_cons (stage : RateStage) (stages : List RateStage) :
    totalMs (stage :: stages) = stage.durationSeconds * 1000 + totalMs stages := rfl

/-! ## The tracker -/

theorem boundariesMs_past {elapsedMs : ℚ} (before : List RateStage) (rest : List RateStage) (c : Nat)
    (h : (c + totalMs before : Nat) ≤ elapsedMs) :
    ((boundariesMs c (before ++ rest)).findIdx? fun boundary : Nat => elapsedMs < boundary) =
      ((boundariesMs (c + totalMs before) rest).findIdx? fun boundary : Nat => elapsedMs < boundary).map
        (· + before.length) := by
  induction before generalizing c with
  | nil => simp
  | cons stage before ih =>
    have htotal : c + totalMs (stage :: before) = c + stage.durationSeconds * 1000 + totalMs before := by
      simp [Nat.add_assoc]
    rw [htotal] at h ⊢
    have hpast : ¬ elapsedMs < (c + stage.durationSeconds * 1000 : Nat) := by
      refine not_lt.2 (le_trans ?_ h)
      exact_mod_cast Nat.le_add_right _ _
    rw [List.cons_append, boundariesMs, List.findIdx?_cons, if_neg (by simpa using hpast), ih _ h, Option.map_map]
    rfl

theorem recordedStage_within {elapsedMs t : ℚ} {before after : List RateStage} {stage : RateStage}
    (helapsed : elapsedMs = totalMs before + t) (ht0 : 0 ≤ t) (ht : t < stage.durationSeconds * 1000) :
    recordedStage (before ++ stage :: after) elapsedMs = some stage.name := by
  have hfirst : elapsedMs < (totalMs before + stage.durationSeconds * 1000 : Nat) := by
    push_cast
    linarith
  have hindex : ((boundariesMs 0 (before ++ stage :: after)).findIdx? fun boundary : Nat => elapsedMs < boundary) =
      some before.length := by
    rw [boundariesMs_past before _ 0 (by rw [Nat.zero_add]; linarith), Nat.zero_add, boundariesMs, List.findIdx?_cons,
      if_pos (by simpa using hfirst), Option.map_some, Nat.zero_add]
  simp only [recordedStage, hindex]
  simp

theorem recordedStage_after {elapsedMs : ℚ} {stages : List RateStage} (h : totalMs stages ≤ elapsedMs) :
    recordedStage stages elapsedMs = (stages.getLast?).map RateStage.name := by
  have hindex : ((boundariesMs 0 stages).findIdx? fun boundary : Nat => elapsedMs < boundary) = none := by
    have hstart : ((0 + totalMs stages : Nat) : ℚ) ≤ elapsedMs := by simpa using h
    have hpast := boundariesMs_past stages [] 0 hstart
    simpa [boundariesMs] using hpast
  simp only [recordedStage, hindex, List.getLast?_map]

/-! ## The executor -/

theorem RateStage.toK6_short {stage : RateStage} (h : stage.durationSeconds ≤ JUMP_SECONDS) :
    stage.toK6 = [⟨stage.ratePerSecond, stage.durationSeconds⟩] := by
  have hjump : min JUMP_SECONDS stage.durationSeconds = stage.durationSeconds := Nat.min_eq_right h
  simp only [RateStage.toK6, hjump]
  rw [if_neg (by omega)]

theorem RateStage.toK6_long {stage : RateStage} (h : JUMP_SECONDS < stage.durationSeconds) :
    stage.toK6 =
      [⟨stage.ratePerSecond, JUMP_SECONDS⟩, ⟨stage.ratePerSecond, stage.durationSeconds - JUMP_SECONDS⟩] := by
  have hjump : min JUMP_SECONDS stage.durationSeconds = JUMP_SECONDS := Nat.min_eq_left h.le
  simp only [RateStage.toK6, hjump]
  rw [if_pos (by omega)]

section
variable {stage : RateStage} {rest : List K6Stage} {rate t : ℚ}

/-- A stage lasts as long as it says, and is left at its own rate. -/
theorem offeredRate_past (ht : 0 ≤ t) :
    offeredRate rate (stage.durationSeconds * 1000 + t) (stage.toK6 ++ rest) =
      offeredRate stage.ratePerSecond t rest := by
  rcases Nat.lt_or_ge JUMP_SECONDS stage.durationSeconds with hlong | hshort
  · have hhold : ((stage.durationSeconds - JUMP_SECONDS : Nat) : ℚ) = stage.durationSeconds - JUMP_SECONDS :=
      Nat.cast_sub hlong.le
    have hlong' : (JUMP_SECONDS : ℚ) < stage.durationSeconds := by exact_mod_cast hlong
    rw [RateStage.toK6_long hlong]
    simp only [List.cons_append, List.nil_append, offeredRate, hhold]
    rw [if_neg (by linarith), if_neg (by linarith)]
    congr 1
    ring
  · rw [RateStage.toK6_short hshort]
    simp only [List.cons_append, List.nil_append, offeredRate]
    rw [if_neg (by linarith), add_sub_cancel_left]

/-- On the plateau the rate is the stage's. -/
theorem offeredRate_plateau (hjump : (JUMP_SECONDS * 1000 : Nat) ≤ t) (ht : t < stage.durationSeconds * 1000) :
    offeredRate rate t (stage.toK6 ++ rest) = stage.ratePerSecond := by
  push_cast at hjump
  have hlong : JUMP_SECONDS < stage.durationSeconds := by
    have : (JUMP_SECONDS : ℚ) < stage.durationSeconds := by linarith
    exact_mod_cast this
  have hhold : ((stage.durationSeconds - JUMP_SECONDS : Nat) : ℚ) = stage.durationSeconds - JUMP_SECONDS :=
    Nat.cast_sub hlong.le
  rw [RateStage.toK6_long hlong]
  simp only [List.cons_append, List.nil_append, offeredRate, hhold]
  rw [if_neg (by linarith), if_pos (by linarith), sub_self, zero_mul, add_zero]

/-- In the jump the rate is between the rate before and the stage's. -/
theorem offeredRate_jump (ht0 : 0 ≤ t) (hjump : t < (JUMP_SECONDS * 1000 : Nat))
    (ht : t < stage.durationSeconds * 1000) :
    min rate stage.ratePerSecond ≤ offeredRate rate t (stage.toK6 ++ rest) ∧
      offeredRate rate t (stage.toK6 ++ rest) ≤ max rate stage.ratePerSecond := by
  push_cast at hjump
  obtain ⟨seconds, rest', hstages, hlt⟩ : ∃ (seconds : Nat) (rest' : List K6Stage),
      stage.toK6 ++ rest = ⟨stage.ratePerSecond, seconds⟩ :: rest' ∧ t < seconds * 1000 := by
    rcases Nat.lt_or_ge JUMP_SECONDS stage.durationSeconds with hlong | hshort
    · exact ⟨JUMP_SECONDS, _, by rw [RateStage.toK6_long hlong]; rfl, hjump⟩
    · exact ⟨stage.durationSeconds, _, by rw [RateStage.toK6_short hshort]; rfl, ht⟩
  rw [hstages]
  simp only [offeredRate]
  rw [if_pos hlt]
  have hpos : (0 : ℚ) < seconds * 1000 := lt_of_le_of_lt ht0 hlt
  have h0 : 0 ≤ t / (seconds * 1000) := div_nonneg ht0 hpos.le
  have h1 : t / (seconds * 1000) ≤ 1 := (div_le_one hpos).2 hlt.le
  generalize t / (seconds * 1000) = x at h0 h1
  rcases le_total rate stage.ratePerSecond with hup | hdown
  · rw [min_eq_left hup, max_eq_right hup]
    constructor <;> nlinarith
  · rw [min_eq_right hdown, max_eq_left hdown]
    constructor <;> nlinarith

end

/-- The rate at which a list of stages is left. -/
def lastRate (rate : ℚ) (stages : List RateStage) : ℚ := (stages.getLast?).elim rate (·.ratePerSecond)

theorem offeredRate_skip {t : ℚ} (ht : 0 ≤ t) (before rest : List RateStage) (rate : ℚ) :
    offeredRate rate (totalMs before + t) (toK6Stages (before ++ rest)) =
      offeredRate (lastRate rate before) t (toK6Stages rest) := by
  induction before generalizing rate with
  | nil => simp [lastRate]
  | cons stage before ih =>
    have htotal : ((totalMs (stage :: before) : Nat) : ℚ) + t = stage.durationSeconds * 1000 + (totalMs before + t) := by
      rw [totalMs_cons]
      push_cast
      ring
    have hlast : lastRate rate (stage :: before) = lastRate stage.ratePerSecond before := by
      cases before with
      | nil => rfl
      | cons next before =>
        rw [lastRate, lastRate, List.getLast?_cons_cons, List.getLast?_cons]
        rfl
    have hcons : toK6Stages (stage :: before ++ rest) = stage.toK6 ++ toK6Stages (before ++ rest) := rfl
    rw [htotal, hcons, offeredRate_past (by positivity), ih, hlast]

/-! ## Main theorem -/

/-- `t` milliseconds into any stage of any staircase: an iteration that ends
there is counted for that stage; from the end of the jump on the executor
offers exactly the stage's rate, and in the jump a rate between the one before
and the stage's. What ends after all stages is counted for the last. -/
theorem tracker_agrees (before after : List RateStage) (stage : RateStage) {t late : ℚ} (ht0 : 0 ≤ t)
    (ht : t < stage.durationSeconds * 1000) (hlate : totalMs (before ++ stage :: after) ≤ late) :
    recordedStage (before ++ stage :: after) (totalMs before + t) = some stage.name ∧
    ((JUMP_SECONDS * 1000 : Nat) ≤ t →
      offeredRate 0 (totalMs before + t) (toK6Stages (before ++ stage :: after)) = stage.ratePerSecond) ∧
    (t < (JUMP_SECONDS * 1000 : Nat) →
      min (lastRate 0 before) stage.ratePerSecond ≤
          offeredRate 0 (totalMs before + t) (toK6Stages (before ++ stage :: after)) ∧
        offeredRate 0 (totalMs before + t) (toK6Stages (before ++ stage :: after)) ≤
          max (lastRate 0 before) stage.ratePerSecond) ∧
    recordedStage (before ++ stage :: after) late = some ((after.getLast?).getD stage).name := by
  have hcons : toK6Stages (stage :: after) = stage.toK6 ++ toK6Stages after := rfl
  refine ⟨recordedStage_within rfl ht0 ht, fun hplateau => ?_, fun hjump => ?_, ?_⟩
  · rw [offeredRate_skip ht0, hcons]
    exact offeredRate_plateau hplateau ht
  · rw [offeredRate_skip ht0, hcons]
    exact offeredRate_jump ht0 hjump ht
  · rw [recordedStage_after hlate, List.getLast?_append, List.getLast?_cons]
    rfl

/-- Half a second into a second stage, on the way from 250 to 500, and three
seconds into it. -/
theorem tracker_agrees_demo :
    recordedStage [⟨250, 45⟩, ⟨500, 45⟩] (45000 + 3000) = some "rate_500" ∧
      offeredRate 0 (45000 + 3000) (toK6Stages [⟨250, 45⟩, ⟨500, 45⟩]) = 500 ∧
      offeredRate 0 (45000 + 500) (toK6Stages [⟨250, 45⟩, ⟨500, 45⟩]) ≤ 500 := by
  have htotal : totalMs [⟨250, 45⟩] = 45000 := rfl
  have hlate : totalMs ([⟨250, 45⟩] ++ [⟨500, 45⟩]) ≤ (90000 : ℚ) := by norm_num [totalMs]
  have hthree := tracker_agrees [⟨250, 45⟩] [] ⟨500, 45⟩ (by norm_num : (0 : ℚ) ≤ 3000) (by norm_num) hlate
  have hhalf := tracker_agrees [⟨250, 45⟩] [] ⟨500, 45⟩ (by norm_num : (0 : ℚ) ≤ 500) (by norm_num) hlate
  rw [htotal] at hthree hhalf
  refine ⟨by exact_mod_cast hthree.1, by exact_mod_cast hthree.2.1 (by norm_num [JUMP_SECONDS]), ?_⟩
  have hmax : max (lastRate 0 [⟨250, 45⟩]) ((500 : Nat) : ℚ) = 500 := by norm_num [lastRate]
  have hle := (hhalf.2.2.1 (by norm_num [JUMP_SECONDS])).2
  rw [hmax] at hle
  exact_mod_cast hle

end FlashSale
