import FlashSale.Dates
/-!
# The countdown

`useCountdown` (apps/web/src/hooks) and `formatDuration`: what is left until a
sale's end, on a page whose clock may be off. The offset to the server's clock
is taken once, when the countdown is mounted. `none` is JavaScript's NaN.
-/

namespace FlashSale
open Lib.Calendar

/-! ## `formatDuration` -/

def MS_PER_SECOND : Nat := 1000
def MS_PER_MINUTE : Nat := 60 * MS_PER_SECOND
def MS_PER_HOUR : Nat := 60 * MS_PER_MINUTE

def formatDuration : Option Int → String
  | none => "NaN:NaN:NaN"
  | some ms =>
    let clamped := (max 0 ms).toNat
    toString (clamped / MS_PER_HOUR) ++ ":" ++ padStart 2 (clamped % MS_PER_HOUR / MS_PER_MINUTE) ++ ":" ++
      padStart 2 (clamped % MS_PER_MINUTE / MS_PER_SECOND)

example : formatDuration (some 7384000) = "2:03:04" := by decide +kernel

/-! ## `useCountdown` -/

/-- `remainingMsUntil`; `now` is `Date.now()`. -/
def remainingMsUntil (targetIso : String) (offsetMs : Option Int) (now : Int) : Option Int := do
  let target ← Date.parse targetIso
  let offset ← offsetMs
  some (max 0 (target - (now + offset)))

structure Countdown where
  offsetMs : Option Int
  remainingMs : Option Int

/-- The first render. The page's clock is read for either state. -/
def Countdown.mount (targetIso serverTimeIso : String) (now now' : Int) : Countdown :=
  let offsetMs := (Date.parse serverTimeIso).map (· - now)
  ⟨offsetMs, remainingMsUntil targetIso offsetMs now'⟩

/-- The effect's `tick`, at once and then every second, with the target of the
render it belongs to. A later `serverTime` is not looked at. -/
def Countdown.tick (C : Countdown) (targetIso : String) (now : Int) : Countdown :=
  { C with remainingMs := remainingMsUntil targetIso C.offsetMs now }

/-- The countdown after ticks, each with its target and its reading of the
page's clock. -/
def Countdown.ticks (C : Countdown) (readings : List (String × Int)) : Countdown :=
  readings.foldl (fun C reading => C.tick reading.1 reading.2) C

/-! ## What it shows -/

@[simp] theorem Countdown.ticks_offsetMs (C : Countdown) (readings : List (String × Int)) :
    (C.ticks readings).offsetMs = C.offsetMs := by
  induction readings generalizing C with
  | nil => rfl
  | cons reading readings ih => exact ih (C.tick reading.1 reading.2)

/-- Only the last tick counts. -/
theorem Countdown.ticks_concat (C : Countdown) (readings : List (String × Int)) (targetIso : String) (now : Int) :
    (C.ticks (readings ++ [(targetIso, now)])).remainingMs = remainingMsUntil targetIso C.offsetMs now := by
  unfold Countdown.ticks
  rw [List.foldl_concat]
  have hoffset := Countdown.ticks_offsetMs C readings
  unfold Countdown.ticks at hoffset
  rw [Countdown.tick, hoffset]

theorem remainingMsUntil_printed {target server now c : Int} (htarget : -MAX_TIME ≤ target ∧ target ≤ MAX_TIME)
    (hserver : -MAX_TIME ≤ server ∧ server ≤ MAX_TIME) :
    remainingMsUntil (toISOString target) ((Date.parse (toISOString server)).map (· - c)) now =
      some (max 0 (target - (server + (now - c)))) := by
  rw [remainingMsUntil, parse_printed htarget.1 htarget.2, parse_printed hserver.1 hserver.2]
  simp only [Option.bind_eq_bind, Option.bind_some, Option.map_some, Option.some.injEq]
  congr 2
  omega

/-- A duration's text is that of its whole seconds, and of no others. -/
theorem formatDuration_eq_iff {a b : Int} (ha : 0 ≤ a) (hb : 0 ≤ b) :
    formatDuration (some a) = formatDuration (some b) ↔ a / 1000 = b / 1000 := by
  obtain ⟨m, rfl⟩ := Int.eq_ofNat_of_zero_le ha
  obtain ⟨n, rfl⟩ := Int.eq_ofNat_of_zero_le hb
  have hclamp (k : Nat) : (max 0 (k : Int)).toNat = k := by omega
  have hcolon : ":".toList = [':'] := rfl
  simp only [formatDuration, hclamp, MS_PER_HOUR, MS_PER_MINUTE, MS_PER_SECOND]
  constructor
  · intro h
    have hsixty (k : Nat) (hk : k < 60) : k < 10 ^ 2 := lt_trans hk (by decide)
    have htexts := congrArg String.toList h
    simp only [String.toList_append, hcolon, List.append_assoc, List.cons_append, List.nil_append] at htexts
    -- Minutes and seconds take the last six places, the hours the rest.
    have hminute (k : Nat) : k % (60 * (60 * 1000)) / (60 * 1000) < 60 := by omega
    have hsecond (k : Nat) : k % (60 * 1000) / 1000 < 60 := by omega
    have htwo {k : Nat} (hk : k < 60) : (padStart 2 k).toList.length = 2 := padStart_length (by decide) (hsixty k hk)
    have hlen (k : Nat) := htwo (hminute k)
    have hlen' (k : Nat) := htwo (hsecond k)
    obtain ⟨hhours, hrest⟩ := List.append_inj' htexts (by simp [hlen, hlen'])
    obtain ⟨hminutes, hrest⟩ := List.append_inj (List.cons.inj hrest).2 (by rw [hlen, hlen])
    have hseconds := (List.cons.inj hrest).2
    have hh : m / (60 * (60 * 1000)) = n / (60 * (60 * 1000)) := by
      have hrepr (k : Nat) : (toString k).toList = Nat.toDigits 10 k := Nat.toList_repr
      rw [hrepr, hrepr] at hhours
      rw [← Nat.ofDigitChars_ten_toDigits (n := m / _), hhours, Nat.ofDigitChars_ten_toDigits]
    have hread {j k : Nat} (hj : j < 60) (hk : k < 60) (he : (padStart 2 j).toList = (padStart 2 k).toList) :
        j = k := by
      have hj := readDigits_padStart (by decide) (hsixty j hj) []
      rw [he, readDigits_padStart (by decide) (hsixty k hk)] at hj
      exact (Prod.mk.inj (Option.some.inj hj)).1.symm
    have hm := hread (hminute m) (hminute n) hminutes
    have hs := hread (hsecond m) (hsecond n) hseconds
    omega
  · intro h
    have hh : m / (60 * (60 * 1000)) = n / (60 * (60 * 1000)) := by omega
    have hm : m % (60 * (60 * 1000)) / (60 * 1000) = n % (60 * (60 * 1000)) / (60 * 1000) := by omega
    have hs : m % (60 * 1000) / 1000 = n % (60 * 1000) / 1000 := by omega
    rw [hh, hm, hs]

/-! ## Main theorem -/

/-- On a page whose clock is off by any amount, the countdown to the end of a
sale that was listed at `now` and mounted at the page's `c` counts from the
server's time, stands at zero just when the server would call the sale ended,
and shows whole seconds. -/
theorem countdown_matches_phase {row : ListedRow} {now c c' c'' : Int} (hnow : -MAX_TIME ≤ now ∧ now ≤ MAX_TIME)
    (hend : -MAX_TIME ≤ row.endsAt ∧ row.endsAt ≤ MAX_TIME) (hlt : row.startsAt ≤ row.endsAt)
    (readings : List (String × Int)) :
    ∃ ms, ((Countdown.mount (mapRowToSale row now).endsAt (mapRowToSale row now).serverTime c c').ticks
        (readings ++ [((mapRowToSale row now).endsAt, c'')])).remainingMs = some ms ∧
      ms = max 0 (row.endsAt - (now + (c'' - c))) ∧
      (ms = 0 ↔ derivePhase row.toSaleRow (now + (c'' - c)) = .ended) ∧
      ∀ ms', 0 ≤ ms' → (formatDuration (some ms) = formatDuration (some ms') ↔ ms / 1000 = ms' / 1000) := by
  refine ⟨max 0 (row.endsAt - (now + (c'' - c))), ?_, rfl, ?_, fun ms' hms' =>
    formatDuration_eq_iff (le_max_left _ _) hms'⟩
  · rw [Countdown.ticks_concat]
    simp only [Countdown.mount, mapRowToSale]
    exact remainingMsUntil_printed hend hnow
  · unfold derivePhase
    split
    · simp only [reduceCtorEq, iff_false]
      omega
    · split
      · simp only [iff_true]
        omega
      · split <;> simp only [reduceCtorEq, iff_false] <;> omega

/-- A sale that ends five seconds into 1970. -/
def closingRow : ListedRow := ⟨⟨"s", 1, 1, 0, 5000, none⟩, "1.00", "p", "Shoes", none, none, "2.00"⟩

/-- A page an hour slow, one second after the server had a second and a half
left. -/
theorem countdown_matches_phase_demo :
    ∃ ms, ((Countdown.mount (mapRowToSale closingRow 3500).endsAt (mapRowToSale closingRow 3500).serverTime
        (-3596500) (-3596499)).ticks ([] ++ [((mapRowToSale closingRow 3500).endsAt, -3595500)])).remainingMs = some ms ∧
      formatDuration (some ms) = "0:00:00" := by
  have hrow : closingRow.startsAt ≤ closingRow.endsAt := by decide
  refine (countdown_matches_phase (by decide) (by decide) hrow []).imp fun ms h => ⟨h.1, ?_⟩
  rw [h.2.1]
  decide +kernel

end FlashSale
