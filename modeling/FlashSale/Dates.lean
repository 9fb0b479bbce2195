import FlashSale.Lib.Calendar
import FlashSale.Listing
/-!
# Dates as text

`serverTime`, `endsAt` and `purchasedAt` travel as ISO strings: the api prints
them with `toISOString`, the page reads them with `Date.parse`. Whatever the
api can print, the page reads as the same time.
-/

namespace FlashSale
open Lib.Calendar

/-! ## `Date.parse` -/

/-- `width` decimal digits. -/
def readDigits (width : Nat) (cs : List Char) : Option (Nat × List Char) :=
  if (cs.take width).length = width ∧ (cs.take width).all Char.isDigit then
    some (Nat.ofDigitChars 10 (cs.take width) 0, cs.drop width)
  else none

def readChar (c : Char) : List Char → Option (List Char)
  | [] => none
  | d :: cs => if d = c then some cs else none

/-- Four digits, or a sign and six. `-000000` is no year. -/
def readYear : List Char → Option (Int × List Char)
  | [] => none
  | c :: cs =>
    if c = '-' then (readDigits 6 cs).bind fun (n, cs) => if n = 0 then none else some (-(n : Int), cs)
    else if c = '+' then (readDigits 6 cs).map fun (n, cs) => ((n : Int), cs)
    else (readDigits 4 (c :: cs)).map fun (n, cs) => ((n : Int), cs)

/-- A year, a month and a day, with dashes. -/
def readDate (cs : List Char) : Option (Civil × List Char) := do
  let (year, cs) ← readYear cs
  let cs ← readChar '-' cs
  let (month, cs) ← readDigits 2 cs
  let cs ← readChar '-' cs
  let (day, cs) ← readDigits 2 cs
  some (⟨year, month, day⟩, cs)

/-- A time of a day. -/
structure Clock where
  hour : Nat
  minute : Nat
  second : Nat
  ms : Nat

/-- 24:00 is a day's end. -/
def Clock.Valid (t : Clock) : Prop :=
  (t.hour < 24 ∨ t.hour = 24 ∧ t.minute = 0 ∧ t.second = 0 ∧ t.ms = 0) ∧ t.minute < 60 ∧ t.second < 60

instance (t : Clock) : Decidable t.Valid := inferInstanceAs (Decidable (_ ∧ _))

def Clock.total (t : Clock) : Nat := t.hour * 3600000 + t.minute * 60000 + t.second * 1000 + t.ms

def readClock (cs : List Char) : Option (Clock × List Char) := do
  let (hour, cs) ← readDigits 2 cs
  let cs ← readChar ':' cs
  let (minute, cs) ← readDigits 2 cs
  let cs ← readChar ':' cs
  let (second, cs) ← readDigits 2 cs
  let cs ← readChar '.' cs
  let (ms, cs) ← readDigits 3 cs
  some (⟨hour, minute, second, ms⟩, cs)

/-- How far from 1970 a `Date` can be, in milliseconds. -/
def MAX_TIME : Int := 8640000000000000

/-- `Date.parse` of a text in the form that `toISOString` prints; `none` is its
NaN. V8 reads other forms too, which are NaN here. -/
def Date.parse (text : String) : Option Int := do
  let (date, cs) ← readDate text.toList
  let cs ← readChar 'T' cs
  let (clock, cs) ← readClock cs
  let time := makeDay date * 86400000 + clock.total
  if cs = ['Z'] ∧ date.Valid ∧ clock.Valid ∧ -MAX_TIME ≤ time ∧ time ≤ MAX_TIME then some time else none

example : Date.parse "2024-02-29T12:34:56.789Z" = some 1709210096789 := by decide +kernel

/-! ## Digits -/

section
variable {width n : Nat}

theorem padStart_toList : (padStart width n).toList =
    List.replicate (width - (Nat.toDigits 10 n).length) '0' ++ Nat.toDigits 10 n := by
  have hdigits : (toString n).toList = Nat.toDigits 10 n := Nat.toList_repr
  rw [padStart, String.toList_append, String.toList_ofList, ← String.length_toList, hdigits]

theorem padStart_length (hw : 0 < width) (h : n < 10 ^ width) : (padStart width n).toList.length = width := by
  have hlen : (Nat.toDigits 10 n).length ≤ width := (Nat.length_toDigits_le_iff (by decide) hw).2 h
  rw [padStart_toList, List.length_append, List.length_replicate]
  omega

theorem readDigits_padStart (hw : 0 < width) (h : n < 10 ^ width) (cs : List Char) :
    readDigits width ((padStart width n).toList ++ cs) = some (n, cs) := by
  have hlength := padStart_length hw h
  have hdigit : ∀ c ∈ (padStart width n).toList, c.isDigit = true := by
    intro c hc
    rw [padStart_toList, List.mem_append] at hc
    rcases hc with hc | hc
    · rw [List.eq_of_mem_replicate hc]
      rfl
    · exact Nat.isDigit_of_mem_toDigits (by decide) (by decide) hc
  have hvalue : Nat.ofDigitChars 10 (padStart width n).toList 0 = n := by
    rw [padStart_toList, Nat.ofDigitChars_append, Nat.ofDigitChars_replicate_zero, Nat.mul_zero,
      Nat.ofDigitChars_ten_toDigits]
  have htake : ((padStart width n).toList ++ cs).take width = (padStart width n).toList := by
    rw [List.take_append_of_le_length (by omega), List.take_of_length_le (by omega)]
  have hdrop : ((padStart width n).toList ++ cs).drop width = cs := by
    rw [List.drop_append_of_le_length (by omega), List.drop_of_length_le (by omega), List.nil_append]
  rw [readDigits, htake, hdrop, if_pos ⟨hlength, List.all_eq_true.2 hdigit⟩, hvalue]

/-- Its first character is a digit, so no sign. -/
theorem padStart_head (hw : 0 < width) (h : n < 10 ^ width) (cs : List Char) :
    ∃ d ds, (padStart width n).toList ++ cs = d :: ds ∧ d ≠ '-' ∧ d ≠ '+' := by
  have hread := readDigits_padStart hw h cs
  cases htext : (padStart width n).toList ++ cs with
  | nil =>
    rw [htext] at hread
    simp only [readDigits, List.take_nil, List.length_nil] at hread
    split at hread
    · rename_i hboth
      omega
    · cases hread
  | cons d ds =>
    rw [htext] at hread
    refine ⟨d, ds, rfl, ?_⟩
    unfold readDigits at hread
    split at hread
    · rename_i hboth
      obtain ⟨width', rfl⟩ := Nat.exists_eq_add_of_lt hw
      have hd : d.isDigit = true := by
        have := List.all_eq_true.1 hboth.2 d (by simp [List.take_succ_cons])
        exact this
      constructor <;> (rintro rfl; revert hd; decide)
    · cases hread

end

@[simp] theorem readChar_self (c : Char) (cs : List Char) : readChar c (c :: cs) = some cs := if_pos rfl

/-! ## The printed text -/

def yearSign (year : Int) : String := if year < 0 then "-" else if 9999 < year then "+" else ""

theorem toISOString_eq (time : Int) :
    toISOString time =
      let date := civil (time / 86400000)
      let ms := (time % 86400000).toNat
      yearSign date.year ++ padStart (if yearSign date.year = "" then 4 else 6) date.year.natAbs ++ "-" ++
        padStart 2 date.month ++ "-" ++ padStart 2 date.day ++ "T" ++ padStart 2 (ms / 3600000) ++ ":" ++
        padStart 2 (ms / 60000 % 60) ++ ":" ++ padStart 2 (ms / 1000 % 60) ++ "." ++ padStart 3 (ms % 1000) ++ "Z" := rfl

theorem readYear_print {year : Int} (hlo : -1000000 < year) (hhi : year < 1000000) (cs : List Char) :
    readYear ((yearSign year).toList ++ ((padStart (if yearSign year = "" then 4 else 6) year.natAbs).toList ++ cs)) =
      some (year, cs) := by
  by_cases hneg : year < 0
  · have hsign : yearSign year = "-" := if_pos hneg
    have hsix : year.natAbs < 10 ^ 6 := by omega
    have hread := readDigits_padStart (by decide) hsix cs
    have hvalue : -(year.natAbs : Int) = year := by omega
    have hzero : ¬ year.natAbs = 0 := by omega
    have htext : "-".toList = ['-'] := rfl
    rw [hsign, if_neg (by decide), htext, List.singleton_append, readYear, if_pos rfl, hread, Option.bind_some]
    dsimp only
    rw [if_neg hzero, hvalue]
  · have hvalue : (year.natAbs : Int) = year := by omega
    by_cases hlong : 9999 < year
    · have hsign : yearSign year = "+" := by rw [yearSign, if_neg hneg, if_pos hlong]
      have hsix : year.natAbs < 10 ^ 6 := by omega
      have hread := readDigits_padStart (by decide) hsix cs
      have htext : "+".toList = ['+'] := rfl
      rw [hsign, if_neg (by decide), htext, List.singleton_append, readYear, if_neg (by decide), if_pos rfl, hread,
        Option.map_some]
      dsimp only
      rw [hvalue]
    · have hsign : yearSign year = "" := by rw [yearSign, if_neg hneg, if_neg hlong]
      have hfour : year.natAbs < 10 ^ 4 := by omega
      have hread := readDigits_padStart (by decide) hfour cs
      obtain ⟨d, ds, htext, hminus, hplus⟩ := padStart_head (by decide) hfour cs
      rw [hsign, if_pos rfl, String.toList_empty, List.nil_append, htext, readYear, if_neg hminus, if_neg hplus,
        ← htext, hread, Option.map_some]
      dsimp only
      rw [hvalue]

/-- A `Date` is of a year that six digits hold. -/
theorem civil_year_bounds {time : Int} (hlo : -MAX_TIME ≤ time) (hhi : time ≤ MAX_TIME) :
    -1000000 < (civil (time / 86400000)).year ∧ (civil (time / 86400000)).year < 1000000 := by
  obtain ⟨era, c, q, y, doy, hc, hq, hy, hd, -, hdays, hcivil⟩ := civil_split (time / 86400000)
  unfold MAX_TIME at hlo hhi
  rw [hcivil]
  show -1000000 < _ + _ ∧ _ + _ < 1000000
  split <;> omega

theorem readDate_print {date : Civil} (hvalid : date.Valid) (hlo : -1000000 < date.year) (hhi : date.year < 1000000)
    (cs : List Char) :
    readDate ((yearSign date.year).toList ++
      ((padStart (if yearSign date.year = "" then 4 else 6) date.year.natAbs).toList ++
        '-' :: ((padStart 2 date.month).toList ++ '-' :: ((padStart 2 date.day).toList ++ cs)))) = some (date, cs) := by
  have hmonth : date.month < 10 ^ 2 := lt_of_le_of_lt hvalid.month_le (by decide)
  have hday : date.day < 10 ^ 2 := by
    refine lt_of_le_of_lt hvalid.day_le ?_
    unfold daysIn
    split <;> (try split) <;> decide
  simp only [readDate, readYear_print hlo hhi, Option.bind_eq_bind, Option.bind_some, readChar_self,
    readDigits_padStart (by decide) hmonth, readDigits_padStart (by decide) hday]

theorem readClock_print {t : Clock} (hhour : t.hour < 10 ^ 2) (hminute : t.minute < 10 ^ 2) (hsecond : t.second < 10 ^ 2)
    (hms : t.ms < 10 ^ 3) (cs : List Char) :
    readClock ((padStart 2 t.hour).toList ++ ':' :: ((padStart 2 t.minute).toList ++
      ':' :: ((padStart 2 t.second).toList ++ '.' :: ((padStart 3 t.ms).toList ++ cs)))) = some (t, cs) := by
  simp only [readClock, Option.bind_eq_bind, Option.bind_some, readChar_self,
    readDigits_padStart (by decide) hhour, readDigits_padStart (by decide) hminute,
    readDigits_padStart (by decide) hsecond, readDigits_padStart (by decide) hms]

def Clock.ofMs (ms : Nat) : Clock := ⟨ms / 3600000, ms / 60000 % 60, ms / 1000 % 60, ms % 1000⟩

/-- A date and a time of it as text. -/
def isoText (date : Civil) (t : Clock) : List Char :=
  (yearSign date.year).toList ++ ((padStart (if yearSign date.year = "" then 4 else 6) date.year.natAbs).toList ++
    '-' :: ((padStart 2 date.month).toList ++ '-' :: ((padStart 2 date.day).toList ++
      'T' :: ((padStart 2 t.hour).toList ++ ':' :: ((padStart 2 t.minute).toList ++
        ':' :: ((padStart 2 t.second).toList ++ '.' :: ((padStart 3 t.ms).toList ++ ['Z'])))))))

theorem toISOString_toList (time : Int) :
    (toISOString time).toList = isoText (civil (time / 86400000)) (.ofMs (time % 86400000).toNat) := by
  have hdash : "-".toList = ['-'] := rfl
  have htee : "T".toList = ['T'] := rfl
  have hcolon : ":".toList = [':'] := rfl
  have hdot : ".".toList = ['.'] := rfl
  have hzed : "Z".toList = ['Z'] := rfl
  rw [toISOString_eq]
  generalize civil (time / 86400000) = date
  generalize (time % 86400000).toNat = ms
  simp only [isoText, Clock.ofMs, String.toList_append, hdash, htee, hcolon, hdot, hzed, List.append_assoc,
    List.cons_append, List.nil_append]

/-- Every time a `Date` can hold is read back from what is printed of it. -/
theorem parse_printed {time : Int} (hlo : -MAX_TIME ≤ time) (hhi : time ≤ MAX_TIME) :
    Date.parse (toISOString time) = some time := by
  obtain ⟨hyear, hyear'⟩ := civil_year_bounds hlo hhi
  have hvalid := civil_valid (time / 86400000)
  have hday := makeDay_civil (time / 86400000)
  have htime : time / 86400000 * 86400000 + ((time % 86400000).toNat : Int) = time := by omega
  have hms : (time % 86400000).toNat < 86400000 := by omega
  rw [Date.parse, toISOString_toList]
  generalize civil (time / 86400000) = date at *
  generalize (time % 86400000).toNat = ms at *
  have htotal : (Clock.ofMs ms).total = ms := by
    simp only [Clock.total, Clock.ofMs]
    omega
  have hclock : (Clock.ofMs ms).Valid :=
    ⟨.inl (by simp only [Clock.ofMs]; omega), Nat.mod_lt _ (by decide), Nat.mod_lt _ (by decide)⟩
  have hhour : (Clock.ofMs ms).hour < 10 ^ 2 := by simp only [Clock.ofMs]; omega
  have hminute : (Clock.ofMs ms).minute < 10 ^ 2 := lt_trans hclock.2.1 (by decide)
  have hsecond : (Clock.ofMs ms).second < 10 ^ 2 := lt_trans hclock.2.2 (by decide)
  have hmilli : (Clock.ofMs ms).ms < 10 ^ 3 := Nat.mod_lt _ (by decide)
  rw [isoText, readDate_print hvalid hyear hyear']
  simp only [Option.bind_eq_bind, Option.bind_some, readChar_self]
  rw [readClock_print hhour hminute hsecond hmilli]
  simp only [Option.bind_some]
  rw [htotal, hday, htime, if_pos ⟨trivial, hvalid, hclock, hlo, hhi⟩]

/-! ## Main theorem -/

/-- What the api prints of a time is that time to the page, and no other's
text. -/
theorem toISOString_lossless {time other : Int} (htime : -MAX_TIME ≤ time ∧ time ≤ MAX_TIME)
    (hother : -MAX_TIME ≤ other ∧ other ≤ MAX_TIME) :
    Date.parse (toISOString time) = some time ∧ (toISOString time = toISOString other ↔ time = other) := by
  have hread := parse_printed htime.1 htime.2
  refine ⟨hread, fun htext => ?_, fun he => by rw [he]⟩
  rw [htext, parse_printed hother.1 hother.2] at hread
  exact (Option.some.inj hread).symm

theorem toISOString_lossless_demo :
    Date.parse (toISOString 1709210096789) = some 1709210096789 ∧ toISOString 1709210096789 ≠ toISOString (-1) := by
  have htime : -MAX_TIME ≤ 1709210096789 ∧ 1709210096789 ≤ MAX_TIME := by decide
  have hother : -MAX_TIME ≤ -1 ∧ -1 ≤ MAX_TIME := by decide
  obtain ⟨hread, hiff⟩ := toISOString_lossless htime hother
  exact ⟨hread, fun htext => absurd (hiff.1 htext) (by decide)⟩

end FlashSale
