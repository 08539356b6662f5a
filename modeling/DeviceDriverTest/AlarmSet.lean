import DeviceDriverTest.Calendar
import DeviceDriverTest.CmdOptions

/-! The program that sets the alarm of the real-time clock: some seconds from now on,
or for a date and time that are typed in. -/

namespace DeviceDriverTest

namespace AlarmSet

open Calendar

/-- `struct rtc_time`: months from zero, years from 1900. -/
structure RtcTime where
  tm_sec : Int
  tm_min : Int
  tm_hour : Int
  tm_mday : Int
  tm_mon : Int
  tm_year : Int
  deriving DecidableEq

def RtcTime.dateTime (tm : RtcTime) : DateTime where
  year := tm.tm_year + 1900
  month := tm.tm_mon.toNat
  day := tm.tm_mday
  hour := tm.tm_hour
  minute := tm.tm_min
  second := tm.tm_sec

structure RtcTime.Valid (tm : RtcTime) : Prop where
  tm_mon : 0 ≤ tm.tm_mon
  dateTime : tm.dateTime.Valid

def RtcTime.instant (tm : RtcTime) : Int := tm.dateTime.instant

/-- `while (low >= limit) { low -= limit; high++; }`, `none` when the fuel does not see its end. -/
def carry (limit : Int) : Nat → Int → Int → Option (Int × Int)
  | 0, _, _ => none
  | fuel + 1, low, high => if low ≥ limit then carry limit fuel (low - limit) (high + 1) else some (low, high)

/-- Choice 0 takes five seconds; `none` is the end of the program for choice 1. -/
def seconds (choice secs : Int) : Option Int :=
  if choice = 1 then (if secs ≤ 0 then none else some secs) else some 5

/-- What is passed to `RTC_ALM_SET` for choices 0 and 1 when `RTC_RD_TIME` reads `rtc_tm`. -/
def relativeAlarm (fuel : Nat) (rtc_tm : RtcTime) (secs : Int) : Option RtcTime := do
  let (tm_sec, tm_min) ← carry 60 fuel (rtc_tm.tm_sec + secs) rtc_tm.tm_min
  let (tm_min, tm_hour) ← carry 60 fuel tm_min rtc_tm.tm_hour
  let (tm_hour, tm_mday) ← carry 24 fuel tm_hour rtc_tm.tm_mday
  pure { rtc_tm with tm_sec, tm_min, tm_hour, tm_mday }

theorem carry_eq (limit : Int) (fuel : Nat) (low high : Int) (hlimit : 0 < limit) (hlow : 0 ≤ low) (hfuel : low < fuel) :
    carry limit fuel low high = some (low % limit, high + low / limit) := by
  induction fuel generalizing low high with
  | zero => omega
  | succ fuel ih =>
    rw [carry]
    by_cases hge : low ≥ limit
    · have hmod : (low - limit) % limit = low % limit := Int.sub_emod_right low limit
      have hdiv : low / limit = (low - limit) / limit + 1 := by
        rw [Int.sub_ediv_of_dvd low (Int.dvd_refl limit), Int.ediv_self (Int.ne_of_gt hlimit)]
        omega
      rw [if_pos hge, ih _ _ (by omega) (by omega), hmod, hdiv]
      congr 2
      omega
    · rw [if_neg hge, Int.emod_eq_of_lt hlow (by omega), Int.ediv_eq_zero_of_lt hlow (by omega), Int.add_zero]

def RelativeRight (now : RtcTime) (secs : Int) : Prop :=
  ∃ n alarm, (∀ fuel > n, relativeAlarm fuel now secs = some alarm) ∧ alarm.Valid ∧ alarm.instant = now.instant + secs

/-- The days that the time of day carries. -/
def carriedDays (now : RtcTime) (secs : Int) : Int := (now.dateTime.timeOfDay + secs) / 86400

/-- The carried time of day, with the day counted on from the current one. -/
def carried (now : RtcTime) (secs : Int) : RtcTime :=
  let time := (now.dateTime.timeOfDay + secs) % 86400
  { now with
    tm_sec := time % 60, tm_min := time / 60 % 60, tm_hour := time / 3600, tm_mday := now.tm_mday + carriedDays now secs }

theorem seconds_pos {choice secs k : Int} (h : seconds choice secs = some k) : 0 < k := by
  rw [seconds] at h
  split_ifs at h with hchoice hsecs
  · obtain rfl := Option.some.inj h
    omega
  · obtain rfl := Option.some.inj h
    decide

theorem relativeAlarm_eq {now : RtcTime} (h : now.Valid) {secs : Int} (hsecs : 0 < secs) {fuel : Nat}
    (hfuel : secs + 60 < fuel) : relativeAlarm fuel now secs = some (carried now secs) := by
  obtain ⟨-, -, hhour, hminute, hsecond⟩ := h.dateTime
  have hclock : now.dateTime.timeOfDay = now.tm_hour * 3600 + now.tm_min * 60 + now.tm_sec := rfl
  dsimp only [RtcTime.dateTime] at hhour hminute hsecond
  have hsec := carry_eq 60 fuel (now.tm_sec + secs) now.tm_min (by decide) (by omega) (by omega)
  have hmin := carry_eq 60 fuel (now.tm_min + (now.tm_sec + secs) / 60) now.tm_hour (by decide) (by omega) (by omega)
  have hhr := carry_eq 24 fuel (now.tm_hour + (now.tm_min + (now.tm_sec + secs) / 60) / 60) now.tm_mday (by decide)
    (by omega) (by omega)
  simp only [relativeAlarm, hsec, hmin, hhr, Option.bind_eq_bind, Option.bind_some]
  refine congrArg some ?_
  rw [carried, carriedDays, hclock, RtcTime.mk.injEq]
  exact ⟨by omega, by omega, by omega, by omega, rfl, rfl⟩

theorem carried_timeOfDay (now : RtcTime) (secs : Int) :
    (carried now secs).dateTime.timeOfDay = (now.dateTime.timeOfDay + secs) % 86400 := by
  show (now.dateTime.timeOfDay + secs) % 86400 / 3600 * 3600 + (now.dateTime.timeOfDay + secs) % 86400 / 60 % 60 * 60 +
    (now.dateTime.timeOfDay + secs) % 86400 % 60 = _
  omega

/-- Within the month, the carried time is the right instant. -/
theorem carried_instant (now : RtcTime) (secs : Int) : (carried now secs).instant = now.instant + secs := by
  have hday : (carried now secs).dateTime.dayNumber = now.dateTime.dayNumber + carriedDays now secs := by
    show daysBeforeYear now.dateTime.year + daysBeforeMonth now.dateTime.year now.dateTime.month +
      (now.tm_mday + carriedDays now secs - 1) = daysBeforeYear now.dateTime.year +
        daysBeforeMonth now.dateTime.year now.dateTime.month + (now.tm_mday - 1) + carriedDays now secs
    omega
  show (carried now secs).dateTime.dayNumber * 86400 + (carried now secs).dateTime.timeOfDay =
    now.dateTime.dayNumber * 86400 + now.dateTime.timeOfDay + secs
  rw [hday, carried_timeOfDay, carriedDays]
  omega

theorem carried_valid {now : RtcTime} (h : now.Valid) {secs : Int} (hsecs : 0 < secs) :
    (carried now secs).Valid ↔
      now.tm_mday + carriedDays now secs ≤ monthDays (now.tm_year + 1900) now.tm_mon.toNat := by
  have htime := h.dateTime.time_in_day
  have hday : 1 ≤ now.tm_mday := h.dateTime.day.1
  refine ⟨fun hvalid => hvalid.dateTime.day.2, fun hfits => ⟨h.tm_mon, h.dateTime.month, ⟨?_, hfits⟩, ?_, ?_, ?_⟩⟩
  · show 1 ≤ now.tm_mday + (now.dateTime.timeOfDay + secs) / 86400
    omega
  · show 0 ≤ (now.dateTime.timeOfDay + secs) % 86400 / 3600 ∧ (now.dateTime.timeOfDay + secs) % 86400 / 3600 < 24
    omega
  · show 0 ≤ (now.dateTime.timeOfDay + secs) % 86400 / 60 % 60 ∧ (now.dateTime.timeOfDay + secs) % 86400 / 60 % 60 < 60
    omega
  · show 0 ≤ (now.dateTime.timeOfDay + secs) % 86400 % 60 ∧ (now.dateTime.timeOfDay + secs) % 86400 % 60 < 60
    omega

theorem relativeAlarm_right {now : RtcTime} (h : now.Valid) {secs : Int} (hsecs : 0 < secs) :
    RelativeRight now secs ↔
      now.tm_mday + carriedDays now secs ≤ monthDays (now.tm_year + 1900) now.tm_mon.toNat := by
  rw [← carried_valid h hsecs]
  have hrun : ∀ fuel > (secs + 60).toNat, relativeAlarm fuel now secs = some (carried now secs) :=
    fun fuel hfuel => relativeAlarm_eq h hsecs (by omega)
  refine ⟨fun ⟨n, alarm, halarm, hvalid, _⟩ => ?_, fun hvalid => ⟨_, _, hrun, hvalid, carried_instant now secs⟩⟩
  have hboth := (hrun (max n (secs + 60).toNat + 1) (by omega)).symm.trans (halarm _ (by omega))
  rwa [Option.some.inj hboth]

/-- The alarm is right exactly where the carried days stay in the month. -/
theorem relativeAlarm_right_iff (now : RtcTime) (h : now.Valid) (choice secs k : Int)
    (hk : seconds choice secs = some k) :
    RelativeRight now k ↔ now.tm_mday + carriedDays now k ≤ monthDays (now.tm_year + 1900) now.tm_mon.toNat :=
  relativeAlarm_right h (seconds_pos hk)

/-- The last second of January 2009. -/
def endOfJanuary : RtcTime := ⟨59, 59, 23, 31, 0, 109⟩

theorem endOfJanuary_valid : endOfJanuary.Valid := ⟨by decide, by decide, by decide, by decide, by decide, by decide⟩

theorem relativeAlarm_right_iff_january : RelativeRight endOfJanuary 5 ↔
    endOfJanuary.tm_mday + carriedDays endOfJanuary 5 ≤ monthDays (endOfJanuary.tm_year + 1900) endOfJanuary.tm_mon.toNat :=
  relativeAlarm_right_iff endOfJanuary endOfJanuary_valid 0 0 5 rfl

/-- Five seconds later the alarm is set for 32 January. -/
theorem carried_past_month : ¬ ∀ (now : RtcTime), now.Valid → ∀ choice secs k,
    seconds choice secs = some k → RelativeRight now k := by
  intro hall
  have hright := hall endOfJanuary endOfJanuary_valid 0 0 5 rfl
  have hfits := (relativeAlarm_right endOfJanuary_valid (by decide)).mp hright
  exact absurd hfits (by decide)

/-! The alarm for a date and time. -/

/-- A round of the loops of `get_timedate`: the `unsigned char` of the last two digits, and what is left of the number. -/
def dataByte (num : Int) : Int × Int :=
  let data := num.tmod 10 % 256
  let num := num.tdiv 10
  ((data + num.tmod 10 * 10) % 256, num.tdiv 10)

def get_timedate (date_str time_str : String) : RtcTime :=
  let num := (CmdOptions.atoi date_str).toInt
  let (data0, num) := dataByte num
  let (data1, num) := dataByte num
  let (data2, _) := dataByte num
  let num := (CmdOptions.atoi time_str).toInt
  let (data3, num) := dataByte num
  let (data4, num) := dataByte num
  let (data5, _) := dataByte num
  { tm_mday := data1, tm_mon := data2 - 1, tm_year := data0 + 100, tm_hour := data5, tm_min := data4, tm_sec := data3 }

/-- The verdict on an alarm when `RTC_RD_TIME` reads `rtc_tm`. -/
def validate_data (rtc_tm rtc_almtm : RtcTime) : Int :=
  let time_nosecs := rtc_tm.tm_sec + rtc_tm.tm_min * 60 + rtc_tm.tm_hour * 24 + 365 * rtc_tm.tm_year
  let almtime_nosecs := rtc_almtm.tm_sec + rtc_almtm.tm_min * 60 + rtc_almtm.tm_hour * 24 + 365 * rtc_almtm.tm_year
  if almtime_nosecs ≤ time_nosecs then -1 else 0

inductive Event
  | invalid
  | almSet (tm : RtcTime)
  deriving DecidableEq

/-- Choice 2, up to the ioctl that sets the alarm. -/
def absoluteAlarm (rtc_tm : RtcTime) (date_str time_str : String) : List Event :=
  let rtc_almtm := get_timedate date_str time_str
  (if validate_data rtc_tm rtc_almtm < 0 then [.invalid] else []) ++ [.almSet rtc_almtm]

def twoDigits (n : Nat) : List Char := [Nat.digitChar (n / 10), Nat.digitChar (n % 10)]

def sixDigits (a b c : Nat) : String := String.ofList (twoDigits a ++ twoDigits b ++ twoDigits c)

theorem dataByte_pair {a b : Nat} (hb : b < 100) : dataByte (a * 100 + b : Nat) = ((b : Int), (a : Int)) := by
  have hdiv : ((a * 100 + b : Nat) : Int).tdiv 10 = (a * 10 + b / 10 : Nat) := by
    rw [Int.tdiv_eq_ediv_of_nonneg (Int.natCast_nonneg _)]
    omega
  rw [dataByte, hdiv, Int.tmod_eq_emod_of_nonneg (Int.natCast_nonneg _), Int.tmod_eq_emod_of_nonneg (Int.natCast_nonneg _),
    Int.tdiv_eq_ediv_of_nonneg (Int.natCast_nonneg _)]
  have hones : ((a * 100 + b : Nat) : Int) % 10 = (b % 10 : Nat) := by omega
  have htens : ((a * 10 + b / 10 : Nat) : Int) % 10 = (b / 10 : Nat) := by omega
  rw [hones, htens]
  exact Prod.ext (by dsimp only; omega) (by dsimp only; omega)

theorem digitChar_digit : ∀ d < 10, (Nat.digitChar d).isDigit = true ∧ (Nat.digitChar d).toNat - '0'.toNat = d := by
  decide

theorem digits_twoDigits {a : Nat} (ha : a < 100) (n : Nat) (cs : List Char) :
    CmdOptions.digits n (twoDigits a ++ cs) = CmdOptions.digits (n * 100 + a) cs := by
  obtain ⟨htens, htensValue⟩ := digitChar_digit (a / 10) (by omega)
  obtain ⟨hones, honesValue⟩ := digitChar_digit (a % 10) (by omega)
  show CmdOptions.digits n (_ :: _ :: cs) = _
  rw [CmdOptions.digits, if_pos htens, htensValue, CmdOptions.digits, if_pos hones, honesValue]
  congr 1
  omega

theorem digitChar_head : ∀ d < 10, CmdOptions.isspace (Nat.digitChar d) = false ∧ Nat.digitChar d ≠ '-' ∧
    Nat.digitChar d ≠ '+' := by decide

theorem atoi_digit_head {d : Nat} (hd : d < 10) (cs : List Char) :
    CmdOptions.atoi (String.ofList (Nat.digitChar d :: cs)) =
      CmdOptions.clamp (CmdOptions.digits 0 (Nat.digitChar d :: cs)) := by
  obtain ⟨hspace, hminus, hplus⟩ := digitChar_head d hd
  have hskip : (Nat.digitChar d :: cs).dropWhile CmdOptions.isspace = Nat.digitChar d :: cs :=
    List.dropWhile_cons_of_neg (by rw [hspace]; exact Bool.false_ne_true)
  rw [CmdOptions.atoi, String.toList_ofList, hskip]
  split
  · next heq => exact absurd (List.cons.inj heq).1 hminus
  · next heq => exact absurd (List.cons.inj heq).1 hplus
  · rfl

theorem atoi_sixDigits {a b c : Nat} (ha : a < 100) (hb : b < 100) (hc : c < 100) :
    (CmdOptions.atoi (sixDigits a b c)).toInt = ((a * 100 + b) * 100 + c : Nat) := by
  have hdigits : CmdOptions.digits 0 (twoDigits a ++ twoDigits b ++ twoDigits c) = (a * 100 + b) * 100 + c := by
    have hlast := digits_twoDigits hc ((0 * 100 + a) * 100 + b) []
    rw [List.append_nil] at hlast
    rw [List.append_assoc, digits_twoDigits ha, digits_twoDigits hb, hlast, CmdOptions.digits]
    omega
  have hatoi : CmdOptions.atoi (sixDigits a b c) = CmdOptions.clamp ((a * 100 + b) * 100 + c : Nat) := by
    rw [← hdigits]
    exact atoi_digit_head (by omega) _
  rw [hatoi, CmdOptions.clamp, Int32.toInt_ofInt_of_le (by omega) (by omega)]
  omega

structure Entry where
  month : Nat
  day : Nat
  year : Nat
  hour : Nat
  minute : Nat
  second : Nat

def Entry.date_str (e : Entry) : String := sixDigits e.month e.day e.year

def Entry.time_str (e : Entry) : String := sixDigits e.hour e.minute e.second

def Entry.rtcTime (e : Entry) : RtcTime := ⟨e.second, e.minute, e.hour, e.day, e.month - 1, e.year + 100⟩

structure Entry.Valid (e : Entry) : Prop where
  year : e.year < 100
  rtcTime : e.rtcTime.Valid

theorem get_timedate_eq {e : Entry} (h : e.Valid) : get_timedate e.date_str e.time_str = e.rtcTime := by
  obtain ⟨hyear, hmon, hmonth, hday, hhour, hminute, hsecond⟩ := h
  have hmonth' : e.month < 100 := by
    have hlt : ((e.month : Int) - 1).toNat < 12 := hmonth
    omega
  have hday' : e.day < 100 := by
    have hle : (e.day : Int) ≤ monthDays (e.year + 100 + 1900) ((e.month : Int) - 1).toNat := hday.2
    have hbound := monthDays_le (e.year + 100 + 1900) ((e.month : Int) - 1).toNat
    omega
  have hhour' : (e.hour : Int) < 24 := hhour.2
  have hminute' : (e.minute : Int) < 60 := hminute.2
  have hsecond' : (e.second : Int) < 60 := hsecond.2
  have hlast : ∀ {n : Nat}, n < 100 → dataByte n = ((n : Int), 0) := by
    intro n hn
    have hpair := @dataByte_pair 0 n hn
    rwa [Nat.zero_mul, Nat.zero_add] at hpair
  rw [get_timedate, Entry.date_str, Entry.time_str, atoi_sixDigits hmonth' hday' hyear,
    atoi_sixDigits (by omega) (by omega) (by omega)]
  dsimp only
  rw [dataByte_pair hyear, dataByte_pair hday', hlast hmonth', dataByte_pair (by omega), dataByte_pair (by omega),
    hlast (by omega)]
  rfl

/-- The date and time that were entered are set as the alarm whatever the verdict, so this is right exactly
where they are later than the current ones. -/
theorem absoluteAlarm_right_iff (now : RtcTime) (hnow : now.Valid) (e : Entry) (he : e.Valid) :
    (get_timedate e.date_str e.time_str = e.rtcTime ∧
        (.almSet e.rtcTime ∈ absoluteAlarm now e.date_str e.time_str ↔ now.instant < e.rtcTime.instant)) ↔
      now.dateTime.Before e.rtcTime.dateTime := by
  have hdecode := get_timedate_eq he
  have hset : Event.almSet e.rtcTime ∈ absoluteAlarm now e.date_str e.time_str := by
    rw [absoluteAlarm, hdecode]
    exact List.mem_append_right _ (List.mem_singleton.mpr rfl)
  rw [before_iff hnow.dateTime he.rtcTime.dateTime]
  exact ⟨fun h => h.2.mp hset, fun h => ⟨hdecode, iff_of_true hset h⟩⟩

def newYear2009 : Entry := ⟨1, 1, 9, 0, 0, 0⟩

theorem newYear2009_valid : newYear2009.Valid :=
  ⟨by decide, by decide, by decide, by decide, by decide, by decide, by decide⟩

theorem absoluteAlarm_right_iff_earlier :
    (get_timedate newYear2009.date_str newYear2009.time_str = newYear2009.rtcTime ∧
        (.almSet newYear2009.rtcTime ∈ absoluteAlarm endOfJanuary newYear2009.date_str newYear2009.time_str ↔
          endOfJanuary.instant < newYear2009.rtcTime.instant)) ↔
      endOfJanuary.dateTime.Before newYear2009.rtcTime.dateTime :=
  absoluteAlarm_right_iff endOfJanuary endOfJanuary_valid newYear2009 newYear2009_valid

/-- At the end of January, an alarm for the first of January before it is set. -/
theorem earlier_alarm_set : ¬ ∀ now : RtcTime, now.Valid → ∀ e : Entry, e.Valid →
    get_timedate e.date_str e.time_str = e.rtcTime ∧
      (.almSet e.rtcTime ∈ absoluteAlarm now e.date_str e.time_str ↔ now.instant < e.rtcTime.instant) := by
  intro hall
  obtain ⟨hdecode, hissued⟩ := hall endOfJanuary endOfJanuary_valid newYear2009 newYear2009_valid
  have hset : Event.almSet newYear2009.rtcTime ∈
      absoluteAlarm endOfJanuary newYear2009.date_str newYear2009.time_str := by
    rw [absoluteAlarm, hdecode]
    exact List.mem_append_right _ (List.mem_singleton.mpr rfl)
  exact absurd (hissued.mp hset) (by decide)

end AlarmSet

end DeviceDriverTest
