import NodeManagement.Utils

/-!
The time stamp of `saveTime`: nineteen characters, from which the time can be read back.
-/

namespace NodeManagement

/-- `std::tm` as `localtime` fills it, with months from 0, years from 1900 and a four-digit year. -/
structure Tm where
  tmYear : Int
  tmMon : Nat
  tmMday : Nat
  tmHour : Nat
  tmMin : Nat
  tmSec : Nat
  year : 1000 ≤ 1900 + tmYear ∧ 1900 + tmYear < 10000
  mon : tmMon < 12
  mday : 1 ≤ tmMday ∧ tmMday ≤ 31
  hour : tmHour < 24
  min : tmMin < 60
  sec : tmSec ≤ 60

def digit (value : Nat) : BitVec 8 := .ofNat 8 (0x30 + value)

def twoDigits (value : Nat) : Bytes := [digit (value / 10), digit (value % 10)]

def Tm.putTime (now : Tm) : Bytes :=
  twoDigits ((1900 + now.tmYear).toNat / 100) ++ twoDigits ((1900 + now.tmYear).toNat % 100) ++
    [0x2d] ++ twoDigits (now.tmMon + 1) ++ [0x2d] ++ twoDigits now.tmMday ++ [0x20] ++
    twoDigits now.tmHour ++ [0x3a] ++ twoDigits now.tmMin ++ [0x3a] ++ twoDigits now.tmSec

theorem digit_inj {first second : Nat} (small : first < 10) (other : second < 10)
    (same : digit first = digit second) : first = second := by
  have values := congrArg BitVec.toNat same
  simp only [digit, BitVec.toNat_ofNat] at values
  omega

theorem twoDigits_inj {first second : Nat} (small : first < 100) (other : second < 100)
    (same : twoDigits first = twoDigits second) : first = second := by
  simp only [twoDigits, List.cons.injEq, and_true] at same
  have tens := digit_inj (by omega) (by omega) same.1
  have ones := digit_inj (by omega) (by omega) same.2
  omega

namespace Tm

@[simp] theorem putTime_length (now : Tm) : now.putTime.length = 19 := rfl

theorem putTime_inj {first second : Tm} (same : first.putTime = second.putTime) :
    first = second := by
  obtain ⟨year, mon, mday, hour, min, sec, yearBound, monBound, mdayBound, hourBound, minBound,
    secBound⟩ := first
  obtain ⟨year', mon', mday', hour', min', sec', yearBound', monBound', mdayBound', hourBound',
    minBound', secBound'⟩ := second
  simp only [putTime, List.append_assoc] at same
  obtain ⟨century, same⟩ := List.append_inj same rfl
  obtain ⟨years, same⟩ := List.append_inj same rfl
  obtain ⟨_, same⟩ := List.append_inj same rfl
  obtain ⟨mons, same⟩ := List.append_inj same rfl
  obtain ⟨_, same⟩ := List.append_inj same rfl
  obtain ⟨mdays, same⟩ := List.append_inj same rfl
  obtain ⟨_, same⟩ := List.append_inj same rfl
  obtain ⟨hours, same⟩ := List.append_inj same rfl
  obtain ⟨_, same⟩ := List.append_inj same rfl
  obtain ⟨mins, same⟩ := List.append_inj same rfl
  obtain ⟨_, secs⟩ := List.append_inj same rfl
  have centuryEq := twoDigits_inj (by omega) (by omega) century
  have yearEq := twoDigits_inj (by omega) (by omega) years
  have monEq := twoDigits_inj (by omega) (by omega) mons
  have mdayEq := twoDigits_inj (by omega) (by omega) mdays
  have hourEq := twoDigits_inj (by omega) (by omega) hours
  have minEq := twoDigits_inj (by omega) (by omega) mins
  have secEq := twoDigits_inj (by omega) (by omega) secs
  simp only [mk.injEq]
  omega

end Tm

def IsLocalTime (now : Bytes) : Prop := ∃ time : Tm, now = time.putTime

def timeoutTime : Tm := ⟨126, 4, 7, 1, 29, 27, by decide, by decide, by decide, by decide,
  by decide, by decide⟩

end NodeManagement
