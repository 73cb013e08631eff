import ClusterFtpd.Client
import ClusterFtpd.Lib.MachineInt
import Mathlib.Data.Nat.Digits.Defs

/-!
# The lines of a listing

`GetFileListLine` prints one line of the form of `ls -l`: what kind of file it is and what its owner
may do, the size, the date and the name.  `gmtime` computes the date from the seconds since 1970: a
year is counted from March on, so that the day that a leap year adds is its last one.

What stands in front of the name has always the same length (`length_listPrefix`) and no line end in
it (`oneLine_listPrefix`), for a size and a time that an `int` holds.
-/

namespace ClusterFtpd

open MachineInt

/-! ### Dates -/

/-- The century of a day of an era of 400 years.  The fourth has one day more. -/
def centuryOf (doe : ℕ) : ℕ := min 3 (doe / 36524)

/-- The day of the century. -/
def dayOfCentury (doe : ℕ) : ℕ := doe - 36524 * centuryOf doe

/-- The year among four, of which the last has one day more. -/
def yearOfFour (doc : ℕ) : ℕ := min 3 (doc % 1461 / 365)

/-- The year of the era. -/
def yearOfEra (doe : ℕ) : ℕ :=
  100 * centuryOf doe + 4 * (dayOfCentury doe / 1461) + yearOfFour (dayOfCentury doe)

/-- The day of the year that begins in March. -/
def dayOfYear (doe : ℕ) : ℕ := dayOfCentury doe % 1461 - 365 * yearOfFour (dayOfCentury doe)

/-- The month of a day of the year, from March on. -/
def monthOfYear (doy : ℕ) : ℕ := (5 * doy + 2) / 153

/-- `gmtime`.  The era begins on 1 March of the year 0, 719468 days before 1970. -/
def gmtime (t : ℤ) : Tm :=
  let days := t / 86400 + 719468
  let secs := (t % 86400).toNat
  let doe := (days % 146097).toNat
  let mp := monthOfYear (dayOfYear doe)
  { year := (days / 146097 * 400 + yearOfEra doe + if mp < 10 then 0 else 1).toNat
    month := if mp < 10 then mp + 3 else mp - 9
    day := dayOfYear doe - (153 * mp + 2) / 5 + 1
    hour := secs / 3600
    min := secs % 3600 / 60
    sec := secs % 60 }

/-- What holds of a date in the years 1000 to 9999. -/
structure Tm.Proper (t : Tm) : Prop where
  year : 1000 ≤ t.year ∧ t.year < 10000
  month : 1 ≤ t.month ∧ t.month ≤ 12
  day : 1 ≤ t.day ∧ t.day ≤ 31
  hour : t.hour < 24
  min : t.min < 60

theorem yearOfEra_lt {doe : ℕ} (h : doe < 146097) : yearOfEra doe < 400 := by
  unfold yearOfEra yearOfFour dayOfCentury centuryOf
  omega

theorem dayOfYear_lt (doe : ℕ) : dayOfYear doe < 366 := by
  unfold dayOfYear yearOfFour
  omega

theorem monthOfYear_lt {doy : ℕ} (h : doy < 366) : monthOfYear doy < 12 := by
  unfold monthOfYear
  omega

/-- A month has at most 31 days. -/
theorem dayOfMonth_lt (doy : ℕ) : doy - (153 * monthOfYear doy + 2) / 5 < 31 := by
  unfold monthOfYear
  omega

/-- The times that an `int` holds lie in the years 1901 to 2038. -/
theorem gmtime_proper {t : ℤ} (h₀ : -2147483648 ≤ t) (h₁ : t < 2147483648) : (gmtime t).Proper := by
  have hdoe : ((t / 86400 + 719468) % 146097).toNat < 146097 := by omega
  have hyoe := yearOfEra_lt hdoe
  have hmp := monthOfYear_lt (dayOfYear_lt ((t / 86400 + 719468) % 146097).toNat)
  have hday := dayOfMonth_lt (dayOfYear ((t / 86400 + 719468) % 146097).toNat)
  have hyear : (gmtime t).year = ((t / 86400 + 719468) / 146097 * 400 +
      yearOfEra ((t / 86400 + 719468) % 146097).toNat +
      if monthOfYear (dayOfYear ((t / 86400 + 719468) % 146097).toNat) < 10 then 0 else 1).toNat :=
    rfl
  have hmonth : (gmtime t).month =
      if monthOfYear (dayOfYear ((t / 86400 + 719468) % 146097).toNat) < 10 then
        monthOfYear (dayOfYear ((t / 86400 + 719468) % 146097).toNat) + 3
      else monthOfYear (dayOfYear ((t / 86400 + 719468) % 146097).toNat) - 9 := rfl
  refine ⟨?_, ?_, ?_, ?_, ?_⟩
  · rw [hyear]
    split <;> omega
  · rw [hmonth]
    split <;> omega
  · exact ⟨Nat.le_add_left 1 _, hday⟩
  · show (t % 86400).toNat / 3600 < 24
    omega
  · show (t % 86400).toNat % 3600 / 60 < 60
    omega

example : gmtime 951782400 = ⟨2000, 2, 29, 0, 0, 0⟩ := rfl

/-! ### The line -/

/-- `%d` and `%li`. -/
def decimal (n : ℤ) : Text :=
  if n < 0 then '-' :: Nat.toDigits 10 n.natAbs else Nat.toDigits 10 n.natAbs

/-- A field of `width` characters, filled with `fill`. -/
def inField (fill : Char) (width : ℕ) (text : Text) : Text :=
  List.replicate (width - text.length) fill ++ text

/-- `pszMonth`. -/
def pszMonth : List Text :=
  ["Jan".toList, "Feb".toList, "Mar".toList, "Apr".toList, "May".toList, "Jun".toList,
    "Jul".toList, "Aug".toList, "Sep".toList, "Oct".toList, "Nov".toList, "Dec".toList]

/-- `szYearOrHour`: the year of what is older than 180 days, else the time of the day. -/
def szYearOrHour (now mtime : ℤ) : Text :=
  if 180 * 24 * 60 * 60 < now - mtime then inField ' ' 5 (decimal (gmtime mtime).year)
  else inField '0' 2 (decimal (gmtime mtime).hour) ++
    ':' :: inField '0' 2 (decimal (gmtime mtime).min)

/-- The kind of the file and what its owner may do: `%c` ten times. -/
def permissions (mode : ℕ) : Text :=
  (if S_ISDIR mode then 'd' else '-') :: (if mode &&& 0o400 = 0o400 then 'r' else '-') ::
    (if mode &&& 0o200 = 0o200 then 'w' else '-') ::
    (if mode &&& 0o100 = 0o100 then 'x' else '-') :: List.replicate 6 '-'

/-- What `szListFile` prints in front of the name. -/
def listPrefix (now : ℤ) (mode : ℕ) (size mtime : ℤ) : Text :=
  permissions mode ++ (" 1 user group ".toList ++ (inField ' ' 14 (decimal size) ++
    (' ' :: pszMonth.getD ((gmtime mtime).month - 1) [] ++
      (' ' :: inField ' ' 2 (decimal (gmtime mtime).day) ++
        (' ' :: szYearOrHour now mtime ++ [' '])))))

/-- The slash that `-F` puts behind the name of a directory. -/
def slashOf (opt_F isDir : Bool) : Text := if opt_F && isDir then ['/'] else []

/-- `\r\n`. -/
def crlf : Text := ['\r', '\n']

/-- The line that `GetFileListLine` prints at the time `now`. -/
def listLine (now : ℤ) (mode : ℕ) (size mtime : ℤ) (pszName : Text) (opt_F : Bool) : Text :=
  listPrefix now mode size mtime ++ (pszName ++ (slashOf opt_F (S_ISDIR mode) ++ crlf))

/-! ### Its parts -/

/-- A number that an `int` holds has at most ten digits and a sign. -/
theorem length_decimal {n : ℤ} (h₀ : -2147483648 ≤ n) (h₁ : n < 2147483648) :
    (decimal n).length ≤ 11 := by
  have hdigits : (Nat.toDigits 10 n.natAbs).length ≤ 10 := by
    apply (Nat.length_toDigits_le_iff (by decide) (by decide)).2
    omega
  unfold decimal
  split
  · rw [List.length_cons]
    omega
  · omega

/-- A number below `10 ^ k` has at most `k` digits. -/
theorem length_decimal_natCast {n k : ℕ} (hk : 0 < k) (h : n < 10 ^ k) :
    (decimal n).length ≤ k := by
  unfold decimal
  rw [if_neg (by omega)]
  exact (Nat.length_toDigits_le_iff (by decide) hk).2 h

theorem length_inField {fill : Char} {width : ℕ} {text : Text} (h : text.length ≤ width) :
    (inField fill width text).length = width := by
  rw [inField, List.length_append, List.length_replicate]
  omega

theorem length_szYearOrHour {now mtime : ℤ} (h : (gmtime mtime).Proper) :
    (szYearOrHour now mtime).length = 5 := by
  unfold szYearOrHour
  split
  · apply length_inField
    exact length_decimal_natCast (by decide) (Nat.lt_of_lt_of_le h.year.2 (by decide))
  · have hhour : (decimal (gmtime mtime).hour).length ≤ 2 :=
      length_decimal_natCast (by decide) (Nat.lt_of_lt_of_le h.hour (by decide))
    have hmin : (decimal (gmtime mtime).min).length ≤ 2 :=
      length_decimal_natCast (by decide) (Nat.lt_of_lt_of_le h.min (by decide))
    rw [List.length_append, List.length_cons, length_inField hhour, length_inField hmin]

theorem length_pszMonth {i : ℕ} (h : i < 12) : (pszMonth.getD i []).length = 3 := by
  have hall : ∀ j < 12, (pszMonth.getD j []).length = 3 := by decide
  exact hall i h

/-- What stands in front of the name has 52 characters. -/
theorem length_listPrefix (now : ℤ) (mode : ℕ) {size mtime : ℤ} (h₀ : -2147483648 ≤ size)
    (h₁ : size < 2147483648) (hm₀ : -2147483648 ≤ mtime) (hm₁ : mtime < 2147483648) :
    (listPrefix now mode size mtime).length = 52 := by
  have hproper := gmtime_proper hm₀ hm₁
  have hsize : (inField ' ' 14 (decimal size)).length = 14 := by
    apply length_inField
    have := length_decimal h₀ h₁
    omega
  have hmonth : (pszMonth.getD ((gmtime mtime).month - 1) []).length = 3 := by
    apply length_pszMonth
    have := hproper.month
    omega
  have hday : (inField ' ' 2 (decimal (gmtime mtime).day)).length = 2 := by
    apply length_inField
    exact length_decimal_natCast (by decide) (Nat.lt_of_le_of_lt hproper.day.2 (by decide))
  have hgroup : (" 1 user group ".toList).length = 14 := by decide
  have hpermissions : (permissions mode).length = 10 := rfl
  simp only [listPrefix, List.length_append, List.length_cons, List.length_nil, hsize, hmonth, hday,
    hgroup, hpermissions, length_szYearOrHour hproper]

/-- Texts without a line end. -/
def OneLine (text : Text) : Prop := ∀ c ∈ text, c ≠ '\r' ∧ c ≠ '\n'

theorem OneLine.append {x y : Text} (hx : OneLine x) (hy : OneLine y) : OneLine (x ++ y) := by
  intro c hc
  rcases List.mem_append.1 hc with hc | hc
  · exact hx c hc
  · exact hy c hc

theorem oneLine_of_all {x : Text} (h : (x.all fun c => c ≠ '\r' ∧ c ≠ '\n') = true) : OneLine x := by
  intro c hc
  exact of_decide_eq_true (List.all_eq_true.1 h c hc)

theorem oneLine_decimal (n : ℤ) : OneLine (decimal n) := by
  have hdigits : OneLine (Nat.toDigits 10 n.natAbs) := by
    intro c hc
    have hdigit : c.isDigit = true := Nat.isDigit_of_mem_toDigits (by decide) (by decide) hc
    constructor
    · intro hcr
      rw [hcr] at hdigit
      exact absurd hdigit (by decide)
    · intro hnl
      rw [hnl] at hdigit
      exact absurd hdigit (by decide)
  unfold decimal
  split
  · exact OneLine.append (x := ['-']) (oneLine_of_all (by decide)) hdigits
  · exact hdigits

theorem oneLine_inField {fill : Char} {text : Text} (hfill : fill ≠ '\r' ∧ fill ≠ '\n') (width : ℕ)
    (h : OneLine text) : OneLine (inField fill width text) := by
  apply OneLine.append _ h
  intro c hc
  rw [List.eq_of_mem_replicate hc]
  exact hfill

theorem oneLine_permissions (mode : ℕ) : OneLine (permissions mode) := by
  apply oneLine_of_all
  unfold permissions
  split <;> split <;> split <;> split <;> decide

theorem oneLine_pszMonth (i : ℕ) : OneLine (pszMonth.getD i []) := by
  by_cases hi : i < 12
  · have hall : ∀ j < 12, ((pszMonth.getD j []).all fun c => c ≠ '\r' ∧ c ≠ '\n') = true := by
      decide
    exact oneLine_of_all (hall i hi)
  · have hnil : pszMonth.getD i [] = [] := by
      rw [List.getD_eq_getElem?_getD, List.getElem?_eq_none (Nat.not_lt.1 hi)]
      rfl
    rw [hnil]
    exact fun c hc => nomatch hc

/-- What stands in front of the name has no line end in it. -/
theorem oneLine_listPrefix (now : ℤ) (mode : ℕ) (size mtime : ℤ) :
    OneLine (listPrefix now mode size mtime) := by
  have hblank : OneLine [' '] := oneLine_of_all (by decide)
  have hyear : OneLine (szYearOrHour now mtime) := by
    unfold szYearOrHour
    split
    · exact oneLine_inField (by decide) 5 (oneLine_decimal _)
    · apply OneLine.append (oneLine_inField (by decide) 2 (oneLine_decimal _))
      exact OneLine.append (x := [':']) (oneLine_of_all (by decide))
        (oneLine_inField (by decide) 2 (oneLine_decimal _))
  have hday : OneLine (inField ' ' 2 (decimal (gmtime mtime).day)) :=
    oneLine_inField (by decide) 2 (oneLine_decimal _)
  apply OneLine.append (oneLine_permissions mode)
  apply OneLine.append (oneLine_of_all (by decide))
  apply OneLine.append (oneLine_inField (by decide) 14 (oneLine_decimal _))
  apply OneLine.append (hblank.append (oneLine_pszMonth _))
  apply OneLine.append (hblank.append hday)
  exact (hblank.append hyear).append hblank

end ClusterFtpd
