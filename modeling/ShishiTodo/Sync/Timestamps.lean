import ShishiTodo.Lib.Calendar
import ShishiTodo.Lib.Spelling
import ShishiTodo.Web.Agreement

/-!
# Which of two timestamps is later

A merge compares timestamps as texts. They come in two forms: the clients write milliseconds and a `Z`, and the server's JSON has up to six digits of a fraction, without the zeros at its end, and `+00:00`. Within one form the texts stand in the order of time. Between the forms they do so where the milliseconds differ.
-/

namespace ShishiTodo

namespace Sync

open Lib Lib.Calendar

/-- A second of the calendar, of a year with four digits. -/
structure CivilSecond where
  year : Nat
  month : Nat
  day : Nat
  hour : Nat
  minute : Nat
  second : Nat
  year_lt : year < 10000
  inYear : 1 ≤ month ∧ month ≤ 12
  inMonth : 1 ≤ day ∧ (day : Int) ≤ monthLength (12 * year + (month - 1))
  hour_lt : hour < 24
  minute_lt : minute < 60
  second_lt : second < 60

namespace CivilSecond

/-- The months before it. -/
def months (civil : CivilSecond) : Int := 12 * civil.year + (civil.month - 1)

/-- The days before it, from 1970-01-01 on. -/
def days (civil : CivilSecond) : Int := monthStart civil.months + civil.day - 1

/-- The seconds before it, from 1970-01-01 on. -/
def seconds (civil : CivilSecond) : Int :=
  ((civil.days * 24 + civil.hour) * 60 + civil.minute) * 60 + civil.second

/-- `2026-10-21T05:00:00` -/
def chars (civil : CivilSecond) : List Char :=
  Codecs.digitChars 10 4 civil.year ++ '-' :: Codecs.digitChars 10 2 civil.month ++
    '-' :: Codecs.digitChars 10 2 civil.day ++ 'T' :: Codecs.digitChars 10 2 civil.hour ++
    ':' :: Codecs.digitChars 10 2 civil.minute ++ ':' :: Codecs.digitChars 10 2 civil.second

end CivilSecond

/-- An instant in a form that a merge meets. -/
inductive Stamp where
  /-- `to_rfc3339_opts` with milliseconds, and `toISOString`. -/
  | client (civil : CivilSecond) (millis : Fin 1000)
  /-- A `timestamptz` in the server's JSON. -/
  | server (civil : CivilSecond) (micros : Fin 1000000)

/-- The digits of a fraction that PostgreSQL prints, after a point. -/
def fractionChars (micros : Nat) : List Char :=
  if micros = 0 then [] else '.' :: trimZeros '0' (Codecs.digitChars 10 6 micros)

namespace Stamp

def civil : Stamp → CivilSecond
  | client civil _ => civil
  | server civil _ => civil

/-- What follows the second. -/
def fraction : Stamp → List Char
  | client _ millis => '.' :: (Codecs.digitChars 10 3 millis ++ ['Z'])
  | server _ micros => fractionChars micros ++ ['+', '0', '0', ':', '0', '0']

def text (stamp : Stamp) : String := String.ofList (stamp.civil.chars ++ stamp.fraction)

/-- The microseconds of the second. -/
def micros : Stamp → Nat
  | client _ millis => millis * 1000
  | server _ micros => micros

/-- The microseconds from 1970-01-01 on. -/
def instant (stamp : Stamp) : Int := stamp.civil.seconds * 1000000 + stamp.micros

end Stamp

/-! ### The texts of one second -/

theorem digitChars_eq_numeral {width n : Nat} (h : n < 10 ^ width) :
    Codecs.digitChars 10 width n = numeral 10 Codecs.digitChar width n := by
  induction width generalizing n with
  | zero => rfl
  | succ width ih =>
      rw [Codecs.digitChars, numeral_succ (by decide) h, ih]
      rw [Nat.pow_succ] at h
      omega

theorem digitChar_ascending : Ascending 10 Codecs.digitChar := by
  unfold Ascending
  decide

theorem orders_digitChars (width : Nat) {n m : Nat} (hn : n < 10 ^ width) (hm : m < 10 ^ width) :
    Orders (Codecs.digitChars 10 width n) (Codecs.digitChars 10 width m) n m := by
  rw [digitChars_eq_numeral hn, digitChars_eq_numeral hm]
  exact Orders.numeral digitChar_ascending hn hm

theorem isDigit_of_mem_digitChars {width n : Nat} {c : Char} (h : c ∈ Codecs.digitChars 10 width n) :
    '0' ≤ c ∧ c < 'Z' := by
  have hdigit : ∀ digit < 10, '0' ≤ Codecs.digitChar digit ∧ Codecs.digitChar digit < 'Z' := by
    decide
  induction width generalizing n with
  | zero => cases h
  | succ width ih =>
      rcases List.mem_append.mp h with hfirst | hlast
      · exact ih hfirst
      · rw [List.mem_singleton.mp hlast]
        exact hdigit (n % 10) (Nat.mod_lt n (by decide))

theorem inMonth_days (civil : CivilSecond) : InMonth civil.days civil.months :=
  inMonth_iff.mpr ⟨civil.day, by exact_mod_cast civil.inMonth.1, civil.inMonth.2, rfl⟩

/-- Days are in the order of their months, and within a month in the order of their numbers. -/
theorem days_lt_iff (civil other : CivilSecond) : civil.days < other.days ↔
    civil.months < other.months ∨ civil.months = other.months ∧ (civil.day : Int) < other.day := by
  have hcivil := inMonth_days civil
  have hother := inMonth_days other
  rcases Int.lt_trichotomy civil.months other.months with hless | hsame | hmore
  · simp [hcivil.lt hother hless, hless]
  · have hday : civil.days < other.days ↔ (civil.day : Int) < other.day := by
      unfold CivilSecond.days
      rw [hsame]
      omega
    simp [hsame, hday]
  · have hlater := hother.lt hcivil hmore
    omega

theorem orders_chars (civil other : CivilSecond) :
    Orders civil.chars other.chars civil.seconds other.seconds := by
  have hyear := orders_digitChars 4 civil.year_lt other.year_lt
  have hinYear := civil.inYear
  have hinYear' := other.inYear
  have hshort : ∀ civil : CivilSecond, civil.day < 10 ^ 2 := by
    intro civil
    have hlength := monthLength_pos (12 * civil.year + (civil.month - 1))
    have hday := civil.inMonth.2
    omega
  have hmonth : Orders (Codecs.digitChars 10 2 civil.month) (Codecs.digitChars 10 2 other.month)
      (civil.month - 1) (other.month - 1) := by
    apply (orders_digitChars 2 (n := civil.month) (m := other.month) _ _).congr <;> omega
  have hlinear := hyear.append 12 (hmonth.cons '-') (by omega) (by omega)
  have hmonths : civil.months = civil.year * 12 + (civil.month - 1) ∧
      other.months = other.year * 12 + (other.month - 1) := by
    unfold CivilSecond.months
    omega
  rw [← hmonths.1, ← hmonths.2] at hlinear
  have hdays :=
    hlinear.append_lex ((orders_digitChars 2 (hshort civil) (hshort other)).cons '-') (days_lt_iff civil other)
      ((days_lt_iff other civil).trans (by rw [eq_comm]))
  have hours := civil.hour_lt
  have hours' := other.hour_lt
  have hhour := hdays.append 24
    ((orders_digitChars 2 (n := civil.hour) (m := other.hour) (by omega) (by omega)).cons 'T')
    (by omega) (by omega)
  have minutes := civil.minute_lt
  have minutes' := other.minute_lt
  have hminute := hhour.append 60
    ((orders_digitChars 2 (n := civil.minute) (m := other.minute) (by omega) (by omega)).cons ':')
    (by omega) (by omega)
  have seconds := civil.second_lt
  have seconds' := other.second_lt
  exact hminute.append 60
    ((orders_digitChars 2 (n := civil.second) (m := other.second) (by omega) (by omega)).cons ':')
    (by omega) (by omega)

/-! ### The fractions -/

theorem digitChars_add (base front back n : Nat) : Codecs.digitChars base (front + back) n =
    Codecs.digitChars base front (n / base ^ back) ++ Codecs.digitChars base back n := by
  induction back generalizing n with
  | zero => simp [Codecs.digitChars]
  | succ back ih =>
      rw [← Nat.add_assoc, Codecs.digitChars, ih, Codecs.digitChars, Nat.div_div_eq_div_mul, Nat.pow_succ',
        List.append_assoc]

/-- Within the server's form the fractions stand in the order of time. -/
theorem server_lt_server (civil other : CivilSecond) (left right : Fin 1000000) :
    (Stamp.server civil left).fraction < (Stamp.server other right).fraction ↔ (left : Nat) < right := by
  have hdigits : ∀ micros : Nat, ∀ c ∈ trimZeros '0' (Codecs.digitChars 10 6 micros), '+' < c := by
    intro micros c hc
    have hdigit := (isDigit_of_mem_digitChars ((trimZeros_sublist _ _).subset hc)).1
    exact lt_of_lt_of_le (by decide) hdigit
  have hbefore : '+' < '.' := by decide
  simp only [Stamp.fraction, fractionChars]
  by_cases hleft : (left : Nat) = 0
  · by_cases hright : (right : Nat) = 0
    · simp [hleft, hright]
    · have hpos : 0 < (right : Nat) := Nat.pos_of_ne_zero hright
      simp [hleft, hright, List.cons_lt_cons_iff, hbefore, hpos]
  · by_cases hright : (right : Nat) = 0
    · simp [hleft, hright, List.cons_lt_cons_iff, hbefore.not_gt]
    · have horders := orders_digitChars 6 (n := left) (m := right) (by omega) (by omega)
      rw [if_neg hleft, if_neg hright, List.cons_append, List.cons_append, List.cons_lt_cons_iff,
        append_stop_lt_iff (hdigits left) (hdigits right),
        trimZeros_lt_iff horders.length (fun c hc => (isDigit_of_mem_digitChars hc).1)
          (fun c hc => (isDigit_of_mem_digitChars hc).1), horders.lt]
      simp

theorem client_lt_client (civil other : CivilSecond) (left right : Fin 1000) :
    (Stamp.client civil left).fraction < (Stamp.client other right).fraction ↔ (left : Nat) < right := by
  have horders := orders_digitChars 3 (n := left) (m := right) (by omega) (by omega)
  simp only [Stamp.fraction]
  rw [List.cons_lt_cons_iff, append_lt_append_iff horders.length, horders.lt]
  simp

/-- In one millisecond the client's text stands behind the server's. -/
theorem server_lt_client (civil other : CivilSecond) (left : Fin 1000000) (right : Fin 1000) :
    (Stamp.server civil left).fraction < (Stamp.client other right).fraction ↔
      (left : Nat) / 1000 ≤ right := by
  simp only [Stamp.fraction, fractionChars]
  by_cases hleft : (left : Nat) = 0
  · have hbefore : '+' < '.' := by decide
    simp [hleft, List.cons_lt_cons_iff, hbefore]
  · have horders := orders_digitChars 3 (n := left / 1000) (m := right) (by omega) (by omega)
    have hsplit : Codecs.digitChars 10 6 left =
        Codecs.digitChars 10 3 (left / 1000) ++ Codecs.digitChars 10 3 left := digitChars_add 10 3 3 left
    have hstop : '+' < '0' := by decide
    have hfinal : '0' < 'Z' := by decide
    have hdigits : ∀ c ∈ Codecs.digitChars 10 3 (left / 1000) ++ Codecs.digitChars 10 3 left,
        '0' ≤ c ∧ c < 'Z' := by
      rw [← hsplit]
      exact fun c hc => isDigit_of_mem_digitChars hc
    rw [if_neg hleft, List.cons_append, List.cons_lt_cons_iff, hsplit,
      trimZeros_append_lt_iff horders.length hstop hfinal hdigits fun c hc => (isDigit_of_mem_digitChars hc).1,
      ← not_lt, horders.gt]
    simp only [lt_irrefl, true_and, false_or]
    omega

theorem client_lt_server (civil other : CivilSecond) (left : Fin 1000) (right : Fin 1000000) :
    (Stamp.client civil left).fraction < (Stamp.server other right).fraction ↔
      (left : Nat) < (right : Nat) / 1000 := by
  have hserver := server_lt_client other civil right left
  have hne : (Stamp.server other right).fraction ≠ (Stamp.client civil left).fraction := by
    intro hsame
    have hlast := congrArg List.getLast? hsame
    have hz : (Stamp.client civil left).fraction.getLast? = some 'Z' :=
      @List.getLast?_concat _ ('.' :: Codecs.digitChars 10 3 left) 'Z'
    rw [hz] at hlast
    simp [Stamp.fraction] at hlast
  constructor
  · intro hless
    exact Nat.not_le.mp fun hle => lt_asymm hless (hserver.mpr hle)
  · intro hless
    rcases lt_trichotomy (Stamp.client civil left).fraction (Stamp.server other right).fraction with
      hbefore | hsame | hbehind
    · exact hbefore
    · exact absurd hsame.symm hne
    · exact absurd (hserver.mp hbehind) (Nat.not_le.mpr hless)

/-! ### Which is later -/

/-- The texts of the two stamps tell which instant is the later one: they are of one form, or of different milliseconds, or the one that may have more digits has none that count. -/
def Stamp.Comparable : Stamp → Stamp → Prop
  | .client civil millis, .server other micros =>
      (Stamp.client civil millis).instant / 1000 ≠ (Stamp.server other micros).instant / 1000
  | .server civil micros, .client other millis =>
      (Stamp.server civil micros).instant / 1000 = (Stamp.client other millis).instant / 1000 →
        (micros : Nat) % 1000 = 0
  | .client _ _, .client _ _ => True
  | .server _ _, .server _ _ => True

theorem text_lt_iff (left right : Stamp) : left.text < right.text ↔
    left.civil.seconds < right.civil.seconds ∨
      left.civil.seconds = right.civil.seconds ∧ left.fraction < right.fraction := by
  have horders := orders_chars left.civil right.civil
  unfold Stamp.text
  rw [String.lt_iff_toList_lt, String.toList_ofList, String.toList_ofList,
    append_lt_append_iff horders.length, horders.lt, horders.eq_iff]

theorem isEmpty_text (stamp : Stamp) : stamp.text.isEmpty = false := by
  have hchars : stamp.civil.chars ++ stamp.fraction ≠ [] := by
    simp [CivilSecond.chars]
  rw [Bool.eq_false_iff]
  intro hempty
  rw [String.isEmpty_iff] at hempty
  exact hchars (by rw [← String.toList_ofList (l := stamp.civil.chars ++ stamp.fraction), ← Stamp.text, hempty]; rfl)

theorem later_text (left right : Stamp) :
    Native.later left.text right.text = true ↔ right.text < left.text := by
  simp [Native.later, isEmpty_text]

theorem oneUnit_text (stamp : Stamp) : Web.OneUnit stamp.text := by
  have hdigits : ∀ width n, ∀ c ∈ Codecs.digitChars 10 width n, c.toNat < 0x10000 := by
    intro width n c hc
    have hless : c.toNat < 'Z'.toNat := (isDigit_of_mem_digitChars hc).2
    exact hless.trans (by decide)
  have hplain : ∀ chars : List Char, chars.all (fun c => decide (c.toNat < 0x10000)) = true →
      ∀ c ∈ chars, c.toNat < 0x10000 := fun chars hchars c hc =>
    of_decide_eq_true (List.all_eq_true.mp hchars c hc)
  have hmark := hplain ['-', 'T', ':', '.', 'Z'] (by decide)
  intro c hc
  rw [Stamp.text, String.toList_ofList, List.mem_append] at hc
  rcases hc with hcivil | hfraction
  · simp only [CivilSecond.chars, List.mem_append, List.mem_cons] at hcivil
    rcases hcivil with ((((hc | hc | hc) | hc | hc) | hc | hc) | hc | hc) | hc | hc
    all_goals first | exact hdigits _ _ c hc | exact hmark c (by simp [hc])
  · cases stamp with
    | client civil millis =>
        simp only [Stamp.fraction, List.mem_cons, List.mem_append, List.not_mem_nil, or_false] at hfraction
        rcases hfraction with hc | hc | hc
        · exact hmark c (by simp [hc])
        · exact hdigits _ _ c hc
        · exact hmark c (by simp [hc])
    | server civil micros =>
        rcases List.mem_append.mp hfraction with hc | hc
        · rw [fractionChars] at hc
          split at hc
          · cases hc
          · rcases List.mem_cons.mp hc with hc | hc
            · exact hmark c (by simp [hc])
            · exact hdigits _ _ c ((trimZeros_sublist _ _).subset hc)
        · exact hplain _ (by decide) c hc

theorem web_later_text (left right : Stamp) :
    Web.later left.text right.text = Native.later left.text right.text :=
  Web.later_eq_of_oneUnit (oneUnit_text left) (oneUnit_text right)

/-- A merge finds the later of two stamps if and only if their texts can be compared. -/
theorem later_iff_comparable (left right : Stamp) :
    ((Native.later left.text right.text = true ↔ right.instant < left.instant) ↔ left.Comparable right) ∧
      ((Web.later left.text right.text = true ↔ right.instant < left.instant) ↔ left.Comparable right) := by
  rw [web_later_text, and_self, later_text, text_lt_iff]
  cases left with
  | client civil millis =>
      cases right with
      | client other millis' =>
          rw [client_lt_client]
          simp only [Stamp.instant, Stamp.civil, Stamp.micros, Stamp.Comparable, iff_true]
          omega
      | server other micros =>
          rw [server_lt_client]
          simp only [Stamp.instant, Stamp.civil, Stamp.micros, Stamp.Comparable]
          omega
  | server civil micros =>
      cases right with
      | client other millis =>
          rw [client_lt_server]
          simp only [Stamp.instant, Stamp.civil, Stamp.micros, Stamp.Comparable]
          omega
      | server other micros' =>
          rw [server_lt_server]
          simp only [Stamp.instant, Stamp.civil, Stamp.micros, Stamp.Comparable, iff_true]
          omega

/-- Five o'clock of a day in October. -/
def fiveOClock : CivilSecond :=
  ⟨2026, 10, 21, 5, 0, 0, by decide, by decide, by decide, by decide, by decide, by decide⟩

example : (Stamp.client fiveOClock 123).text = "2026-10-21T05:00:00.123Z" ∧
    (Stamp.server fiveOClock 123400).text = "2026-10-21T05:00:00.1234+00:00" := by
  decide

/-- The server's row is half a millisecond younger, and the local one is taken for the later one. -/
theorem earlier_taken_for_later :
    let left := Stamp.client fiveOClock 123
    let right := Stamp.server fiveOClock 123500
    left.instant < right.instant ∧ Native.later left.text right.text = true ∧
      Web.later left.text right.text = true := by
  decide

end Sync

end ShishiTodo
