import ShishiTodo.Domain
import Mathlib.Algebra.Group.Nat.Defs
import Mathlib.Data.Nat.Basic
import Mathlib.Data.List.Induction
import Mathlib.Data.List.TakeWhile

/-!
# A concrete environment

Codecs that spell identifiers, dates and instants as the `uuid` and `chrono` crates do, and columns as PostgreSQL does in the UTC time zone. They read the canonical spellings and the common variants, so that runs of the model can be evaluated on real payloads; the results hold for every environment.
-/

namespace ShishiTodo

namespace Codecs

def digitValue (c : Char) : Option Nat :=
  if 48 ≤ c.toNat ∧ c.toNat ≤ 57 then some (c.toNat - 48)
  else if 97 ≤ c.toNat ∧ c.toNat ≤ 102 then some (c.toNat - 87)
  else if 65 ≤ c.toNat ∧ c.toNat ≤ 70 then some (c.toNat - 55)
  else none

def digitChar (n : Nat) : Char :=
  if n < 10 then Char.ofNat (48 + n) else Char.ofNat (87 + n)

/-- The last `width` digits of a number. -/
def digitChars (base : Nat) : Nat → Nat → List Char
  | 0, _ => []
  | width + 1, n => digitChars base width (n / base) ++ [digitChar (n % base)]

/-- Reads digits from the most significant on. -/
def readDigits (base : Nat) (chars : List Char) : Option Nat :=
  chars.foldl (fun value c => do
    let value ← value
    let digit ← digitValue c
    if digit < base then some (base * value + digit) else none) (some 0)

theorem digitValue_digitChar : ∀ {n : Nat}, n < 16 → digitValue (digitChar n) = some n := by
  decide

theorem readDigits_append_digit {base : Nat} (hbase : base ≤ 16) {chars : List Char} {value n : Nat}
    (hchars : readDigits base chars = some value) (hn : n < base) :
    readDigits base (chars ++ [digitChar n]) = some (base * value + n) := by
  unfold readDigits at hchars ⊢
  rw [List.foldl_append, hchars]
  simp [digitValue_digitChar (show n < 16 by omega), hn]

theorem readDigits_digitChars {base : Nat} (hbase : base ≤ 16) (hpos : 0 < base) (width n : Nat) :
    readDigits base (digitChars base width n) = some (n % base ^ width) := by
  induction width generalizing n with
  | zero => simp [digitChars, readDigits, Nat.mod_one]
  | succ width ih =>
      rw [digitChars, readDigits_append_digit hbase (ih (n / base)) (Nat.mod_lt n hpos)]
      have hsplit : n % base ^ (width + 1) = base * (n / base % base ^ width) + n % base := by
        rw [Nat.pow_succ, Nat.mul_comm (base ^ width) base, Nat.mod_mul]
        omega
      rw [hsplit]

/-! ### Identifiers -/

/-- Hyphens after the groups of 8, 4, 4 and 4 digits. -/
def hyphenate (digits : List Char) : List Char :=
  digits.take 8 ++ '-' :: (digits.drop 8).take 4 ++ '-' :: (digits.drop 12).take 4 ++
    '-' :: (digits.drop 16).take 4 ++ '-' :: digits.drop 20

def parseUuid (text : String) : Option Uuid :=
  let digits := text.toList.filter (· != '-')
  if digits.length = 32 then (readDigits 16 digits).map fun n => ⟨BitVec.ofNat 128 n⟩ else none

def uuid : Codec Uuid where
  parse := parseUuid
  render id := String.ofList (hyphenate (digitChars 16 32 id.bits.toNat))

theorem digitChar_ne_hyphen : ∀ {n : Nat}, n < 16 → digitChar n ≠ '-' := by
  decide

theorem digitChars_ne_hyphen {base : Nat} (hbase : base ≤ 16) (hpos : 0 < base) (width n : Nat) :
    ∀ c ∈ digitChars base width n, c ≠ '-' := by
  induction width generalizing n with
  | zero => simp [digitChars]
  | succ width ih =>
      intro c hc
      rw [digitChars, List.mem_append, List.mem_singleton] at hc
      rcases hc with hold | rfl
      · exact ih (n / base) c hold
      · exact digitChar_ne_hyphen (Nat.lt_of_lt_of_le (Nat.mod_lt n hpos) hbase)

theorem length_digitChars (base width n : Nat) : (digitChars base width n).length = width := by
  induction width generalizing n with
  | zero => rfl
  | succ width ih => simp [digitChars, ih]

theorem filter_hyphenate {digits : List Char} (hdigits : ∀ c ∈ digits, c ≠ '-') :
    (hyphenate digits).filter (· != '-') = digits := by
  have hkeep : ∀ part : List Char, (∀ c ∈ part, c ∈ digits) → part.filter (· != '-') = part :=
    fun part hpart => List.filter_eq_self.mpr fun c hc => by simpa using hdigits c (hpart c hc)
  have hgroup : ∀ skip : Nat,
      ((digits.drop skip).take 4).filter (· != '-') = (digits.drop skip).take 4 := fun skip =>
    hkeep _ fun _ hc => List.mem_of_mem_drop (List.mem_of_mem_take hc)
  have hhyphen : ∀ part : List Char, ('-' :: part).filter (· != '-') = part.filter (· != '-') :=
    fun _ => List.filter_cons_of_neg (by decide)
  have hjoin : ∀ skip : Nat,
      (digits.drop skip).take 4 ++ digits.drop (skip + 4) = digits.drop skip := by
    intro skip
    rw [← List.drop_drop]
    exact List.take_append_drop 4 (digits.drop skip)
  simp only [hyphenate, List.filter_append, List.cons_append, List.append_assoc, hhyphen, hgroup,
    hkeep _ fun _ hc => List.mem_of_mem_take hc, hkeep _ fun _ hc => List.mem_of_mem_drop hc]
  rw [hjoin 16, hjoin 12, hjoin 8, List.take_append_drop]

theorem parseUuid_hyphenate {digits : List Char} {n : Nat} (hdigits : ∀ c ∈ digits, c ≠ '-')
    (hlength : digits.length = 32) (hread : readDigits 16 digits = some n) :
    parseUuid (String.ofList (hyphenate digits)) = some ⟨BitVec.ofNat 128 n⟩ := by
  simp only [parseUuid, String.toList_ofList, filter_hyphenate hdigits]
  rw [if_pos hlength, hread, Option.map_some]

theorem readDigits_bits (id : Uuid) :
    readDigits 16 (digitChars 16 32 id.bits.toNat) = some id.bits.toNat := by
  have hpow : (16 : Nat) ^ 32 = 2 ^ 128 := by decide
  have hlt : id.bits.toNat < 16 ^ 32 := by
    rw [hpow]
    exact id.bits.isLt
  have hread := readDigits_digitChars (le_refl 16) (by decide) 32 id.bits.toNat
  rw [Nat.mod_eq_of_lt hlt] at hread
  exact hread

theorem parseUuid_render (id : Uuid) : parseUuid (uuid.render id) = some id := by
  have hparse := parseUuid_hyphenate
    (digitChars_ne_hyphen (le_refl 16) (by decide) 32 id.bits.toNat)
    (length_digitChars 16 32 id.bits.toNat) (readDigits_bits id)
  rw [BitVec.ofNat_toNat, BitVec.setWidth_eq] at hparse
  exact hparse

theorem uuid_roundTrips : uuid.RoundTrips := by
  intro id
  have hparse : uuid.parse = parseUuid := rfl
  rw [hparse]
  exact parseUuid_render id

/-! ### Dates and instants -/

/-- Days from 1970-01-01 to a date of the proleptic Gregorian calendar. -/
def daysFromCivil (year : Int) (month day : Nat) : Int :=
  let shifted := if month ≤ 2 then year - 1 else year
  let era := shifted.fdiv 400
  let yearOfEra := shifted - era * 400
  let dayOfYear : Int := (153 * ((month + 9) % 12 : Nat) + 2) / 5 + day - 1
  era * 146097 + (yearOfEra * 365 + yearOfEra / 4 - yearOfEra / 100 + dayOfYear) - 719468

/-- Year, month and day of a date. -/
def civil (date : NaiveDate) : Int × Nat × Nat :=
  let shifted := date.days + 719468
  let dayOfEra := shifted - shifted.fdiv 146097 * 146097
  let yearOfEra := (dayOfEra - dayOfEra / 1460 + dayOfEra / 36524 - dayOfEra / 146096) / 365
  let dayOfYear := dayOfEra - (365 * yearOfEra + yearOfEra / 4 - yearOfEra / 100)
  let month := ((5 * dayOfYear + 2) / 153).toNat
  (date.year, (month + 2) % 12 + 1, (dayOfYear - (153 * month + 2) / 5 + 1).toNat)

def dateChars (date : NaiveDate) : List Char :=
  let (year, month, day) := civil date
  digitChars 10 4 year.toNat ++ '-' :: digitChars 10 2 month ++ '-' :: digitChars 10 2 day

def readDate : List Char → Option NaiveDate
  | y₁ :: y₂ :: y₃ :: y₄ :: '-' :: m₁ :: m₂ :: '-' :: d₁ :: d₂ :: [] => do
      let year ← readDigits 10 [y₁, y₂, y₃, y₄]
      let month ← readDigits 10 [m₁, m₂]
      let day ← readDigits 10 [d₁, d₂]
      let date : NaiveDate := ⟨daysFromCivil year month day⟩
      -- A month or a day out of range names no date.
      if civil date = ((year : Int), month, day) then some date else none
  | _ => none

def date : Codec NaiveDate where
  parse text := readDate text.toList
  render date := String.ofList (dateChars date)

/-- The fraction of a second in nine digits, less its trailing groups of zeros. -/
def fractionChars (nanos : Nat) : List Char :=
  if nanos = 0 then []
  else if nanos % 1000000 = 0 then '.' :: digitChars 10 3 (nanos / 1000000)
  else if nanos % 1000 = 0 then '.' :: digitChars 10 6 (nanos / 1000)
  else '.' :: digitChars 10 9 nanos

def timeChars (instant : Instant) : List Char :=
  let second := (instant.nanos.fdiv 1000000000).emod 86400 |>.toNat
  digitChars 10 2 (second / 3600) ++ ':' :: digitChars 10 2 (second / 60 % 60) ++
    ':' :: digitChars 10 2 (second % 60) ++
    fractionChars (instant.nanos.emod 1000000000).toNat

def instantChars (zone : List Char) (instant : Instant) : List Char :=
  dateChars instant.dateNaive ++ 'T' :: timeChars instant ++ zone

/-- The fraction of a second and a zone designator of UTC. -/
def readFraction : List Char → Option Nat
  | ['Z'] => some 0
  | ['+', '0', '0', ':', '0', '0'] => some 0
  | '.' :: rest => do
      let digits := rest.takeWhile fun c => decide (48 ≤ c.toNat ∧ c.toNat ≤ 57)
      let zone := rest.drop digits.length
      let nanos ← readDigits 10 ((digits ++ List.replicate 9 '0').take 9)
      if zone = ['Z'] ∨ zone = ['+', '0', '0', ':', '0', '0'] then some nanos else none
  | _ => none

def readTime : List Char → Option Int
  | h₁ :: h₂ :: ':' :: m₁ :: m₂ :: ':' :: s₁ :: s₂ :: rest => do
      let hour ← readDigits 10 [h₁, h₂]
      let minute ← readDigits 10 [m₁, m₂]
      let second ← readDigits 10 [s₁, s₂]
      let nanos ← readFraction rest
      some ((hour * 3600 + minute * 60 + second : Nat) * 1000000000 + (nanos : Int))
  | _ => none

def parseInstant (text : String) : Option Instant := do
  let chars := text.toList
  let date ← readDate (chars.take 10)
  match chars.drop 10 with
  | 'T' :: rest => do
      let time ← readTime rest
      some ⟨date.days * 86400000000000 + time⟩
  | _ => none

def instant : Codec Instant where
  parse := parseInstant
  render instant := String.ofList (instantChars ['Z'] instant)

/-! ### Text without NUL -/

theorem containsNul_eq_false_iff {text : String} :
    containsNul text = false ↔ ∀ c ∈ text.toList, c.toNat ≠ 0 := by
  simp [containsNul]

theorem readDigits_concat {base n : Nat} {chars : List Char} {c : Char}
    (h : readDigits base (chars ++ [c]) = some n) :
    ∃ value digit, readDigits base chars = some value ∧ digitValue c = some digit ∧ digit < base ∧
      n = base * value + digit := by
  unfold readDigits at h ⊢
  rw [List.foldl_append, List.foldl_cons, List.foldl_nil] at h
  obtain ⟨value, hvalue, h⟩ := Option.bind_eq_some_iff.mp h
  obtain ⟨digit, hdigit, h⟩ := Option.bind_eq_some_iff.mp h
  split at h
  · rename_i hlt
    exact ⟨value, digit, hvalue, hdigit, hlt, (Option.some.inj h).symm⟩
  · cases h

theorem digitValue_ne_nul {c : Char} {digit : Nat} (h : digitValue c = some digit) :
    c.toNat ≠ 0 := by
  unfold digitValue at h
  split at h
  · omega
  · split at h
    · omega
    · split at h
      · omega
      · cases h

/-- What was read is digits, and as large as so many digits can be. -/
theorem readDigits_sound {base : Nat} {chars : List Char} :
    ∀ {n : Nat}, readDigits base chars = some n →
      (∀ c ∈ chars, c.toNat ≠ 0) ∧ n < base ^ chars.length := by
  induction chars using List.reverseRecOn with
  | nil =>
      intro n h
      cases h
      simp
  | append_singleton chars c ih =>
      intro n h
      obtain ⟨value, digit, hvalue, hdigit, hlt, rfl⟩ := readDigits_concat h
      obtain ⟨hchars, hbound⟩ := ih hvalue
      refine ⟨?_, ?_⟩
      · intro other hother
        rw [List.mem_append, List.mem_singleton] at hother
        rcases hother with hold | rfl
        · exact hchars other hold
        · exact digitValue_ne_nul hdigit
      · rw [List.length_append, List.length_singleton, Nat.pow_succ, Nat.mul_comm _ base]
        have hstep : base * (value + 1) ≤ base * base ^ chars.length :=
          Nat.mul_le_mul_left base hbound
        rw [Nat.mul_add, Nat.mul_one] at hstep
        omega

theorem digitChar_ne_nul : ∀ {n : Nat}, n < 16 → (digitChar n).toNat ≠ 0 := by
  decide

theorem digitChars_ne_nul {base : Nat} (hbase : base ≤ 16) (hpos : 0 < base) (width n : Nat) :
    ∀ c ∈ digitChars base width n, c.toNat ≠ 0 := by
  induction width generalizing n with
  | zero => simp [digitChars]
  | succ width ih =>
      intro c hc
      rw [digitChars, List.mem_append, List.mem_singleton] at hc
      rcases hc with hold | rfl
      · exact ih (n / base) c hold
      · exact digitChar_ne_nul (Nat.lt_of_lt_of_le (Nat.mod_lt n hpos) hbase)

theorem parseUuid_text {text : String} {id : Uuid} (h : parseUuid text = some id) :
    containsNul text = false := by
  rw [containsNul_eq_false_iff]
  intro c hc
  simp only [parseUuid] at h
  split at h
  · obtain ⟨n, hread, -⟩ := Option.map_eq_some_iff.mp h
    by_cases hhyphen : c = '-'
    · subst hhyphen
      decide
    · exact (readDigits_sound hread).1 c (List.mem_filter.mpr ⟨hc, by simpa using hhyphen⟩)
  · cases h

theorem uuid_print (id : Uuid) : containsNul (uuid.render id) = false := by
  rw [containsNul_eq_false_iff]
  have hdigits := digitChars_ne_nul (le_refl 16) (by decide) 32 id.bits.toNat
  have hpart : ∀ part : List Char, (∀ c ∈ part, c ∈ digitChars 16 32 id.bits.toNat) →
      ∀ c ∈ part, c.toNat ≠ 0 := fun part hpart c hc => hdigits c (hpart c hc)
  intro c hc
  simp only [uuid, String.toList_ofList, hyphenate, List.mem_append, List.mem_cons] at hc
  have hhyphen : '-'.toNat ≠ 0 := by decide
  rcases hc with (((hc | rfl | hc) | rfl | hc) | rfl | hc) | rfl | hc
  · exact hpart _ (fun _ h => List.mem_of_mem_take h) c hc
  · exact hhyphen
  · exact hpart _ (fun _ h => List.mem_of_mem_drop (List.mem_of_mem_take h)) c hc
  · exact hhyphen
  · exact hpart _ (fun _ h => List.mem_of_mem_drop (List.mem_of_mem_take h)) c hc
  · exact hhyphen
  · exact hpart _ (fun _ h => List.mem_of_mem_drop (List.mem_of_mem_take h)) c hc
  · exact hhyphen
  · exact hpart _ (fun _ h => List.mem_of_mem_drop h) c hc

theorem daysFromCivil_le {year month day : Nat} (hyear : year < 10000) (hday : day < 100) :
    daysFromCivil year month day ≤ 4000000 := by
  simp only [daysFromCivil]
  rw [Int.fdiv_eq_ediv_of_nonneg _ (by decide)]
  have hmonth := Nat.mod_lt (month + 9) (show 0 < 12 by decide)
  split <;> omega

theorem readDate_sound {chars : List Char} {date : NaiveDate} (h : readDate chars = some date) :
    (∀ c ∈ chars, c.toNat ≠ 0) ∧ date.days ≤ 4000000 := by
  unfold readDate at h
  split at h
  · obtain ⟨year, hyear, h⟩ := Option.bind_eq_some_iff.mp h
    obtain ⟨month, hmonth, h⟩ := Option.bind_eq_some_iff.mp h
    obtain ⟨day, hday, h⟩ := Option.bind_eq_some_iff.mp h
    obtain ⟨hyearChars, hyearBound⟩ := readDigits_sound hyear
    obtain ⟨hmonthChars, -⟩ := readDigits_sound hmonth
    obtain ⟨hdayChars, hdayBound⟩ := readDigits_sound hday
    have hhyphen : '-'.toNat ≠ 0 := by decide
    simp only at h
    split at h
    · cases h
      refine ⟨?_, daysFromCivil_le (by simpa using hyearBound) (by simpa using hdayBound)⟩
      simp only [List.forall_mem_cons] at hyearChars hmonthChars hdayChars ⊢
      exact ⟨hyearChars.1, hyearChars.2.1, hyearChars.2.2.1, hyearChars.2.2.2.1, hhyphen,
        hmonthChars.1, hmonthChars.2.1, hhyphen, hdayChars.1, hdayChars.2.1, hdayChars.2.2⟩
    · cases h
  · cases h

theorem dateChars_ne_nul (date : NaiveDate) : ∀ c ∈ dateChars date, c.toNat ≠ 0 := by
  have hdigits := fun width n => digitChars_ne_nul (show 10 ≤ 16 by decide) (by decide) width n
  intro c hc
  simp only [dateChars, List.mem_append, List.mem_cons] at hc
  rcases hc with (hc | rfl | hc) | rfl | hc
  · exact hdigits _ _ c hc
  · decide
  · exact hdigits _ _ c hc
  · decide
  · exact hdigits _ _ c hc

theorem readFraction_sound {chars : List Char} {nanos : Nat} (h : readFraction chars = some nanos) :
    (∀ c ∈ chars, c.toNat ≠ 0) ∧ nanos < 1000000000 := by
  unfold readFraction at h
  split at h
  · cases h
    simp
  · cases h
    simp
  · rename_i rest
    obtain ⟨value, hread, h⟩ := Option.bind_eq_some_iff.mp h
    obtain ⟨-, hbound⟩ := readDigits_sound hread
    split at h
    · rename_i hzone
      cases h
      refine ⟨?_, lt_of_lt_of_le hbound ?_⟩
      · have hsplit : ∀ c ∈ rest, c ∈ rest.takeWhile
            (fun c => decide (48 ≤ c.toNat ∧ c.toNat ≤ 57)) ∨
            c ∈ rest.drop (rest.takeWhile
              (fun c => decide (48 ≤ c.toNat ∧ c.toNat ≤ 57))).length := by
          intro c hc
          rw [← List.take_append_drop (rest.takeWhile
            (fun c => decide (48 ≤ c.toNat ∧ c.toNat ≤ 57))).length rest, List.mem_append] at hc
          refine hc.imp_left fun htake => ?_
          rwa [← List.prefix_iff_eq_take.mp (List.takeWhile_prefix _)] at htake
        intro c hc
        rcases List.mem_cons.mp hc with rfl | hc
        · decide
        · rcases hsplit c hc with hdigit | hrest
          · have := List.mem_takeWhile_imp hdigit
            simp only [decide_eq_true_eq] at this
            omega
          · have hall : ∀ c ∈ (['Z'] ++ ['+', '0', '0', ':', '0', '0'] : List Char),
                c.toNat ≠ 0 := by simp
            rcases hzone with hzone | hzone <;> rw [hzone] at hrest
            · exact hall c (List.mem_append_left _ hrest)
            · exact hall c (List.mem_append_right _ hrest)
      · have hlength : ((rest.takeWhile (fun c => decide (48 ≤ c.toNat ∧ c.toNat ≤ 57)) ++
            List.replicate 9 '0').take 9).length ≤ 9 := List.length_take_le 9 _
        exact Nat.pow_le_pow_right (by decide) hlength
    · cases h
  · cases h

theorem readTime_sound {chars : List Char} {time : Int} (h : readTime chars = some time) :
    (∀ c ∈ chars, c.toNat ≠ 0) ∧ time < 400000 * 1000000000 := by
  unfold readTime at h
  split at h
  · obtain ⟨hour, hhour, h⟩ := Option.bind_eq_some_iff.mp h
    obtain ⟨minute, hminute, h⟩ := Option.bind_eq_some_iff.mp h
    obtain ⟨second, hsecond, h⟩ := Option.bind_eq_some_iff.mp h
    obtain ⟨nanos, hnanos, h⟩ := Option.bind_eq_some_iff.mp h
    cases h
    obtain ⟨hhourChars, hhourBound⟩ := readDigits_sound hhour
    obtain ⟨hminuteChars, hminuteBound⟩ := readDigits_sound hminute
    obtain ⟨hsecondChars, hsecondBound⟩ := readDigits_sound hsecond
    obtain ⟨hrest, hnanosBound⟩ := readFraction_sound hnanos
    have hcolon : ':'.toNat ≠ 0 := by decide
    refine ⟨?_, ?_⟩
    · simp only [List.forall_mem_cons] at hhourChars hminuteChars hsecondChars ⊢
      exact ⟨hhourChars.1, hhourChars.2.1, hcolon, hminuteChars.1, hminuteChars.2.1, hcolon,
        hsecondChars.1, hsecondChars.2.1, hrest⟩
    · simp only [List.length_cons, List.length_nil] at hhourBound hminuteBound hsecondBound
      omega
  · cases h

theorem parseInstant_sound {text : String} {instant : Instant}
    (h : parseInstant text = some instant) :
    containsNul text = false ∧ instant.dateNaive.days ≤ 4000005 := by
  unfold parseInstant at h
  obtain ⟨date, hdate, h⟩ := Option.bind_eq_some_iff.mp h
  obtain ⟨hdateChars, hdays⟩ := readDate_sound hdate
  split at h
  · rename_i rest hdrop
    obtain ⟨time, htime, h⟩ := Option.bind_eq_some_iff.mp h
    cases h
    obtain ⟨htimeChars, hbound⟩ := readTime_sound htime
    refine ⟨?_, ?_⟩
    · rw [containsNul_eq_false_iff, ← List.take_append_drop 10 text.toList, hdrop]
      intro c hc
      rcases List.mem_append.mp hc with hfirst | hc
      · exact hdateChars c hfirst
      · rcases List.mem_cons.mp hc with rfl | hc
        · decide
        · exact htimeChars c hc
    · simp only [Instant.dateNaive]
      rw [Int.fdiv_eq_ediv_of_nonneg _ (by decide)]
      omega
  · cases h

theorem fractionChars_ne_nul (nanos : Nat) : ∀ c ∈ fractionChars nanos, c.toNat ≠ 0 := by
  have hdigits := fun width n => digitChars_ne_nul (show 10 ≤ 16 by decide) (by decide) width n
  have hpoint : '.'.toNat ≠ 0 := by decide
  unfold fractionChars
  split
  · exact fun _ h => nomatch h
  · split
    · exact List.forall_mem_cons.mpr ⟨hpoint, hdigits _ _⟩
    · split
      · exact List.forall_mem_cons.mpr ⟨hpoint, hdigits _ _⟩
      · exact List.forall_mem_cons.mpr ⟨hpoint, hdigits _ _⟩

theorem instant_print (instant : Instant) :
    containsNul (Codecs.instant.render instant) = false := by
  have hdigits := fun width n => digitChars_ne_nul (show 10 ≤ 16 by decide) (by decide) width n
  rw [containsNul_eq_false_iff]
  intro c hc
  simp only [Codecs.instant, String.toList_ofList, instantChars, timeChars, List.mem_append,
    List.mem_cons] at hc
  rcases hc with (hc | rfl | ((hc | rfl | hc) | rfl | hc) | hc) | rfl | hc
  · exact dateChars_ne_nul _ c hc
  · decide
  · exact hdigits _ _ c hc
  · decide
  · exact hdigits _ _ c hc
  · decide
  · exact hdigits _ _ c hc
  · exact fractionChars_ne_nul _ c hc
  · decide
  · cases hc

end Codecs

/-- The environment of the concrete codecs, with the time zones of the tests and ASCII case. -/
def Env.utc : Env where
  uuid := Codecs.uuid
  date := Codecs.date
  instant := Codecs.instant
  dateColumn date := String.ofList (Codecs.dateChars date)
  instantColumn instant :=
    String.ofList (Codecs.instantChars ['+', '0', '0', ':', '0', '0'] instant)
  isTimezone name := ["Asia/Shanghai", "UTC"].contains name
  toLowercase text := String.ofList (text.toList.map Char.toLower)

example : Env.utc.date.parse "2026-10-21" = some ⟨20747⟩ := by decide

example : Env.utc.instantColumn ⟨1792558800123000000⟩ = "2026-10-21T05:00:00.123+00:00" := by
  decide

end ShishiTodo
