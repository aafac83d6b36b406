/-
# RFC 3339 timestamps

Programs that keep instants as text go through a codec: a formatter with second
precision and a parser.  Nothing is assumed of a codec beyond what the grammar
says about the first character: a date starts with a digit, and a formatter may
put a sign before years that do not fit four digits.  `standard` is a codec for
the UTC form `YYYY-MM-DDThh:mm:ssZ`.
-/

import GitEventsRunner.Lib.SystemTime

namespace GitEventsRunner.Lib

namespace SystemTime

/-- The instant without its fraction of a second. -/
def truncate (t : SystemTime) : SystemTime := t / nanosPerSec * nanosPerSec

end SystemTime

namespace Rfc3339

/-- A formatter with second precision and a parser. -/
structure Codec where
  format : SystemTime → String
  parse : String → Option SystemTime
  format_head : ∀ t, ∃ c rest, (format t).toList = c :: rest ∧
    (c.isDigit = true ∨ c = '+' ∨ c = '-')
  parse_head : ∀ text t, parse text = some t → ∃ c rest, text.toList = c :: rest ∧
    c.isDigit = true

/-! ## The civil calendar -/

/-- Year, month and day of the day with the given number since the epoch. -/
def civilFromDays (days : ℤ) : ℤ × ℕ × ℕ :=
  let z := days + 719468
  let era := z / 146097
  let dayOfEra := z % 146097
  let yearOfEra := (dayOfEra - dayOfEra / 1460 + dayOfEra / 36524 - dayOfEra / 146096) / 365
  let dayOfYear := dayOfEra - (365 * yearOfEra + yearOfEra / 4 - yearOfEra / 100)
  let shifted := (5 * dayOfYear + 2) / 153
  let day := dayOfYear - (153 * shifted + 2) / 5 + 1
  let month := if shifted < 10 then shifted + 3 else shifted - 9
  let year := yearOfEra + era * 400 + (if month ≤ 2 then 1 else 0)
  (year, month.toNat, day.toNat)

/-- The number since the epoch of a day of the civil calendar. -/
def daysFromCivil (year : ℤ) (month day : ℕ) : ℤ :=
  let y := if month ≤ 2 then year - 1 else year
  let era := y / 400
  let yearOfEra := y % 400
  let shifted : ℤ := if 2 < month then month - 3 else month + 9
  let dayOfYear := (153 * shifted + 2) / 5 + day - 1
  let dayOfEra := yearOfEra * 365 + yearOfEra / 4 - yearOfEra / 100 + dayOfYear
  era * 146097 + dayOfEra - 719468

/-! ## Text -/

/-- The last `width` decimal digits of a number. -/
def pad : ℕ → ℕ → List Char
  | 0, _ => []
  | width + 1, n => pad width (n / 10) ++ [Nat.digitChar (n % 10)]

/-- A year; a sign marks the years that do not have four digits. -/
def formatYear (year : ℤ) : List Char :=
  if 0 ≤ year ∧ year ≤ 9999 then Nat.digitChar (year.toNat / 1000 % 10) :: pad 3 year.toNat
  else (if 0 ≤ year then '+' else '-') ::
    (if year.natAbs ≤ 9999 then pad 4 year.natAbs else Nat.toDigits 10 year.natAbs)

/-- The UTC text of an instant. -/
def formatChars (t : SystemTime) : List Char :=
  let seconds := t / nanosPerSec
  let (year, month, day) := civilFromDays (seconds / 86400)
  let clock := (seconds % 86400).toNat
  formatYear year ++ '-' :: pad 2 month ++ '-' :: pad 2 day ++ 'T' :: pad 2 (clock / 3600) ++
    ':' :: pad 2 (clock / 60 % 60) ++ ':' :: pad 2 (clock % 60) ++ ['Z']

/-- The value of a run of digits, if that is what it is. -/
def number (digits : List Char) : Option ℕ :=
  if digits.all Char.isDigit then
    some (digits.foldl (fun n c => 10 * n + (c.toNat - 48)) 0)
  else none

/-- The instant of a UTC text. -/
def parseChars : List Char → Option SystemTime
  | [y₁, y₂, y₃, y₄, '-', m₁, m₂, '-', d₁, d₂, 'T', h₁, h₂, ':', i₁, i₂, ':', s₁, s₂, 'Z'] => do
      let year ← number [y₁, y₂, y₃, y₄]
      let month ← number [m₁, m₂]
      let day ← number [d₁, d₂]
      let hour ← number [h₁, h₂]
      let minute ← number [i₁, i₂]
      let second ← number [s₁, s₂]
      let days := daysFromCivil year month day
      if civilFromDays days = (↑year, month, day) ∧ hour < 24 ∧ minute < 60 ∧ second < 60 then
        some ((days * 86400 + hour * 3600 + minute * 60 + second) * nanosPerSec)
      else none
  | _ => none

theorem formatYear_head (year : ℤ) : ∃ c rest, formatYear year = c :: rest ∧
    (c.isDigit = true ∨ c = '+' ∨ c = '-') := by
  have hdigit : ∀ n < 10, (Nat.digitChar n).isDigit = true := by decide
  unfold formatYear
  split
  · exact ⟨_, _, rfl, Or.inl (hdigit _ (Nat.mod_lt _ (by decide)))⟩
  · refine ⟨_, _, rfl, Or.inr ?_⟩
    split
    · exact Or.inl rfl
    · exact Or.inr rfl

theorem number_head {c : Char} {digits : List Char} {n : ℕ}
    (h : number (c :: digits) = some n) : c.isDigit = true := by
  unfold number at h
  split at h
  · have hall : (c :: digits).all Char.isDigit = true := ‹_›
    simp only [List.all_cons, Bool.and_eq_true] at hall
    exact hall.1
  · cases h

/-- The codec of the UTC form. -/
def standard : Codec where
  format t := String.ofList (formatChars t)
  parse text := parseChars text.toList
  format_head t := by
    obtain ⟨c, rest, hyear, hc⟩ := formatYear_head (civilFromDays (t / nanosPerSec / 86400)).1
    obtain ⟨tail, htail⟩ : ∃ tail, formatChars t =
        formatYear (civilFromDays (t / nanosPerSec / 86400)).1 ++ tail := by
      simp only [formatChars, List.append_assoc]
      exact ⟨_, rfl⟩
    refine ⟨c, rest ++ tail, ?_, hc⟩
    rw [String.toList_ofList, htail, hyear, List.cons_append]
  parse_head text t h := by
    unfold parseChars at h
    split at h
    · simp only [Option.bind_eq_bind, Option.bind_eq_some_iff] at h
      obtain ⟨year, hyear, -⟩ := h
      exact ⟨_, _, ‹_›, number_head hyear⟩
    · cases h

/-- A leap day, there and back. -/
example : standard.format (1709210096 * 1000000000) = "2024-02-29T12:34:56Z" ∧
    standard.parse "2024-02-29T12:34:56Z" = some (1709210096 * 1000000000) := by
  decide

end Rfc3339

end GitEventsRunner.Lib
