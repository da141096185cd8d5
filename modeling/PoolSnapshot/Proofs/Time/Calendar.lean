import PoolSnapshot.Proofs.Text.Figures
import PoolSnapshot.Text.Split
import PoolSnapshot.Time.Timestamp

/-!
Dates counted back to days, and times read back from their text. A year that begins in March has its leap day
last, so that the days before it depend on its number alone.
-/
namespace PoolSnapshot

namespace Date

/-- Days since 1970: of the years before, counted from March, of the months before and of the days before. -/
def toDays (d : Date) : Nat :=
  let year := if d.month < 3 then d.year - 1 else d.year
  let month := if d.month < 3 then d.month + 9 else d.month - 3
  365 * year + year / 4 - year / 100 + year / 400 + (153 * month + 2) / 5 + (d.day - 1) - epoch

/-- The `t`-th day of a year that begins in March. -/
def ofYear (year t : Nat) : Date :=
  let month := (5 * t + 2) / 153
  { year := if month < 10 then year else year + 1
    month := if month < 10 then month + 3 else month - 9
    day := t - (153 * month + 2) / 5 + 1 }

theorem exists_ofYear (n : Nat) : ∃ cycle century quad single t,
    century ≤ 3 ∧ quad ≤ 24 ∧ single ≤ 3 ∧ t ≤ 365 ∧
    n + epoch = 146097 * cycle + 36524 * century + 1461 * quad + 365 * single + t ∧
    ofDays n = ofYear (400 * cycle + 100 * century + 4 * quad + single) t := by
  refine ⟨_, _, _, _, _, ?_, ?_, ?_, ?_, ?_, rfl⟩
  all_goals omega

theorem days_before {cycle century quad single : Nat} (e : century ≤ 3) (q : quad ≤ 24) (s : single ≤ 3) :
    let year := 400 * cycle + 100 * century + 4 * quad + single
    365 * year + year / 4 - year / 100 + year / 400 =
      146097 * cycle + 36524 * century + 1461 * quad + 365 * single := by
  intro year
  omega

theorem toDays_ofYear {year t : Nat} (within : t ≤ 365) :
    (ofYear year t).toDays = 365 * year + year / 4 - year / 100 + year / 400 + t - epoch := by
  have before : (153 * ((5 * t + 2) / 153) + 2) / 5 ≤ t := by omega
  by_cases early : (5 * t + 2) / 153 < 10
  · have later : ¬(5 * t + 2) / 153 + 3 < 3 := by omega
    simp only [ofYear, toDays, if_pos early, if_neg later, Nat.add_sub_cancel]
    omega
  · have first : (5 * t + 2) / 153 - 9 < 3 := by omega
    have month : (5 * t + 2) / 153 - 9 + 9 = (5 * t + 2) / 153 := by omega
    simp only [ofYear, toDays, if_neg early, if_pos first, month, Nat.add_sub_cancel]
    omega

/-- No day is lost or doubled where a year, a leap period, a century or a cycle ends. -/
theorem toDays_ofDays (n : Nat) : (ofDays n).toDays = n := by
  obtain ⟨cycle, century, quad, single, t, e, q, s, within, parts, date⟩ := exists_ofYear n
  rw [date, toDays_ofYear within, days_before e q s, ← parts, Nat.add_sub_cancel]

theorem month_day_le (n : Nat) : (ofDays n).month ≤ 12 ∧ (ofDays n).day ≤ 31 := by
  obtain ⟨cycle, century, quad, single, t, -, -, -, within, -, date⟩ := exists_ofYear n
  rw [date]
  constructor
  · simp only [ofYear]
    split <;> omega
  · simp only [ofYear]
    omega

/-- A year of four digits, or a longer one with its sign. -/
def year? : List Char → Option Nat
  | '+' :: ds => if 4 < ds.length ∧ Text.Minimal ds then Text.digits? ds else none
  | ds => if ds.length = 4 then Text.digits? ds else none

theorem year?_yearText (y : Nat) : year? (yearText y) = some y := by
  rw [yearText]
  split
  · next short =>
    have four : (Text.padded 4 y).length = 4 := Text.length_padded (by decide) short
    rw [year?, if_pos four, Text.digits?_padded]
    intro ds signed
    exact Text.not_mem_padded (c := '+') (by decide) 4 y (signed ▸ List.mem_cons_self)
  · next long =>
    obtain ⟨digits, more⟩ := Text.padded_of_le (by decide : 0 < 4) (Nat.le_of_not_lt long)
    rw [year?, digits, if_pos ⟨more, Text.minimal_toDigits (by decide) (by decide) y⟩, Text.digits?_toDigits]

theorem dash_not_mem_yearText (y : Nat) : '-' ∉ yearText y := by
  have digits (width : Nat) := Text.not_mem_padded (c := '-') (by decide) width y
  rw [yearText]
  split
  · exact digits 4
  · rw [List.mem_cons, not_or]
    exact ⟨by decide, digits 5⟩

end Date

theorem Text.cutFirst_append {sep : Char} {s : List Char} (none : sep ∉ s) (t : List Char) :
    cutFirst (· = sep) (s ++ sep :: t) = some (s, t) := by
  have before : ∀ c ∈ s, (!decide (c = sep)) = true := by
    intro c m
    have other : c ≠ sep := fun same => none (same ▸ m)
    simp [other]
  have here : ¬(!decide (sep = sep)) = true := by simp
  have rest : (s ++ sep :: t).dropWhile (fun c => !decide (c = sep)) = sep :: t := by
    rw [List.dropWhile_append_of_pos before]
    exact List.dropWhile_cons_of_neg here
  have front : (s ++ sep :: t).takeWhile (fun c => !decide (c = sep)) = s := by
    rw [List.takeWhile_append_of_pos before]
    exact (congrArg (s ++ ·) (List.takeWhile_cons_of_neg here)).trans (List.append_nil s)
  rw [cutFirst, rest, front]

namespace Timestamp

/-- The time that a text of the usual form says. -/
def ofText? (s : String) : Option Timestamp :=
  match Text.cutFirst (· = '-') s.toList with
  | some (year, [m, m', '-', d, d', 'T', h, h', ':', n, n', ':', s, s', 'Z']) => do
    let date : Date := ⟨← Date.year? year, ← Text.digits? [m, m'], ← Text.digits? [d, d']⟩
    let hour ← Text.digits? [h, h']
    let minute ← Text.digits? [n, n']
    let second ← Text.digits? [s, s']
    return ⟨86400 * date.toDays + 3600 * hour + 60 * minute + second⟩
  | _ => none

theorem ofText?_text (t : Timestamp) : ofText? t.text = some t := by
  obtain ⟨monthLe, dayLe⟩ := Date.month_day_le (t.seconds / 86400)
  obtain ⟨m, m', months, month⟩ := Text.exists_padded_two (n := (Date.ofDays (t.seconds / 86400)).month) (by omega)
  obtain ⟨d, d', days, day⟩ := Text.exists_padded_two (n := (Date.ofDays (t.seconds / 86400)).day) (by omega)
  obtain ⟨h, h', hours, hour⟩ := Text.exists_padded_two (n := t.seconds % 86400 / 3600) (by omega)
  obtain ⟨n, n', minutes, minute⟩ := Text.exists_padded_two (n := t.seconds % 86400 / 60 % 60) (by omega)
  obtain ⟨s, s', seconds, second⟩ := Text.exists_padded_two (n := t.seconds % 86400 % 60) (by omega)
  have written : t.text.toList = Date.yearText (Date.ofDays (t.seconds / 86400)).year ++
      '-' :: [m, m', '-', d, d', 'T', h, h', ':', n, n', ':', s, s', 'Z'] := by
    rw [text, String.toList_ofList, Date.text, months, days, hours, minutes, seconds]
    simp
  have clock : 86400 * (t.seconds / 86400) + 3600 * (t.seconds % 86400 / 3600) +
      60 * (t.seconds % 86400 / 60 % 60) + t.seconds % 86400 % 60 = t.seconds := by
    omega
  rw [ofText?, written, Text.cutFirst_append (Date.dash_not_mem_yearText _)]
  simp only [Date.year?_yearText, month, day, hour, minute, second, Option.bind_eq_bind, Option.bind_some]
  change some (mk (86400 * (Date.ofDays (t.seconds / 86400)).toDays + _ + _ + _)) = some t
  rw [Date.toDays_ofDays, clock]

example : text ⟨latest⟩ = "+262142-12-31T23:59:59Z" := by decide +kernel

end Timestamp

end PoolSnapshot
