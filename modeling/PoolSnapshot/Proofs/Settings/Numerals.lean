import Mathlib.Algebra.Group.Nat.Defs
import PoolSnapshot.Settings.Source
import PoolSnapshot.Toml.Value
import PoolSnapshot.Proofs.Traverse

/-!
Plain numerals, digits and nothing else. A variable and a line of a file both give the number that the
digits say, as long as it has sixty-three bits.
-/
namespace PoolSnapshot

namespace Text

variable {ds : List Char}

theorem digits?_eq_some : digits? ds = some n ↔ ds ≠ [] ∧ (∀ c ∈ ds, c.isDigit) ∧ digitsValue ds = n := by
  rw [digits?]
  split
  · next h =>
    refine iff_of_false nofun fun ⟨nonempty, all, _⟩ => ?_
    rw [Bool.or_eq_true, List.isEmpty_iff, Bool.not_eq_true', ← Bool.not_eq_true, List.all_eq_true] at h
    exact h.elim nonempty (absurd all)
  · next h =>
    rw [Bool.or_eq_true, List.isEmpty_iff, Bool.not_eq_true', ← Bool.not_eq_true, List.all_eq_true, not_or,
      not_not] at h
    rw [Option.some_inj]
    exact ⟨fun e => ⟨h.1, h.2, e⟩, fun h => h.2.2⟩

/-- A character that is no digit is not the first one of a numeral. -/
theorem ne_of_digit {c d : Char} (digit : c.isDigit) (other : d.isDigit = false) : c ≠ d := by
  rintro rfl
  rw [digit] at other
  cases other

theorem integer?_eq_of_digits (h : digits? ds = some n) : integer? ds = some (Int.ofNat n) := by
  obtain ⟨some, all, -⟩ := digits?_eq_some.mp h
  cases ds with
  | nil => exact absurd rfl some
  | cons c ds =>
    have digit := all c List.mem_cons_self
    have natural : natural? (c :: ds) = Option.some n := by
      rw [natural?]
      · exact h
      · rintro _ ⟨⟩
        exact ne_of_digit digit (by decide) rfl
    rw [integer?, natural]
    · rfl
    · rintro _ ⟨⟩
      exact ne_of_digit digit (by decide) rfl

theorem toLower_of_digit {c : Char} (digit : c.isDigit) : c.toLower = c := by
  rw [Char.isDigit, Bool.and_eq_true, decide_eq_true_eq, decide_eq_true_eq] at digit
  refine dif_neg fun upper => ?_
  exact absurd (UInt32.le_trans upper.1 digit.2) (by decide)

end Text

/-- A natural number of sixty-three bits is a whole one of sixty-four with a sign. -/
theorem Text.within_of_lt (small : n < 2 ^ 63) :
    -Int.pow 2 63 ≤ Int.ofNat n ∧ Int.ofNat n < Int.pow 2 63 := by
  have bound : Int.pow 2 63 = 9223372036854775808 := rfl
  rw [bound, Int.ofNat_eq_natCast]
  omega

/-- A variable gives the number that its digits say. -/
theorem Environment.scalar_of_digits {s : String} (digits : Text.digits? s.toList = some n) (small : n < 2 ^ 63) :
    scalar s = .integer n := by
  obtain ⟨some, all, -⟩ := Text.digits?_eq_some.mp digits
  have word (w : String) (letter : (w.toList.headD '0').isDigit = false) : s.toLower ≠ w := by
    intro same
    have lists : s.toList.map Char.toLower = w.toList := by
      rw [← same]
      exact String.toList_map.symm
    cases first : s.toList with
    | nil => exact some first
    | cons c cs =>
      rw [first] at lists all
      have digit := all c List.mem_cons_self
      rw [← lists] at letter
      have other : c.toLower.isDigit = false := letter
      rw [Text.toLower_of_digit digit] at other
      exact absurd digit (by simp [other])
  have fits : (Text.integer? s.toList).filter (fun n => -Int.pow 2 63 ≤ n ∧ n < Int.pow 2 63) =
      Option.some (Int.ofNat n) := by
    rw [Text.integer?_eq_of_digits digits, Option.filter_some,
      if_pos (decide_eq_true (Text.within_of_lt small))]
  rw [scalar]
  split
  · next h => exact absurd h (word "true" (by decide))
  · next h => exact absurd h (word "false" (by decide))
  · rw [fits]
    rfl

namespace Toml

/-- What may stand behind a value. -/
def closers : List Char := [' ', '\t', '\n', '#', ',', ']', '\x7D']

/-- Digits up to the end of a value. -/
inductive Digital : List Char → Prop
  | nil : Digital []
  | close (m : c ∈ closers) : Digital (c :: s)
  | digit (digit : c.isDigit) (more : Digital s) : Digital (c :: s)

/-- Neither a digit nor the end of a value. -/
structure Strange (d : Char) : Prop where
  digit : d.isDigit = false
  closer : d ∉ closers

theorem digital_append (all : ∀ c ∈ ds, c.isDigit) (ends : ∀ c ∈ rest.head?, c ∈ closers) :
    Digital (ds ++ rest) := by
  induction ds with
  | nil =>
    cases rest with
    | nil => exact .nil
    | cons c rest => exact .close (ends c rfl)
  | cons c ds ih =>
    obtain ⟨digit, all⟩ := List.forall_mem_cons.mp all
    exact .digit digit (ih all)

theorem Digital.head_ne (h : Digital (c :: s)) (strange : Strange d) : c ≠ d := by
  rintro rfl
  cases h with
  | close m => exact strange.closer m
  | digit digit => exact Text.ne_of_digit digit strange.digit rfl

theorem Digital.ne_cons (h : Digital s) (strange : Strange d) : s ≠ d :: s' := by
  rintro rfl
  exact h.head_ne strange rfl

theorem isDigit_of_closer (m : c ∈ closers) : c.isDigit = false := by
  have none : closers.any Char.isDigit = false := by decide
  exact Bool.eq_false_iff.mpr (List.any_eq_false.mp none c m)

namespace Reader

variable {α β : Type}

theorem bind_apply (x : Reader α) (f : α → Reader β) (s : List Char) :
    (x >>= f) s = (x s).bind fun p => f p.1 p.2 := rfl

theorem get_apply (s : List Char) : (get : Reader (List Char)) s = some (s, s) := rfl

theorem discard_apply (x : Reader α) (s : List Char) :
    (discard x : Reader Unit) s = (x s).bind fun p => some ((), p.2) := rfl

theorem map_apply (f : α → β) (x : Reader α) (s : List Char) :
    (f <$> x) s = (x s).bind fun p => some (f p.1, p.2) := rfl

theorem orElse_apply (x y : Reader α) (s : List Char) : (x <|> y) s = (x s).orElse fun _ => y s := rfl

theorem pure_apply (a : α) (s : List Char) : (pure a : Reader α) s = some (a, s) := rfl

theorem eat_of_digital (h : Digital s) (strange : Strange d) : eat d s = some (false, s) := by
  cases s with
  | nil => rfl
  | cons c s => rw [eat, if_neg (h.head_ne strange)]

theorem expect_of_digital (h : Digital s) (strange : Strange d) : expect d s = none := by
  have miss : one (fun c => c = d) s = none := by
    cases s with
    | nil => rfl
    | cons c s => exact if_neg (by simpa using h.head_ne strange)
  rw [expect, discard_apply, miss]
  rfl

/-- Behind some digits there are more, or the end. -/
theorem digital_of_count (h : Digital s) (taken : count n Char.isDigit s = some (ds, s')) : Digital s' := by
  induction n generalizing s ds with
  | zero =>
    cases taken
    exact h
  | succ n ih =>
    obtain ⟨⟨c, s₁⟩, first, taken⟩ := Option.bind_eq_some_iff.mp taken
    obtain ⟨⟨ds₁, s₂⟩, rest, ⟨⟩⟩ := Option.bind_eq_some_iff.mp taken
    refine ih ?_ rest
    cases h with
    | nil => cases first
    | close m =>
      rw [one, isDigit_of_closer m] at first
      cases first
    | digit digit more =>
      rw [one, if_pos digit] at first
      cases first
      exact more

/-- A reader that stops among digits is not followed by another mark. -/
theorem bind_expect_eq_none {x : Reader α} {k : α → Unit → Reader β} (strange : Strange d)
    (stops : ∀ a s', x s = some (a, s') → Digital s') : (x >>= fun a => expect d >>= k a) s = none := by
  rw [bind_apply]
  cases h : x s with
  | none => rfl
  | some p =>
    rw [Option.bind_some, bind_apply, expect_of_digital (stops p.1 p.2 h) strange]
    rfl

end Reader

open Reader

theorem digital_of_two (h : Digital s) (taken : Moment.two lo hi s = some (ds, s')) : Digital s' := by
  obtain ⟨⟨ds', s₁⟩, first, taken⟩ := Option.bind_eq_some_iff.mp taken
  dsimp only at taken
  by_cases within : Moment.isWithin lo hi ds'
  · rw [if_pos within] at taken
    cases taken
    exact digital_of_count h first
  · rw [if_neg within] at taken
    cases taken

/-- Digits alone are no date and no time of day. -/
theorem Moment.any_of_digital (h : Digital s) : Moment.any s = none := by
  have date : Moment.date s = none :=
    bind_expect_eq_none ⟨by decide, by decide⟩ fun _ _ => digital_of_count h
  have time : Moment.time s = none :=
    bind_expect_eq_none ⟨by decide, by decide⟩ fun _ _ => digital_of_two h
  have dated : Moment.dated s = none := by
    rw [Moment.dated, bind_apply, date]
    rfl
  rw [Moment.any, map_apply, orElse_apply, dated, time]
  rfl

namespace Number

variable {ds rest : List Char}

theorem group_digits (all : ∀ c ∈ ds, c.isDigit) (ends : ∀ c ∈ rest.head?, c ∈ closers) :
    group Char.isDigit (ds ++ rest) = (ds, rest) := by
  induction ds with
  | nil =>
    cases rest with
    | nil => rfl
    | cons c rest =>
      have m := ends c rfl
      rw [List.nil_append, group, if_neg]
      · simp [isDigit_of_closer m]
      · rintro _ _ ⟨⟩
        exact absurd m (by decide)
  | cons c ds ih =>
    obtain ⟨digit, all⟩ := List.forall_mem_cons.mp all
    rw [List.cons_append, group, if_pos digit, ih all]
    rintro _ _ ⟨⟩
    exact absurd digit (by decide)

theorem digits_of_all (some : ds ≠ []) (all : ∀ c ∈ ds, c.isDigit) (ends : ∀ c ∈ rest.head?, c ∈ closers) :
    digits Char.isDigit (ds ++ rest) = Option.some (ds, rest) := by
  cases ds with
  | nil => exact absurd rfl some
  | cons c ds =>
    obtain ⟨digit, all⟩ := List.forall_mem_cons.mp all
    have first : one Char.isDigit (c :: ds ++ rest) = Option.some (c, ds ++ rest) := if_pos digit
    rw [digits, bind_apply, first, Option.bind_some, bind_apply]
    simp only [group_digits all ends]
    rfl

theorem exponent?_of_digital (h : Digital s) : exponent? s = some (none, s) := by
  rw [exponent?, bind_apply, get_apply, Option.bind_some]
  dsimp only
  split
  · exact absurd rfl (h.head_ne ⟨by decide, by decide⟩)
  · exact absurd rfl (h.head_ne ⟨by decide, by decide⟩)
  · rfl

theorem bounded_of_lt (small : n < 2 ^ 63) (s : List Char) :
    bounded (Int.ofNat n) s = some (.integer n, s) := by
  rw [bounded, if_pos (Text.within_of_lt small)]
  rfl

theorem decimal_of_digits (digits : Text.digits? ds = some n) (first : ds.length = 1 ∨ ds.head? ≠ some '0')
    (small : n < 2 ^ 63) (ends : ∀ c ∈ rest.head?, c ∈ closers) :
    decimal false (ds ++ rest) = some (.integer n, rest) := by
  obtain ⟨some, all, rfl⟩ := Text.digits?_eq_some.mp digits
  have stop : Digital rest := digital_append (List.forall_mem_nil _) ends
  have plain : ¬(ds.length ≠ 1 && ds.head? = Option.some '0') = true := by
    simpa [or_iff_not_imp_left] using first
  have point : eat '.' rest = Option.some (false, rest) := eat_of_digital stop ⟨by decide, by decide⟩
  have exponent := exponent?_of_digital stop
  have fits := bounded_of_lt small rest
  rw [decimal]
  simp only [bind_apply, digits_of_all some all ends, Option.bind_some, if_neg plain, point, pure_apply,
    Bool.false_eq_true, if_false]
  -- the bounds of a whole number are not to be computed
  generalize exponent? = reader at exponent ⊢
  generalize bounded = bounded at fits ⊢
  rw [exponent, Option.bind_some]
  exact fits

/-- A numeral in a file gives the number that its digits say. -/
theorem any_of_digits (digits : Text.digits? ds = some n) (first : ds.length = 1 ∨ ds.head? ≠ some '0')
    (small : n < 2 ^ 63) (ends : ∀ c ∈ rest.head?, c ∈ closers) :
    any (ds ++ rest) = some (.integer n, rest) := by
  obtain ⟨some, all, -⟩ := Text.digits?_eq_some.mp digits
  have whole : Digital (ds ++ rest) := digital_append all ends
  have plus : eat '+' (ds ++ rest) = Option.some (false, ds ++ rest) := eat_of_digital whole ⟨by decide, by decide⟩
  have minus : eat '-' (ds ++ rest) = Option.some (false, ds ++ rest) := eat_of_digital whole ⟨by decide, by decide⟩
  have read := decimal_of_digits digits first small ends
  have based {d : Char} {s : List Char} (strange : Strange d) : ds ++ rest ≠ '0' :: d :: s := by
    intro same
    rw [same] at whole
    cases whole with
    | close m => exact absurd m (by decide)
    | digit _ more => exact more.head_ne strange rfl
  rw [any]
  generalize ds ++ rest = s at whole plus minus read based ⊢
  simp only [bind_apply, discard_apply, get_apply, Option.bind_some, plus]
  split
  · exact absurd rfl (based ⟨by decide, by decide⟩)
  · exact absurd rfl (based ⟨by decide, by decide⟩)
  · exact absurd rfl (based ⟨by decide, by decide⟩)
  · simp only [bind_apply, get_apply, Option.bind_some, minus]
    split
    · exact absurd rfl (whole.ne_cons ⟨by decide, by decide⟩)
    · exact absurd rfl (whole.ne_cons ⟨by decide, by decide⟩)
    · exact read

end Number

/-- What the digits say is what stands in the file. -/
theorem leaf_of_digits {ds rest : List Char} (digits : Text.digits? ds = some n)
    (first : ds.length = 1 ∨ ds.head? ≠ some '0') (small : n < 2 ^ 63)
    (ends : ∀ c ∈ rest.head?, c ∈ closers) : leaf (ds ++ rest) = some (.leaf (.integer n), rest) := by
  obtain ⟨some, all, -⟩ := Text.digits?_eq_some.mp digits
  have whole : Digital (ds ++ rest) := digital_append all ends
  have number := Number.any_of_digits digits first small ends
  have moment := Moment.any_of_digital whole
  have nonempty : ds ++ rest ≠ [] := by simp [some]
  rw [leaf]
  generalize ds ++ rest = s at whole number moment nonempty ⊢
  rw [bind_apply, get_apply, Option.bind_some]
  dsimp only
  split
  · exact absurd rfl (whole.ne_cons ⟨by decide, by decide⟩)
  · exact absurd rfl (whole.ne_cons ⟨by decide, by decide⟩)
  · next c s _ _ =>
    have double : c ≠ '"' := whole.head_ne ⟨by decide, by decide⟩
    have single : c ≠ '\x27' := whole.head_ne ⟨by decide, by decide⟩
    have unmarked : ¬Quote.isMark c = true := by simp [Quote.isMark, double, single]
    rw [if_neg unmarked, orElse_apply, map_apply, moment, map_apply, number]
    rfl
  · exact absurd rfl nonempty

end Toml

end PoolSnapshot
