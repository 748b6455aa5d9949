import Mathlib.Data.List.TakeDrop
import ScopedWhile.Number.Basic
import ScopedWhile.Proofs.Number.Rounding

/-!
Reading the texts of doubles. Decimals of one value read as one rank, the shortest decimal of a rank
reads as it, and so the text in which a finite double is displayed reads as that double, except
that negative zero, which is displayed as zero, reads as zero.
-/

namespace ScopedWhile

namespace Decimal
open Binary64

-----------------------------------------------------------------------------------------
-- Ranks of decimals
-----------------------------------------------------------------------------------------

/-- The rank nearest to a decimal, without the short cuts for extreme exponents. -/
def exactRank (d : Decimal) : Nat :=
  nearestRank (d.digits * Nat.pow 10 d.exponent.toNat * unitsPerOne)
    (Nat.pow 10 (-d.exponent).toNat)

theorem pow_ten_pos (n : Nat)
    : 0 < Nat.pow 10 n :=
  Nat.pow_pos (by decide)

theorem pow_ten_add (m n : Nat)
    : Nat.pow 10 m * Nat.pow 10 n = Nat.pow 10 (m + n) :=
  (Nat.pow_add 10 m n).symm

theorem pow_ten_le {m n : Nat} (le : m ≤ n)
    : Nat.pow 10 m ≤ Nat.pow 10 n :=
  Nat.pow_le_pow_right (by decide) le

/-- Zero has the rank zero under every exponent. -/
theorem exactRank_zero (exponent : Int)
    : exactRank ⟨0, exponent⟩ = 0 := by
  apply nearestRank_small
  rw [Nat.zero_mul, Nat.zero_mul]
  exact pow_ten_pos _

/-- A decimal of a rank other than zero has digits. -/
theorem digits_ne_zero {d : Decimal} (nonzero : d.exactRank ≠ 0)
    : d.digits ≠ 0 := by
  obtain ⟨digits, exponent⟩ := d
  rintro rfl
  exact nonzero (exactRank_zero exponent)

/-- A decimal that is small enough is nearest to zero. -/
theorem exactRank_small {d : Decimal} (tiny : d.exponent + d.digits.log2 < -340)
    : d.exactRank = 0 := by
  obtain ⟨digits, exponent⟩ := d
  simp only at tiny
  apply nearestRank_small
  have whole : exponent.toNat = 0 := by omega
  obtain ⟨places, units, scale⟩ : ∃ places, 4 * unitsPerOne ≤ Nat.pow 10 places
      ∧ digits.log2 + places ≤ (-exponent).toNat := ⟨341, by decide +kernel, by omega⟩
  have bound : digits < Nat.pow 2 (digits.log2 + 1) := Nat.lt_log2_self
  have split : Nat.pow 2 (digits.log2 + 1) = Nat.pow 2 digits.log2 * 2 := rfl
  have powers : Nat.pow 2 digits.log2 ≤ Nat.pow 10 digits.log2 :=
    Nat.pow_le_pow_left (by decide) _
  have one : Nat.pow 10 exponent.toNat = 1 := by rw [whole]
  simp only [one, Nat.mul_one]
  calc 2 * (digits * unitsPerOne)
      = digits * (2 * unitsPerOne) := Nat.mul_left_comm 2 digits unitsPerOne
    _ < Nat.pow 2 digits.log2 * 2 * (2 * unitsPerOne) := by
        rw [← split]
        exact Nat.mul_lt_mul_of_pos_right bound (by decide +kernel)
    _ = Nat.pow 2 digits.log2 * (4 * unitsPerOne) := by
        rw [Nat.mul_assoc, ← Nat.mul_assoc 2 2]
    _ ≤ Nat.pow 10 digits.log2 * Nat.pow 10 places := Nat.mul_le_mul powers units
    _ = Nat.pow 10 (digits.log2 + places) := pow_ten_add digits.log2 places
    _ ≤ Nat.pow 10 (-exponent).toNat := pow_ten_le scale

/-- A decimal with a large exponent is beyond all finite doubles. -/
theorem exactRank_large {d : Decimal} (nonzero : d.digits ≠ 0) (huge : 310 < d.exponent)
    : rankLimit ≤ d.exactRank := by
  obtain ⟨digits, exponent⟩ := d
  simp only at nonzero huge
  have one : Nat.pow 10 (-exponent).toNat = 1 := by
    have none : (-exponent).toNat = 0 := by omega
    rw [none]
  obtain ⟨places, limit, large⟩ : ∃ places, magnitude rankLimit ≤ Nat.pow 10 places * unitsPerOne
      ∧ places ≤ exponent.toNat := ⟨311, by decide +kernel, by omega⟩
  rw [exactRank]
  apply (isNearest_nearestRank _ (pow_ten_pos _)).ge_of_magnitude_le (pow_ten_pos _)
  rw [one, Nat.mul_one]
  calc magnitude rankLimit
      ≤ Nat.pow 10 places * unitsPerOne := limit
    _ ≤ Nat.pow 10 exponent.toNat * unitsPerOne := Nat.mul_le_mul_right _ (pow_ten_le large)
    _ ≤ digits * Nat.pow 10 exponent.toNat * unitsPerOne :=
        Nat.mul_le_mul_right _ (Nat.le_mul_of_pos_left _ (Nat.pos_of_ne_zero nonzero))

/-- The short cuts agree with rounding: where they apply, rounding gives zero or is out of range. -/
theorem rank_eq_exactRank (d : Decimal)
    : d.rank = d.exactRank ∨ d.rank = rankLimit ∧ rankLimit ≤ d.exactRank := by
  unfold rank
  split
  next tiny =>
    rcases tiny with zero | tiny
    · obtain ⟨digits, exponent⟩ := d
      obtain rfl : digits = 0 := zero
      exact Or.inl (exactRank_zero exponent).symm
    · exact Or.inl (exactRank_small tiny).symm
  next ordinary =>
    split
    next huge =>
      exact Or.inr ⟨rfl, exactRank_large (fun zero => ordinary (Or.inl zero)) huge⟩
    next =>
      left
      obtain ⟨digits, exponent⟩ := d
      cases exponent with
      | ofNat e =>
          have none : (-Int.ofNat e).toNat = 0 := by
            rw [Int.ofNat_eq_natCast]
            omega
          simp only [exactRank, none]
          rfl
      | negSucc e =>
          have none : (Int.negSucc e).toNat = 0 := rfl
          have one : Nat.pow 10 0 = 1 := rfl
          simp only [exactRank, none, one, Nat.mul_one]
          rfl

/-- Zeros at the end of the digits count as powers of ten. -/
theorem exactRank_shift (digits k : Nat) (exponent : Int)
    : exactRank ⟨digits * Nat.pow 10 k, exponent⟩ = exactRank ⟨digits, exponent + k⟩ := by
  apply nearestRank_congr (pow_ten_pos _) (pow_ten_pos _)
  have powers : Nat.pow 10 k * Nat.pow 10 exponent.toNat * Nat.pow 10 (-(exponent + k)).toNat
      = Nat.pow 10 (exponent + k).toNat * Nat.pow 10 (-exponent).toNat := by
    rw [pow_ten_add, pow_ten_add, pow_ten_add]
    congr 1
    omega
  have regroup (a b c unit d : Nat) : a * b * c * unit * d = a * unit * (b * c * d) := by
    ac_rfl
  have restore (a b unit d : Nat) : a * unit * (b * d) = a * b * unit * d := by
    ac_rfl
  rw [regroup, powers, restore]

/-- A whole number has the rank nearest to its units. -/
theorem exactRank_nat (n : Nat)
    : exactRank ⟨n, 0⟩ = nearestRank (n * unitsPerOne) 1 := by
  have one : Nat.pow 10 (0 : Int).toNat = 1 := rfl
  rw [exactRank]
  dsimp only
  rw [Int.neg_zero, one, Nat.mul_one]

/-- The exact decimal of a rank reads as the rank. -/
theorem exactRank_exact (rank : Nat)
    : (exact rank).exactRank = rank := by
  have reduced (places : Nat)
      : nearestRank (magnitude rank * Nat.pow 5 places * Nat.pow 2 places) (Nat.pow 10 places)
        = rank := by
    have powers : Nat.pow 10 places = Nat.pow 5 places * Nat.pow 2 places := Nat.mul_pow 5 2 places
    refine Eq.trans ?_ (nearestRank_magnitude rank)
    apply nearestRank_congr (pow_ten_pos _) Nat.one_pos
    rw [powers, Nat.mul_one, Nat.mul_assoc]
  have one : Nat.pow 10 (-1074 : Int).toNat = 1 := rfl
  rw [exactRank, exact, one, Nat.mul_one]
  exact reduced 1074

/-- What is found on a grid reads as the rank it was searched for. -/
theorem rank_of_onGrid? {rank : Nat} {exponent : Int} {d : Decimal}
    (found : onGrid? rank exponent = some d)
    : d.rank = rank := by
  obtain ⟨digits, -, chosen⟩ := List.exists_of_findSome?_eq_some found
  split at chosen
  next same =>
    obtain rfl := Option.some.inj chosen
    exact same
  next => nomatch chosen

/-- The shortest decimal reads as the rank it was found for. -/
theorem exactRank_shortest {rank : Nat} (range : rank < rankLimit)
    : (shortest rank).exactRank = rank := by
  unfold shortest
  dsimp only
  generalize leadingExponent (magnitude rank) unitsPerOne = lead
  cases found : (List.range 17).findSome? fun (n : Nat) => onGrid? rank (lead - n) with
  | none => exact exactRank_exact rank
  | some d =>
      obtain ⟨n, -, onGrid⟩ := List.exists_of_findSome?_eq_some found
      have reads := rank_of_onGrid? onGrid
      show d.exactRank = rank
      rcases rank_eq_exactRank d with same | ⟨limit, -⟩
      · rw [← same, reads]
      · omega

/-- The short cuts for extreme exponents do not change the double that is read. -/
theorem toBinary64_eq_ofRank (d : Decimal) (negative : Bool)
    : d.toBinary64 negative = ofRank negative d.exactRank := by
  rcases rank_eq_exactRank d with same | ⟨limit, beyond⟩
  · rw [toBinary64, same]
  · rw [toBinary64, limit, ofRank, ofRank, dif_neg (Nat.lt_irrefl _), dif_neg (Nat.not_lt.mpr beyond)]

/-- A decimal of a finite rank reads as the double of this rank. -/
theorem toBinary64_eq_finite {d : Decimal} {rank : Fin rankLimit} (reads : d.exactRank = rank)
    (negative : Bool)
    : d.toBinary64 negative = .finite negative rank := by
  rw [toBinary64_eq_ofRank, reads, ofRank, dif_pos rank.isLt]

end Decimal

-----------------------------------------------------------------------------------------
-- Digits
-----------------------------------------------------------------------------------------

/-- Digits that a reader takes as the whole part of a numeral: no zero in front of others. -/
inductive IsWhole : List Char → Prop where
  | zero : IsWhole ['0']
  | digits {first : Char} {others : List Char} (nonzero : first ≠ '0')
      (all : ∀ c ∈ first :: others, c.isDigit) : IsWhole (first :: others)

namespace Numeral

theorem natOf_eq (digits : List Char)
    : natOf digits = Nat.ofDigitChars 10 digits 0 := by
  simp only [natOf, Nat.ofDigitChars_eq_foldl, Nat.mul_comm]

/-- The number spelled by digits in a row, by the decimal places of the later ones. -/
theorem natOf_append (digits more : List Char)
    : natOf (digits ++ more) = natOf digits * Nat.pow 10 more.length + natOf more := by
  simp only [natOf_eq]
  rw [Nat.ofDigitChars_append, Nat.ofDigitChars_eq_ofDigitChars_zero, Nat.mul_comm]
  rfl

/-- Zeros spell zero. -/
theorem natOf_zeros (count : Nat)
    : natOf (List.replicate count '0') = 0 := by
  rw [natOf_eq, Nat.ofDigitChars_replicate_zero, Nat.mul_zero]

/-- The digits of a number spell the number. -/
theorem natOf_digitsOf (n : Nat)
    : natOf (Decimal.digitsOf n) = n := by
  rw [natOf_eq, Decimal.digitsOf, Nat.ofDigitChars_ten_toDigits]

theorem digitsOf_isDigit {n : Nat} {c : Char} (member : c ∈ Decimal.digitsOf n)
    : c.isDigit :=
  Nat.isDigit_of_mem_toDigits (by decide) (by decide) member

theorem digitsOf_ne_nil (n : Nat)
    : Decimal.digitsOf n ≠ [] :=
  Nat.toDigits_ne_nil

/-- The first digit of a positive number is not zero. -/
theorem head_digitsOf {n : Nat} (pos : 0 < n)
    : ∃ first others, Decimal.digitsOf n = first :: others ∧ first ≠ '0' := by
  induction n using Nat.strongRecOn with
  | ind n ih =>
      rw [Decimal.digitsOf, Nat.toDigits_eq_if (by decide)]
      split
      next small =>
        refine ⟨_, [], rfl, ?_⟩
        rw [ne_eq, Nat.digitChar_eq_zero]
        omega
      next large =>
        obtain ⟨first, others, digits, nonzero⟩ := ih (n / 10) (by omega) (by omega)
        rw [Decimal.digitsOf] at digits
        exact ⟨first, others ++ [(n % 10).digitChar], by rw [digits]; rfl, nonzero⟩

/-- The digits of a number are the whole part of a numeral. -/
theorem isWhole_digitsOf (n : Nat)
    : IsWhole (Decimal.digitsOf n) := by
  rcases Nat.eq_zero_or_pos n with rfl | pos
  · exact .zero
  · obtain ⟨first, others, digits, nonzero⟩ := head_digitsOf pos
    rw [digits]
    exact .digits nonzero fun c member => digitsOf_isDigit (digits ▸ member)

-----------------------------------------------------------------------------------------
-- Reading the parts of a numeral
-----------------------------------------------------------------------------------------

/-- What follows a numeral cannot be read as a part of it. -/
def Ends (rest : List Char) : Prop :=
  ∀ c ∈ rest.head?, ¬ c.isDigit ∧ c ≠ '.' ∧ c ≠ 'e' ∧ c ≠ 'E'

/-- Digits are read up to where they end. -/
theorem digits?_append {digits rest : List Char} (nonempty : digits ≠ [])
    (all : ∀ c ∈ digits, c.isDigit) (stop : ∀ c ∈ rest.head?, ¬ c.isDigit)
    : digits? (digits ++ rest) = some (digits, rest) := by
  have front : rest.takeWhile Char.isDigit = [] ∧ rest.dropWhile Char.isDigit = rest := by
    cases rest with
    | nil => exact ⟨rfl, rfl⟩
    | cons c rest => simp [stop c rfl]
  rw [digits?, List.span_eq_takeWhile_dropWhile, List.takeWhile_append_of_pos all,
    List.dropWhile_append_of_pos all, front.1, front.2, List.append_nil]
  cases digits with
  | nil => exact absurd rfl nonempty
  | cons first others => rfl

/-- The whole part of a numeral is read up to where its digits end. -/
theorem whole?_append {digits rest : List Char} (whole : IsWhole digits)
    (stop : ∀ c ∈ rest.head?, ¬ c.isDigit)
    : whole? (digits ++ rest) = some (digits, rest) := by
  cases whole with
  | zero => rfl
  | digits nonzero all =>
      rw [← digits?_append (by simp) all stop]
      simp only [List.cons_append, whole?]
      split
      next same =>
        cases same
        exact absurd rfl nonzero
      next => rfl

/-- The text of a fraction. -/
def fractionText : Option (List Char) → List Char
  | none => []
  | some digits => '.' :: digits

/-- The text of an exponent, given by its sign and digits. -/
def exponentText : Option (Bool × List Char) → List Char
  | none => []
  | some (negative, digits) => 'e' :: (if negative then '-' else '+') :: digits

def exponentOf : Bool × List Char → Int
  | (negative, digits) => (if negative then -1 else 1) * natOf digits

/-- The fraction of a numeral is read up to where its digits end. -/
theorem fraction?_append {fraction : Option (List Char)} {rest : List Char}
    (valid : ∀ digits ∈ fraction, digits ≠ [] ∧ ∀ c ∈ digits, c.isDigit)
    (stop : ∀ c ∈ rest.head?, ¬ c.isDigit ∧ c ≠ '.')
    : fraction? (fractionText fraction ++ rest) = some (fraction, rest) := by
  cases fraction with
  | none =>
      cases rest with
      | nil => rfl
      | cons c rest =>
          simp only [fractionText, List.nil_append, fraction?]
          split
          next same =>
            cases same
            exact absurd rfl (stop '.' rfl).2
          next => rfl
  | some digits =>
      obtain ⟨nonempty, all⟩ := valid digits rfl
      simp only [fractionText, List.cons_append, fraction?,
        digits?_append nonempty all fun c head => (stop c head).1]
      rfl

/-- The exponent of a numeral is read up to where the numeral ends. -/
theorem exponent?_append {exponent : Option (Bool × List Char)} {rest : List Char}
    (valid : ∀ part ∈ exponent, part.2 ≠ [] ∧ ∀ c ∈ part.2, c.isDigit) (stop : Ends rest)
    : exponent? (exponentText exponent ++ rest) = some (exponent.map exponentOf, rest) := by
  cases exponent with
  | none =>
      cases rest with
      | nil => rfl
      | cons c rest =>
          obtain ⟨-, -, lower, upper⟩ := stop c rfl
          simp [exponentText, exponent?, lower, upper]
  | some part =>
      obtain ⟨negative, digits⟩ := part
      obtain ⟨nonempty, all⟩ := valid _ rfl
      have digits := digits?_append nonempty all fun c head => (stop c head).1
      cases negative <;> simp [exponentText, exponent?, digits, exponentOf]

/-- A numeral without sign is read in its three parts. -/
theorem read?_of_parts {text afterWhole afterFraction rest whole : List Char}
    {fraction : Option (List Char)} {exponent : Option Int} (unsigned : ∀ c ∈ text.head?, c ≠ '-')
    (readWhole : whole? text = some (whole, afterWhole))
    (readFraction : fraction? afterWhole = some (fraction, afterFraction))
    (readExponent : exponent? afterFraction = some (exponent, rest))
    : read? text = some (⟨false, whole, fraction, exponent⟩, rest) := by
  unfold read?
  split
  next negative body same =>
    split at same
    next => exact absurd rfl (unsigned '-' rfl)
    next =>
      cases same
      simp [readWhole, readFraction, readExponent]

/-- The parts that a numeral was read from. -/
theorem parts_of_read? {text rest : List Char} {n : Numeral} (read : read? text = some (n, rest))
    : ∃ body afterWhole afterFraction,
        text = (if n.negative then ['-'] else []) ++ body
        ∧ whole? body = some (n.whole, afterWhole)
        ∧ fraction? afterWhole = some (n.fraction, afterFraction)
        ∧ exponent? afterFraction = some (n.exponent, rest) := by
  simp only [read?, Option.bind_eq_bind, Option.pure_def, Option.bind_eq_some_iff,
    Option.some.injEq, Prod.mk.injEq] at read
  obtain ⟨⟨whole, afterWhole⟩, readWhole, ⟨fraction, afterFraction⟩, readFraction,
    ⟨exponent, after⟩, readExponent, rfl, rfl⟩ := read
  refine ⟨_, afterWhole, afterFraction, ?_, readWhole, readFraction, readExponent⟩
  dsimp only
  split <;> rfl

/-- A numeral is read from the texts of its parts. -/
theorem read?_append {whole rest : List Char} {fraction : Option (List Char)}
    {exponent : Option (Bool × List Char)} (isWhole : IsWhole whole)
    (validFraction : ∀ digits ∈ fraction, digits ≠ [] ∧ ∀ c ∈ digits, c.isDigit)
    (validExponent : ∀ part ∈ exponent, part.2 ≠ [] ∧ ∀ c ∈ part.2, c.isDigit)
    (stop : Ends rest)
    : read? (whole ++ fractionText fraction ++ exponentText exponent ++ rest)
      = some (⟨false, whole, fraction, exponent.map exponentOf⟩, rest) := by
  have afterFraction : ∀ c ∈ (exponentText exponent ++ rest).head?, ¬ c.isDigit ∧ c ≠ '.' := by
    cases exponent with
    | none => exact fun c head => ⟨(stop c head).1, (stop c head).2.1⟩
    | some part =>
        rintro _ ⟨⟩
        decide
  have afterWhole : ∀ c ∈ (fractionText fraction ++ (exponentText exponent ++ rest)).head?,
      ¬ c.isDigit := by
    cases fraction with
    | none => exact fun c head => (afterFraction c head).1
    | some digits =>
        rintro _ ⟨⟩
        decide
  simp only [List.append_assoc]
  refine read?_of_parts ?_ (whole?_append isWhole afterWhole)
    (fraction?_append validFraction afterFraction) (exponent?_append validExponent stop)
  cases isWhole with
  | zero =>
      rintro _ ⟨⟩
      decide
  | digits nonzero all =>
      rintro _ ⟨⟩ rfl
      exact absurd (all '-' List.mem_cons_self) (by decide)

-----------------------------------------------------------------------------------------
-- The characters of numerals
-----------------------------------------------------------------------------------------

def isNumeralCharacter (c : Char) : Bool :=
  c.isDigit || c = '-' || c = '+' || c = '.' || c = 'e' || c = 'E'

/-- What follows is left of a text after characters of numerals. -/
def Leaves (text rest : List Char) : Prop :=
  ∃ used, text = used ++ rest ∧ ∀ c ∈ used, isNumeralCharacter c

theorem Leaves.refl (text : List Char)
    : Leaves text text :=
  ⟨[], rfl, by simp⟩

theorem Leaves.trans {text middle rest : List Char} (first : Leaves text middle)
    (second : Leaves middle rest)
    : Leaves text rest := by
  obtain ⟨used, rfl, all⟩ := first
  obtain ⟨more, rfl, all'⟩ := second
  exact ⟨used ++ more, by simp, List.forall_mem_append.mpr ⟨all, all'⟩⟩

theorem Leaves.cons {c : Char} {text rest : List Char} (character : isNumeralCharacter c)
    (leaves : Leaves text rest)
    : Leaves (c :: text) rest := by
  obtain ⟨used, rfl, all⟩ := leaves
  exact ⟨c :: used, rfl, List.forall_mem_cons.mpr ⟨character, all⟩⟩

/-- Reading digits takes characters of numerals only. -/
theorem leaves_of_digits? {text digits rest : List Char} (read : digits? text = some (digits, rest))
    : Leaves text rest := by
  rw [digits?, List.span_eq_takeWhile_dropWhile] at read
  have all : ∀ c ∈ text.takeWhile Char.isDigit, isNumeralCharacter c := by
    intro c member
    have digit := List.all_eq_true.mp List.all_takeWhile c member
    simp [isNumeralCharacter, digit]
  refine ⟨text.takeWhile Char.isDigit, ?_, all⟩
  split at read
  next => cases read
  next same =>
    cases read
    cases same
    rw [List.takeWhile_append_dropWhile]

/-- Reading a whole part takes characters of numerals only. -/
theorem leaves_of_whole? {text digits rest : List Char} (read : whole? text = some (digits, rest))
    : Leaves text rest := by
  unfold whole? at read
  split at read
  next =>
    cases read
    exact (Leaves.refl rest).cons rfl
  next => exact leaves_of_digits? read

/-- Digits that are only put into another form. -/
theorem leaves_of_map {text rest : List Char} {α : Type} {a : α}
    {f : List Char × List Char → α × List Char} (read : (digits? text).map f = some (a, rest))
    (keeps : ∀ part, (f part).2 = part.2)
    : Leaves text rest := by
  obtain ⟨⟨digits, after⟩, found, same⟩ := Option.map_eq_some_iff.mp read
  have kept := keeps (digits, after)
  rw [same] at kept
  obtain rfl : rest = after := kept
  exact leaves_of_digits? found

/-- Reading a fraction takes characters of numerals only. -/
theorem leaves_of_fraction? {text rest : List Char} {fraction : Option (List Char)}
    (read : fraction? text = some (fraction, rest))
    : Leaves text rest := by
  unfold fraction? at read
  split at read
  next => exact (leaves_of_map read fun _ => rfl).cons rfl
  next =>
    cases read
    exact .refl text

/-- Reading an exponent takes characters of numerals only. -/
theorem leaves_of_exponent? {text rest : List Char} {exponent : Option Int}
    (read : exponent? text = some (exponent, rest))
    : Leaves text rest := by
  unfold exponent? at read
  dsimp only at read
  split at read
  next =>
    cases read
    exact .refl []
  next mark after =>
    split at read
    next isMark =>
      have character : isNumeralCharacter mark := by
        rcases isMark with rfl | rfl <;> rfl
      split at read
      · exact ((leaves_of_map read fun _ => rfl).cons rfl).cons character
      · exact ((leaves_of_map read fun _ => rfl).cons rfl).cons character
      · exact (leaves_of_map read fun _ => rfl).cons character
    next =>
      cases read
      exact .refl _

/-- A numeral is read from characters of numerals only. -/
theorem leaves_of_read? {text rest : List Char} {n : Numeral} (read : read? text = some (n, rest))
    : Leaves text rest := by
  obtain ⟨body, afterWhole, afterFraction, rfl, readWhole, readFraction, readExponent⟩ :=
    parts_of_read? read
  have leaves := (leaves_of_whole? readWhole).trans
    ((leaves_of_fraction? readFraction).trans (leaves_of_exponent? readExponent))
  split
  · exact leaves.cons rfl
  · exact leaves

/-- The decimal that a numeral spells, without its sign. -/
def decimal (n : Numeral) : Decimal where
  digits := natOf (n.whole ++ n.fraction.getD [])
  exponent := n.exponent.getD 0 - (n.fraction.getD []).length

end Numeral

-----------------------------------------------------------------------------------------
-- The texts of decimals
-----------------------------------------------------------------------------------------

namespace NumeralLayout
open Numeral

/-- A text that reads as a numeral with the value of a decimal. -/
def Spells (text : List Char) (d : Decimal) : Prop :=
  ∃ numeral : Numeral, numeral.negative = false
    ∧ numeral.decimal.exactRank = d.exactRank
    ∧ (∃ first others, text = first :: others ∧ first.isDigit)
    ∧ ∀ rest, Ends rest → read? (text ++ rest) = some (numeral, rest)

/-- A text spells all decimals of the same rank. -/
theorem Spells.congr {text : List Char} {d d' : Decimal} (spells : Spells text d)
    (same : d.exactRank = d'.exactRank)
    : Spells text d' := by
  obtain ⟨numeral, unsigned, value, reads⟩ := spells
  exact ⟨numeral, unsigned, value.trans same, reads⟩

/-- A text of valid parts spells the decimal of the same rank as these. -/
theorem spells_of_parts {whole : List Char} {fraction : Option (List Char)}
    {exponent : Option (Bool × List Char)} {d : Decimal} (isWhole : IsWhole whole)
    (validFraction : ∀ digits ∈ fraction, digits ≠ [] ∧ ∀ c ∈ digits, c.isDigit)
    (validExponent : ∀ part ∈ exponent, part.2 ≠ [] ∧ ∀ c ∈ part.2, c.isDigit)
    (same : (decimal ⟨false, whole, fraction, exponent.map exponentOf⟩).exactRank = d.exactRank)
    : Spells (whole ++ fractionText fraction ++ exponentText exponent) d := by
  refine ⟨_, rfl, same, ?_, fun rest stop => read?_append isWhole validFraction validExponent stop⟩
  cases isWhole with
  | zero => exact ⟨'0', _, rfl, rfl⟩
  | digits _ all => exact ⟨_, _, rfl, all _ List.mem_cons_self⟩

/-- Digits with a point among them, which may have more zeros at the end than the digits of the
decimal. -/
theorem spells_point {whole fraction digits : List Char} {exponent : Int} (isWhole : IsWhole whole)
    (nonempty : fraction ≠ []) (all : ∀ c ∈ fraction, c.isDigit) (k : Nat)
    (value : natOf (whole ++ fraction) = natOf digits * Nat.pow 10 k)
    (place : exponent = k - fraction.length)
    : Spells (whole ++ '.' :: fraction) ⟨natOf digits, exponent⟩ := by
  have spelled : Spells (whole ++ fractionText (some fraction) ++ exponentText none)
      ⟨natOf digits, exponent⟩ := by
    refine spells_of_parts isWhole ?_ ?_ ?_
    · rintro _ ⟨⟩
      exact ⟨nonempty, all⟩
    · rintro _ ⟨⟩
    · simp only [decimal, Option.getD_some, Option.map_none, Option.getD_none, value,
        Decimal.exactRank_shift]
      congr 2
      omega
  simpa [fractionText, exponentText] using spelled

theorem isDigit_zeros (count : Nat)
    : ∀ c ∈ List.replicate count '0', c.isDigit := by
  intro c member
  rw [List.eq_of_mem_replicate member]
  rfl

/-- The positional text of digits spells their decimal, by cases over where the point stands. -/
theorem positional_spells {first : Char} {others : List Char} (nonzero : first ≠ '0')
    (all : ∀ c ∈ first :: others, c.isDigit) (lead : Int)
    : Spells (positional (first :: others) lead)
        ⟨natOf (first :: others), lead + 1 - (first :: others).length⟩ := by
  have zero : natOf ['0'] = 0 := rfl
  have length : (first :: others).length = others.length + 1 := rfl
  by_cases below : lead < 0
  · -- The point stands before the digits, and zeros between them.
    have text : positional (first :: others) lead
        = ['0'] ++ '.' :: (List.replicate (-lead - 1).toNat '0' ++ first :: others) := by
      rw [positional, if_pos below]
      rfl
    rw [text]
    refine spells_point .zero (by simp) ?_ 0 ?_ ?_
    · exact List.forall_mem_append.mpr ⟨isDigit_zeros _, all⟩
    · rw [natOf_append, natOf_append, natOf_zeros, zero]
      simp
    · rw [List.length_append, List.length_replicate]
      omega
  by_cases short : (first :: others).length ≤ lead.toNat + 1
  · -- The point stands after the digits and the zeros that bring them to their place.
    have text : positional (first :: others) lead
        = (first :: others ++ List.replicate (lead.toNat + 1 - (first :: others).length) '0')
          ++ '.' :: ['0'] := by
      rw [positional, if_neg below]
      exact if_pos short
    have padded := List.forall_mem_append.mpr
      ⟨all, isDigit_zeros (lead.toNat + 1 - (first :: others).length)⟩
    rw [text]
    refine spells_point (.digits nonzero padded) (by simp) (List.forall_mem_singleton.mpr rfl)
      (lead.toNat + 1 - (first :: others).length + 1) ?_ ?_
    · rw [natOf_append, natOf_append, natOf_zeros, zero, List.length_replicate, Nat.add_zero,
        Nat.add_zero, Nat.mul_assoc, Decimal.pow_ten_add]
      rfl
    · simp only [List.length_singleton]
      omega
  · -- The point stands among the digits.
    have text : positional (first :: others) lead
        = first :: others.take lead.toNat ++ '.' :: others.drop lead.toNat := by
      rw [positional, if_neg below]
      exact if_neg short
    rw [text]
    refine spells_point (.digits nonzero ?_) ?_ ?_ 0 ?_ ?_
    · intro c member
      exact all c (List.take_subset (lead.toNat + 1) _ member)
    · rw [ne_eq, List.drop_eq_nil_iff]
      omega
    · intro c member
      exact all c (List.mem_cons_of_mem _ (List.mem_of_mem_drop member))
    · rw [List.cons_append, List.take_append_drop]
      simp
    · rw [List.length_drop]
      omega

/-- The scientific text of digits spells their decimal. -/
theorem scientific_spells (layout : NumeralLayout) {first : Char} {others : List Char}
    (nonzero : first ≠ '0') (all : ∀ c ∈ first :: others, c.isDigit) (lead : Int)
    : Spells (layout.scientific (first :: others) lead)
        ⟨natOf (first :: others), lead + 1 - (first :: others).length⟩ := by
  let fraction := if others = [] then none else some others
  let exponent := (decide (lead < 0),
    List.replicate (layout.exponentWidth - (Decimal.digitsOf lead.natAbs).length) '0'
      ++ Decimal.digitsOf lead.natAbs)
  have text : layout.scientific (first :: others) lead
      = [first] ++ fractionText fraction ++ exponentText (some exponent) := by
    cases others with
    | nil => simp [scientific, fraction, exponent, fractionText, exponentText]; rfl
    | cons second more => simp [scientific, fraction, exponent, fractionText, exponentText]; rfl
  have written : natOf exponent.2 = lead.natAbs := by
    rw [natOf_append, natOf_zeros, natOf_digitsOf, Nat.zero_mul, Nat.zero_add]
  have value : exponentOf exponent = lead := by
    simp only [exponentOf, written]
    by_cases negative : lead < 0
    · simp only [exponent, negative, decide_true, if_true]
      omega
    · simp only [exponent, negative, decide_false, Bool.false_eq_true, if_false]
      omega
  have rest : fraction.getD [] = others := by
    cases others <;> rfl
  rw [text]
  refine spells_of_parts (.digits nonzero ?_) ?_ ?_ ?_
  · rintro c (_ | ⟨_, ⟨⟩⟩)
    exact all first List.mem_cons_self
  · intro digits present
    cases others with
    | nil => nomatch present
    | cons second more =>
        obtain rfl := Option.some.inj present
        exact ⟨by simp, fun c member => all c (List.mem_cons_of_mem _ member)⟩
  · rintro _ ⟨⟩
    refine ⟨fun empty => digitsOf_ne_nil _ (List.append_eq_nil_iff.mp empty).2, ?_⟩
    exact List.forall_mem_append.mpr ⟨isDigit_zeros _, fun _ => digitsOf_isDigit⟩
  · simp only [decimal, rest, Option.map_some, Option.getD_some, value, List.singleton_append,
      List.length_cons]
    congr 2
    omega

/-- Digits are those without the zeros at their end, followed by zeros. -/
theorem exists_trailing_zeros (digits : List Char)
    : ∃ count, digits = (digits.reverse.dropWhile (· = '0')).reverse ++ List.replicate count '0' := by
  let zeros := digits.reverse.takeWhile (· = '0')
  have all : zeros = List.replicate zeros.length '0' :=
    List.eq_replicate_iff.mpr ⟨rfl, fun c member =>
      of_decide_eq_true (List.all_eq_true.mp List.all_takeWhile c member)⟩
  refine ⟨zeros.length, ?_⟩
  calc digits
      = (zeros ++ digits.reverse.dropWhile (· = '0')).reverse := by
        rw [List.takeWhile_append_dropWhile, List.reverse_reverse]
    _ = (digits.reverse.dropWhile (· = '0')).reverse ++ List.replicate zeros.length '0' := by
        rw [List.reverse_append, all, List.reverse_replicate, List.length_replicate]

/-- The text of a decimal spells it, in either layout. -/
theorem render_spells (layout : NumeralLayout) {d : Decimal} (nonzero : d.digits ≠ 0)
    : Spells (layout.render d) d := by
  obtain ⟨count, split⟩ := exists_trailing_zeros (Decimal.digitsOf d.digits)
  obtain ⟨first, others, all, notZero⟩ := head_digitsOf (Nat.pos_of_ne_zero nonzero)
  have isDigit : ∀ c ∈ Decimal.digitsOf d.digits, c.isDigit := fun _ => digitsOf_isDigit
  have value := natOf_digitsOf d.digits
  unfold render
  dsimp only
  generalize ((Decimal.digitsOf d.digits).reverse.dropWhile (· = '0')).reverse = digits at *
  cases digits with
  | nil =>
      rw [split] at all
      have : first ∈ List.replicate count '0' := by
        rw [← List.nil_append (List.replicate count '0'), all]
        exact List.mem_cons_self
      exact absurd (List.eq_of_mem_replicate this) notZero
  | cons first' others' =>
      obtain rfl : first' = first := by
        rw [split] at all
        exact (List.cons.inj all).1
      have digit : ∀ c ∈ first' :: others', c.isDigit := fun c member =>
        isDigit c (split ▸ List.mem_append_left _ member)
      generalize found : d.exponent + (Decimal.digitsOf d.digits).length - 1 = lead
      have same : Decimal.exactRank ⟨natOf (first' :: others'), lead + 1 - (first' :: others').length⟩
          = d.exactRank := by
        rw [split, List.length_append, List.length_replicate] at found
        rw [split, natOf_append, natOf_zeros, List.length_replicate, Nat.add_zero] at value
        have place : lead + 1 - (first' :: others').length = d.exponent + count := by omega
        rw [place, ← Decimal.exactRank_shift, value]
      split
      · exact (positional_spells notZero digit lead).congr same
      · exact (scientific_spells layout notZero digit lead).congr same

end NumeralLayout

-----------------------------------------------------------------------------------------
-- Displayed doubles
-----------------------------------------------------------------------------------------

namespace Number
open NumeralLayout (Spells)

/-- The text of an integer is its digits with a sign in front. -/
theorem toString_int (n : Int)
    : toString n
      = (if decide (n < 0) then "-" else "") ++ String.ofList (Decimal.digitsOf n.natAbs) := by
  cases n with
  | ofNat m =>
      show Nat.repr m = "" ++ String.ofList (Decimal.digitsOf m)
      rw [Nat.repr_eq_ofList_toDigits, String.empty_append]
      rfl
  | negSucc m =>
      have text : toString (Int.negSucc m) = "-" ++ Nat.repr (m + 1) := rfl
      simp only [Int.negSucc_lt_zero, decide_true, if_true]
      rw [text, Nat.repr_eq_ofList_toDigits]
      rfl

/-- The digits of a number spell it as a decimal. -/
theorem digitsOf_spells (n : Nat)
    : Spells (Decimal.digitsOf n) ⟨n, 0⟩ := by
  have spelled : Spells (Decimal.digitsOf n ++ Numeral.fractionText none ++ Numeral.exponentText none)
      ⟨n, 0⟩ := by
    refine NumeralLayout.spells_of_parts (Numeral.isWhole_digitsOf n) (by simp) (by simp) ?_
    simp [Numeral.decimal, Numeral.natOf_digitsOf]
  simpa [Numeral.fractionText, Numeral.exponentText] using spelled

/-- The text of a finite double is that of its shortest decimal with a sign in front. -/
theorem text_finite (s : Bool) {rank : Fin rankLimit} (nonzero : rank.val ≠ 0)
    : (Binary64.finite s rank).text
      = (if s then "-" else "")
        ++ String.ofList (Binary64.layout.render (Decimal.shortest rank)) := by
  rw [Binary64.text, if_neg nonzero]
  generalize Binary64.layout.render (Decimal.shortest rank) = body
  cases s with
  | false => exact String.empty_append.symm
  | true => rfl

/-- A finite double is an integer if its units are a number of whole ones. -/
theorem toInt?_finite (s : Bool) (rank : Fin rankLimit)
    : (Binary64.finite s rank).toInt?
      = if Binary64.magnitude rank % unitsPerOne = 0 then
          some ((if s then -1 else 1) * ((Binary64.magnitude rank / unitsPerOne : Nat) : Int))
        else none := by
  rw [Binary64.toInt?]
  generalize Binary64.magnitude rank / unitsPerOne = whole
  cases s <;> simp

/-- An integral double is a signed whole number, which has its rank. -/
theorem exactRank_toInt? {s : Bool} {rank : Fin rankLimit} {n : Int}
    (integral : (Binary64.finite s rank).toInt? = some n)
    : Decimal.exactRank ⟨n.natAbs, 0⟩ = rank
      ∧ (Binary64.finite (decide (n < 0)) rank).toInt? = some n := by
  rw [toInt?_finite] at integral ⊢
  split at integral
  next divides =>
    have units : Binary64.magnitude rank / unitsPerOne * unitsPerOne = Binary64.magnitude rank :=
      Nat.div_mul_cancel (Nat.dvd_of_mod_eq_zero divides)
    rw [if_pos divides]
    generalize Binary64.magnitude rank / unitsPerOne = whole at *
    obtain rfl := Option.some.inj integral
    have size : ((if s then -1 else 1) * (whole : Int)).natAbs = whole := by
      cases s <;> simp
    constructor
    · rw [size, Decimal.exactRank_nat, units, Binary64.nearestRank_magnitude]
    · refine congrArg some ?_
      cases s with
      | false =>
          have positive : ¬ (whole : Int) < 0 := by omega
          simp [positive]
      | true =>
          rcases Nat.eq_zero_or_pos whole with zero | pos
          · simp [zero]
          · simp [pos]
  next => nomatch integral

/-- A finite double is displayed as a sign and a numeral that reads as its magnitude. The sign is
that of the double, or none if it would not show in the display. -/
theorem display_finite (s : Bool) (rank : Fin rankLimit)
    : ∃ (negative : Bool) (text : String) (d : Decimal),
        (double (.finite s rank)).display = (if negative then "-" else "") ++ text
        ∧ Spells text.toList d
        ∧ d.exactRank = rank
        ∧ (double (.finite negative rank)).display = (double (.finite s rank)).display := by
  by_cases plain : ∃ n, (Binary64.finite s rank).toInt? = some n ∧ n.natAbs < plainLimit
  · obtain ⟨n, integral, small⟩ := plain
    obtain ⟨reads, signed⟩ := exactRank_toInt? integral
    refine ⟨decide (n < 0), String.ofList (Decimal.digitsOf n.natAbs), ⟨n.natAbs, 0⟩, ?_, ?_, reads,
      ?_⟩
    · rw [← toString_int]
      simp only [display, integral, small, if_true]
    · rw [String.toList_ofList]
      exact digitsOf_spells _
    · simp only [display, integral, signed, small, if_true]
  · have displayed : (double (.finite s rank)).display = (Binary64.finite s rank).text := by
      simp only [display]
      split
      next n integral =>
        rw [if_neg fun small => plain ⟨n, integral, small⟩]
      next => rfl
    have nonzero : rank.val ≠ 0 := by
      intro zero
      refine plain ⟨0, ?_, by decide⟩
      have none : Binary64.magnitude 0 = 0 := rfl
      rw [toInt?_finite, zero, none, Nat.zero_mod, if_pos rfl, Nat.zero_div]
      cases s <;> rfl
    have reads : (Decimal.shortest rank).exactRank = rank := Decimal.exactRank_shortest rank.isLt
    refine ⟨s, String.ofList (Binary64.layout.render (Decimal.shortest rank)),
      Decimal.shortest rank, ?_, ?_, reads, rfl⟩
    · rw [displayed, text_finite s nonzero]
    · rw [String.toList_ofList]
      exact NumeralLayout.render_spells _ (Decimal.digits_ne_zero (by rwa [reads]))

/-- A character that neither numerals nor the words for infinity and NaN have. -/
theorem not_mem_display {c : Char}
    (foreign : ¬ Numeral.isNumeralCharacter c ∧ c ∉ ['i', 'n', 'f', 'a']) (x : Binary64)
    : c ∉ (double x).display.toList := by
  obtain ⟨noNumeral, noLetter⟩ := foreign
  have noMinus : c ≠ '-' := by
    rintro rfl
    exact noNumeral rfl
  cases x with
  | nan =>
      show c ∉ ['n', 'a', 'n']
      simp_all
  | infinite negative =>
      cases negative with
      | false =>
          show c ∉ ['i', 'n', 'f']
          simp_all
      | true =>
          show c ∉ ['-', 'i', 'n', 'f']
          simp_all
  | finite s rank =>
      obtain ⟨negative, text, d, displayed, ⟨n, -, -, -, reads⟩, -, -⟩ := display_finite s rank
      obtain ⟨used, split, all⟩ := Numeral.leaves_of_read? (reads [] (by rintro _ ⟨⟩))
      rw [List.append_nil, List.append_nil] at split
      rw [displayed, String.toList_append, List.mem_append, not_or, split]
      refine ⟨?_, fun member => noNumeral (all c member)⟩
      cases negative with
      | false => exact List.not_mem_nil
      | true => exact fun member => noMinus (List.mem_singleton.mp member)

end Number

end ScopedWhile
