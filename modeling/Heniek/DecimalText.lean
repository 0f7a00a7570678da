import Heniek.JsonGrammar
import Heniek.RpcCodec
import Mathlib.Algebra.Order.Floor.Semifield
import Mathlib.Tactic.IntervalCases

/-!
The text of a number (`Number::toString`): the fewest decimal digits that read back
as the number, the nearest of those to it, in positional or exponent form.
-/

namespace Heniek.DecimalText
open JsonSyntax ExpressionEvaluation RpcCodec

/-- The digits as a natural number, times a power of ten. -/
structure Decimal where
  digits : Nat
  scale : Int
  deriving DecidableEq

def Decimal.value (decimal : Decimal) : ℚ := decimal.digits * (10 : ℚ) ^ decimal.scale

/-- The place of the decimal point, counted from the first digit of a positive number. -/
def pointOf (q : ℚ) : Int := Int.log 10 q + 1

/-- The decimals of so many digits next to a number, the nearest one first. -/
def candidates (q : ℚ) (count : Nat) : List Decimal :=
  let scale := pointOf q - count
  let scaled := q / (10 : ℚ) ^ scale
  [roundHalfEven scaled, ⌊scaled⌋₊, ⌊scaled⌋₊ + 1].map fun digits =>
    if digits = 10 ^ count then ⟨10 ^ (count - 1), scale + 1⟩ else ⟨digits, scale⟩

def readsAs (q : ℚ) (decimal : Decimal) : Bool :=
  decide (roundBinary64 false decimal.value = .finite q)

/-- All the digits of a binary64 number. -/
def allDigits (q : ℚ) : Decimal := ⟨⌊q * 10 ^ 1074⌋₊, -1074⟩

def shortest (q : ℚ) : Decimal :=
  (((List.range 17).flatMap fun count => candidates q (count + 1)).find? (readsAs q)).getD
    (allDigits q)

def exponentText (exponent : Int) : List Char :=
  'e' :: (if exponent < 0 then '-' else '+') :: Nat.toDigits 10 exponent.natAbs

def pointed : List Char → List Char
  | [] => []
  | [c] => [c]
  | c :: d :: rest => c :: '.' :: d :: rest

def decimalText (decimal : Decimal) : List Char :=
  let digits := Nat.toDigits 10 decimal.digits
  let count : Int := digits.length
  let point := count + decimal.scale
  if decimal.digits = 0 then ['0']
  else if count ≤ point ∧ point ≤ 21 then digits ++ List.replicate (point - count).toNat '0'
  else if 0 < point ∧ point ≤ 21 then
    digits.take point.toNat ++ '.' :: digits.drop point.toNat
  else if -6 < point ∧ point ≤ 0 then
    '0' :: '.' :: (List.replicate (-point).toNat '0' ++ digits)
  else pointed digits ++ exponentText (point - 1)

/-- `String(value)` of a finite number. -/
def numberToString (q : ℚ) : List Char :=
  if q = 0 then ['0']
  else if q < 0 then '-' :: decimalText (shortest (-q))
  else decimalText (shortest q)

theorem digitsValue_eq (text : List Char) : digitsValue text = Nat.ofDigitChars 10 text 0 :=
  Nat.ofDigitChars_eq_foldl.symm

theorem digitsValue_append (a b : List Char) :
    digitsValue (a ++ b) = digitsValue a * 10 ^ b.length + digitsValue b := by
  rw [digitsValue_eq, Nat.ofDigitChars_append, Nat.ofDigitChars_eq_ofDigitChars_zero,
    ← digitsValue_eq, ← digitsValue_eq, Nat.mul_comm]

theorem digitsValue_zeros (count : Nat) : digitsValue (List.replicate count '0') = 0 := by
  rw [digitsValue_eq, Nat.ofDigitChars_replicate_zero, Nat.mul_zero]

theorem digitsValue_toDigits (n : Nat) : digitsValue (Nat.toDigits 10 n) = n := by
  rw [digitsValue_eq, Nat.ofDigitChars_ten_toDigits]

theorem toDigits_all_isDigit (n : Nat) : ∀ c ∈ Nat.toDigits 10 n, c.isDigit = true :=
  fun _ => Nat.isDigit_of_mem_toDigits (by decide) (by decide)

theorem toDigits_head (n : Nat) (positive : 0 < n) : (Nat.toDigits 10 n).head? ≠ some '0' := by
  induction n using Nat.strongRecOn with
  | ind n ih =>
    rw [Nat.toDigits_eq_if (by decide)]
    split
    · interval_cases n <;> decide
    · have filled : Nat.toDigits 10 (n / 10) ≠ [] := Nat.toDigits_ne_nil
      rw [List.head?_append_of_ne_nil _ filled]
      exact ih (n / 10) (by omega) (by omega)

theorem takeWhile_digits {digits rest : List Char} (each : ∀ c ∈ digits, c.isDigit = true)
    (stops : ∀ c ∈ rest.head?, c.isDigit = false) :
    (digits ++ rest).takeWhile Char.isDigit = digits ∧
      (digits ++ rest).dropWhile Char.isDigit = rest := by
  rw [List.takeWhile_append_of_pos each, List.dropWhile_append_of_pos each]
  cases rest with
  | nil => simp
  | cons c rest =>
    have mark : c.isDigit = false := stops c rfl
    simp [mark]

theorem wholePart_digits {digits rest : List Char} (filled : digits ≠ [])
    (each : ∀ c ∈ digits, c.isDigit = true) (head : digits.head? ≠ some '0' ∨ digits = ['0'])
    (stops : ∀ c ∈ rest.head?, c.isDigit = false) :
    wholePart (digits ++ rest) = some (digits, rest) := by
  obtain ⟨taken, dropped⟩ := takeWhile_digits each stops
  rw [wholePart, taken, dropped, if_neg filled, if_neg]
  rintro ⟨zero, several⟩
  rcases head with other | single
  · exact other zero
  · exact several single

theorem fractionPart_digits {digits rest : List Char} (filled : digits ≠ [])
    (each : ∀ c ∈ digits, c.isDigit = true) (stops : ∀ c ∈ rest.head?, c.isDigit = false) :
    fractionPart ('.' :: (digits ++ rest)) = some (digits, rest) := by
  obtain ⟨taken, dropped⟩ := takeWhile_digits each stops
  rw [fractionPart, taken, dropped, if_neg filled]

theorem exponentPart_exponentText (exponent : Int) :
    exponentPart (exponentText exponent) = some exponent := by
  have digits : exponentDigits (Nat.toDigits 10 exponent.natAbs) =
      some (exponent.natAbs : Int) := by
    have each : (Nat.toDigits 10 exponent.natAbs).all Char.isDigit = true :=
      List.all_eq_true.mpr (toDigits_all_isDigit _)
    rw [exponentDigits, if_pos ⟨Nat.toDigits_ne_nil, each⟩, digitsValue_toDigits]
  rw [exponentText]
  by_cases negative : exponent < 0
  · rw [if_pos negative, exponentPart, if_pos (Or.inl rfl), digits, Option.map_some,
      Option.some.injEq]
    omega
  · rw [if_neg negative, exponentPart, if_pos (Or.inl rfl)]
    rw [digits, Option.some.injEq]
    omega

theorem unsignedNumeral_parts {negative : Bool} {whole fraction exponent : List Char}
    {value : Int} {text : List Char} {rest : List Char}
    (first : wholePart text = some (whole, rest))
    (second : fractionPart rest = some (fraction, exponent))
    (third : exponentPart exponent = some value) :
    unsignedNumeral negative text =
      some ⟨negative, digitsValue (whole ++ fraction), value - fraction.length⟩ := by
  rw [unsignedNumeral, first, Option.bind_some, second, Option.bind_some, third, Option.map_some]

section Forms

variable {digits : List Char} (negative : Bool)

theorem noStop : ∀ c ∈ ([] : List Char).head?, c.isDigit = false :=
  fun c impossible => by cases impossible

theorem pointStop (rest : List Char) : ∀ c ∈ ('.' :: rest).head?, c.isDigit = false :=
  fun c mark => by cases mark; rfl

theorem exponentStop (exponent : Int) : ∀ c ∈ (exponentText exponent).head?, c.isDigit = false :=
  fun c mark => by cases mark; rfl

theorem zeros_isDigit (count : Nat) : ∀ c ∈ List.replicate count '0', c.isDigit = true := by
  intro c listed
  rw [(List.mem_replicate.mp listed).2]
  rfl

theorem read_padded (filled : digits ≠ [])
    (each : ∀ c ∈ digits, c.isDigit = true) (head : digits.head? ≠ some '0') (count : Nat) :
    unsignedNumeral negative (digits ++ List.replicate count '0') =
      some ⟨negative, digitsValue digits * 10 ^ count, 0⟩ := by
  have first : wholePart (digits ++ List.replicate count '0' ++ []) =
      some (digits ++ List.replicate count '0', []) := by
    refine wholePart_digits (List.append_ne_nil_of_left_ne_nil filled _) ?_ (Or.inl ?_) noStop
    · intro c listed
      rcases List.mem_append.mp listed with early | late
      · exact each c early
      · exact zeros_isDigit count c late
    · rwa [List.head?_append_of_ne_nil _ filled]
  rw [List.append_nil] at first
  rw [unsignedNumeral_parts first rfl rfl, List.append_nil, digitsValue_append, digitsValue_zeros,
    List.length_replicate]
  rfl

theorem read_pointed (each : ∀ c ∈ digits, c.isDigit = true)
    (head : digits.head? ≠ some '0') {count : Nat} (positive : 0 < count)
    (inside : count < digits.length) :
    unsignedNumeral negative (digits.take count ++ '.' :: digits.drop count) =
      some ⟨negative, digitsValue digits, count - digits.length⟩ := by
  have filled : digits ≠ [] := List.ne_nil_of_length_pos (by omega)
  have first : wholePart (digits.take count ++ '.' :: digits.drop count) =
      some (digits.take count, '.' :: digits.drop count) := by
    refine wholePart_digits ?_ (fun c listed => each c (List.mem_of_mem_take listed)) (Or.inl ?_)
      (pointStop _)
    · rw [ne_eq, List.take_eq_nil_iff, not_or]
      exact ⟨by omega, filled⟩
    · rwa [List.head?_take, if_neg (by omega)]
  have second : fractionPart ('.' :: (digits.drop count ++ [])) = some (digits.drop count, []) := by
    refine fractionPart_digits ?_ (fun c listed => each c (List.mem_of_mem_drop listed)) noStop
    rw [ne_eq, List.drop_eq_nil_iff]
    omega
  rw [List.append_nil] at second
  have scale : (0 : Int) - (digits.drop count).length = count - digits.length := by
    rw [List.length_drop]
    omega
  rw [unsignedNumeral_parts first second rfl, List.take_append_drop, scale]

theorem read_small (filled : digits ≠ [])
    (each : ∀ c ∈ digits, c.isDigit = true) (count : Nat) :
    unsignedNumeral negative ('0' :: '.' :: (List.replicate count '0' ++ digits)) =
      some ⟨negative, digitsValue digits, -(count + digits.length)⟩ := by
  have first : wholePart (['0'] ++ '.' :: (List.replicate count '0' ++ digits)) =
      some (['0'], '.' :: (List.replicate count '0' ++ digits)) :=
    wholePart_digits (List.cons_ne_nil '0' []) (by simp) (Or.inr rfl) (pointStop _)
  have second : fractionPart ('.' :: (List.replicate count '0' ++ digits ++ [])) =
      some (List.replicate count '0' ++ digits, []) := by
    refine fractionPart_digits (List.append_ne_nil_of_right_ne_nil _ filled) ?_ noStop
    intro c listed
    rcases List.mem_append.mp listed with early | late
    · exact zeros_isDigit count c early
    · exact each c late
  rw [List.append_nil] at second
  have scale : (0 : Int) - (List.replicate count '0' ++ digits).length =
      -(count + digits.length) := by
    rw [List.length_append, List.length_replicate]
    omega
  have leading : digitsValue ['0'] = 0 := rfl
  have value :
      digitsValue (['0'] ++ (List.replicate count '0' ++ digits)) = digitsValue digits := by
    rw [digitsValue_append, digitsValue_append, leading, digitsValue_zeros, Nat.zero_mul,
      Nat.zero_mul, Nat.zero_add, Nat.zero_add]
  have parts := @unsignedNumeral_parts negative _ _ _ _ _ _ first second rfl
  rw [value, scale] at parts
  exact parts

theorem read_exponent (filled : digits ≠ [])
    (each : ∀ c ∈ digits, c.isDigit = true) (head : digits.head? ≠ some '0') (exponent : Int) :
    unsignedNumeral negative (pointed digits ++ exponentText exponent) =
      some ⟨negative, digitsValue digits, exponent + 1 - digits.length⟩ := by
  have third := exponentPart_exponentText exponent
  cases digits with
  | nil => exact absurd rfl filled
  | cons c digits =>
    cases digits with
    | nil =>
      have first : wholePart ([c] ++ exponentText exponent) =
          some ([c], exponentText exponent) :=
        wholePart_digits filled each (Or.inl head) (exponentStop exponent)
      have parts := @unsignedNumeral_parts negative _ _ _ _ _ _ first rfl third
      refine parts.trans ?_
      simp
    | cons d digits =>
      have first : wholePart ([c] ++ '.' :: (d :: digits ++ exponentText exponent)) =
          some ([c], '.' :: (d :: digits ++ exponentText exponent)) :=
        wholePart_digits (List.cons_ne_nil c [])
          (fun d listed => each d (List.mem_cons.mpr (Or.inl (List.mem_singleton.mp listed))))
          (Or.inl head) (pointStop _)
      have second := fractionPart_digits (List.cons_ne_nil d digits)
        (fun d listed => each d (List.mem_cons_of_mem c listed)) (exponentStop exponent)
      refine (@unsignedNumeral_parts negative _ _ _ _ _ _ first second third).trans ?_
      simp only [List.singleton_append, List.length_cons, Option.some.injEq,
        Numeral.mk.injEq, true_and]
      omega

end Forms

theorem decimalText_reads (decimal : Decimal) (negative : Bool) :
    ∃ numeral, unsignedNumeral negative (decimalText decimal) = some numeral ∧
      numeral.negative = negative ∧
      (numeral.digits : ℚ) * (10 : ℚ) ^ numeral.scale = decimal.value := by
  have each := toDigits_all_isDigit decimal.digits
  have filled : Nat.toDigits 10 decimal.digits ≠ [] := Nat.toDigits_ne_nil
  have value := digitsValue_toDigits decimal.digits
  unfold decimalText
  simp only
  split_ifs with zero padded inside small
  · refine ⟨⟨negative, 0, 0⟩, rfl, rfl, ?_⟩
    simp [Decimal.value, zero]
  · have head := toDigits_head decimal.digits (Nat.pos_of_ne_zero zero)
    refine ⟨_, read_padded negative filled each head _, rfl, ?_⟩
    have scale : (((Nat.toDigits 10 decimal.digits).length + decimal.scale -
        (Nat.toDigits 10 decimal.digits).length : Int).toNat : Int) = decimal.scale := by omega
    rw [value, zpow_zero, mul_one, Nat.cast_mul, Nat.cast_pow, ← zpow_natCast, scale]
    rfl
  · have head := toDigits_head decimal.digits (Nat.pos_of_ne_zero zero)
    refine ⟨_, read_pointed negative each head (by omega) (by omega), rfl, ?_⟩
    congr 2
    simp only
    omega
  · refine ⟨_, read_small negative filled each _, rfl, ?_⟩
    congr 2
    simp only
    omega
  · have head := toDigits_head decimal.digits (Nat.pos_of_ne_zero zero)
    refine ⟨_, read_exponent negative filled each head _, rfl, ?_⟩
    congr 2
    simp only
    omega

/-- The finite numbers of the language. -/
def Binary64 (q : ℚ) : Prop := roundBinary64 false |q| = .finite |q|

variable {q : ℚ} {n : Nat}

theorem binary64_grid (positive : 0 < q) (binary : Binary64 q) :
    ∃ units : Nat, q = units * binary64Unit q := by
  rw [Binary64, abs_of_pos positive, roundBinary64, if_neg positive.ne'] at binary
  simp only [Bool.false_eq_true, ↓reduceIte] at binary
  split_ifs at binary with large zero
  · rw [JsonNumber.finite.injEq] at binary
    exact absurd binary.symm positive.ne'
  · rw [JsonNumber.finite.injEq] at binary
    exact ⟨_, binary.symm⟩

/-- With so many decimal places as binary ones nothing is left of a fraction. -/
theorem grid_places {units exponent : Nat} (places : Nat)
    (grid : q = units * (2 : ℚ) ^ ((exponent : Int) - places)) :
    q * 10 ^ places = ((units * 2 ^ exponent * 5 ^ places : Nat) : ℚ) := by
  have tens : (10 : ℚ) ^ places = 2 ^ (places : Int) * 5 ^ places := by
    have factors : (10 : ℚ) = 2 * 5 := by norm_num
    rw [factors, mul_pow, zpow_natCast]
  have powers : (2 : ℚ) ^ ((exponent : Int) - places) * 2 ^ (places : Int) = 2 ^ exponent := by
    rw [← zpow_add₀ two_ne_zero, sub_add_cancel, zpow_natCast]
  calc q * 10 ^ places
      = units * ((2 : ℚ) ^ ((exponent : Int) - places) * 2 ^ (places : Int)) * 5 ^ places := by
        rw [tens, grid]
        ring
    _ = ((units * 2 ^ exponent * 5 ^ places : Nat) : ℚ) := by
        rw [powers]
        push_cast
        ring

theorem allDigits_value (positive : 0 < q) (binary : Binary64 q) : (allDigits q).value = q := by
  obtain ⟨units, grid⟩ := binary64_grid positive binary
  obtain ⟨exponent, unit⟩ : ∃ exponent : Nat,
      binary64Unit q = (2 : ℚ) ^ ((exponent : Int) - (1074 : Nat)) := by
    refine ⟨(max (Int.log 2 q) (-1022) + 1022).toNat, ?_⟩
    rw [binary64Unit]
    congr 1
    omega
  have whole := grid_places 1074 (grid.trans (congrArg _ unit))
  have tens : (10 : ℚ) ^ 1074 ≠ 0 := pow_ne_zero _ (by norm_num)
  have scale : (10 : ℚ) ^ (-1074 : Int) = (10 ^ 1074)⁻¹ := zpow_neg _ _
  rw [Decimal.value, allDigits, whole, Nat.floor_natCast, ← whole, scale, mul_assoc,
    mul_inv_cancel₀ tens, mul_one]

theorem shortest_reads (positive : 0 < q) (binary : Binary64 q) :
    roundBinary64 false (shortest q).value = .finite q := by
  unfold shortest
  cases found :
    ((List.range 17).flatMap fun count => candidates q (count + 1)).find? (readsAs q) with
  | some decimal =>
    have reads : readsAs q decimal = true := List.find?_some found
    exact of_decide_eq_true reads
  | none =>
    rw [Option.getD_none, allDigits_value positive binary]
    rwa [Binary64, abs_of_pos positive] at binary

theorem roundBinary64_negative {value : ℚ} (positive : 0 < value)
    (rounded : roundBinary64 false q = .finite value) :
    roundBinary64 true q = .finite (-value) := by
  unfold roundBinary64 at rounded ⊢
  simp only [Bool.false_eq_true, ↓reduceIte] at rounded ⊢
  split_ifs at rounded ⊢ with zero large small
  · exact absurd (JsonNumber.finite.inj rounded).symm positive.ne'
  · exact absurd (JsonNumber.finite.inj rounded).symm positive.ne'
  · rw [JsonNumber.finite.inj rounded]

theorem numeral?_of_unsigned {text : List Char} {numeral : Numeral}
    (read : unsignedNumeral false text = some numeral) : numeral? text = some numeral := by
  unfold numeral?
  split
  · cases read
  · exact read

theorem numberToString_reads (q : ℚ) :
    ∃ numeral, numeral? (numberToString q) = some numeral ∧
      (Binary64 q → readNumeral numeral = .finite q) := by
  unfold numberToString
  split_ifs with zero negative
  · refine ⟨⟨false, 0, 0⟩, rfl, fun _ => ?_⟩
    simp [readNumeral, roundBinary64, zero]
  · obtain ⟨numeral, read, sign, value⟩ := decimalText_reads (shortest (-q)) true
    refine ⟨numeral, read, fun binary => ?_⟩
    have positive : 0 < -q := neg_pos.mpr negative
    have mirrored : Binary64 (-q) := by rwa [Binary64, abs_neg]
    rw [readNumeral, sign, value,
      roundBinary64_negative positive (shortest_reads positive mirrored),
      neg_neg]
  · obtain ⟨numeral, read, sign, value⟩ := decimalText_reads (shortest q) false
    refine ⟨numeral, numeral?_of_unsigned read, fun binary => ?_⟩
    have positive : 0 < q := lt_of_le_of_ne (not_lt.mp negative) (Ne.symm zero)
    rw [readNumeral, sign, value, shortest_reads positive binary]

theorem toDigits_pow (n : Nat) (positive : 0 < n) (count : Nat) :
    Nat.toDigits 10 (n * 10 ^ count) = Nat.toDigits 10 n ++ List.replicate count '0' := by
  induction count with
  | zero => simp
  | succ count ih =>
    have larger : 10 ≤ n * 10 ^ (count + 1) := by
      have power : 10 ^ 1 ≤ 10 ^ (count + 1) := Nat.pow_le_pow_right (by decide) (by omega)
      exact power.trans (Nat.le_mul_of_pos_left _ positive)
    have quotient : n * 10 ^ (count + 1) / 10 = n * 10 ^ count := by
      rw [pow_succ, ← Nat.mul_assoc, Nat.mul_div_cancel _ (by decide)]
    have last : n * 10 ^ (count + 1) % 10 = 0 := by
      rw [pow_succ, ← Nat.mul_assoc, Nat.mul_mod_left]
    rw [Nat.toDigits_of_base_le (by decide) larger, quotient, last, ih, List.append_assoc,
      List.replicate_succ']
    rfl

theorem roundHalfEven_natCast (n : Nat) : roundHalfEven (n : ℚ) = n := by
  simp [roundHalfEven]

theorem roundBinary64_natCast (bounded : n < 2 ^ 53) : roundBinary64 false (n : ℚ) = .finite n := by
  rcases Nat.eq_zero_or_pos n with rfl | positive
  · rfl
  have cast : (0 : ℚ) < n := Nat.cast_pos.mpr positive
  have log : Nat.log 2 n ≤ 52 := by
    have below := Nat.log_lt_of_lt_pow positive.ne' bounded
    omega
  have unit : binary64Unit (n : ℚ) = (2 : ℚ) ^ (-((52 - Nat.log 2 n : Nat) : Int)) := by
    rw [binary64Unit, Int.log_natCast]
    congr 1
    omega
  have scaled : (n : ℚ) / binary64Unit n = ((n * 2 ^ (52 - Nat.log 2 n) : Nat) : ℚ) := by
    rw [unit, zpow_neg, div_inv_eq_mul]
    push_cast
    rfl
  have value : (roundHalfEven ((n : ℚ) / binary64Unit n) : ℚ) * binary64Unit n = n := by
    rw [scaled, roundHalfEven_natCast, unit, zpow_neg, zpow_natCast]
    push_cast
    rw [mul_assoc, mul_inv_cancel₀ (pow_ne_zero _ two_ne_zero), mul_one]
  have small : ¬ (2 : ℚ) ^ 1024 ≤ n := by
    rw [not_le]
    calc (n : ℚ) < 2 ^ 53 := by exact_mod_cast bounded
      _ ≤ 2 ^ 1024 := pow_le_pow_right₀ (by norm_num) (by norm_num)
  rw [roundBinary64]
  simp only [value, if_neg small, if_neg cast.ne', Bool.false_eq_true, ↓reduceIte]

theorem binary64_natCast (bounded : n < 2 ^ 53) : Binary64 (n : ℚ) := by
  rw [Binary64, abs_of_nonneg (Nat.cast_nonneg n)]
  exact roundBinary64_natCast bounded

theorem pointOf_natCast (n : Nat) : pointOf (n : ℚ) = Nat.log 10 n + 1 := by
  exact congrArg (fun log : Int => log + 1) (Int.log_natCast 10 n)

theorem roundHalfEven_le (q : ℚ) : roundHalfEven q ≤ ⌊q⌋₊ + 1 := by
  unfold roundHalfEven
  simp only
  split_ifs <;> omega

theorem candidates_natural {count : Nat} (positive : 0 < n) (within : count ≤ Nat.log 10 n)
    {decimal : Decimal} (listed : decimal ∈ candidates n (count + 1)) :
    0 ≤ decimal.scale ∧ decimal.digits * 10 ^ decimal.scale.toNat ≤ 2 * n := by
  obtain ⟨places, places_eq⟩ : ∃ places : Nat, Nat.log 10 n = count + places :=
    ⟨_, (Nat.add_sub_cancel' within).symm⟩
  have scale : pointOf (n : ℚ) - ((count + 1 : Nat) : Int) = places := by
    rw [pointOf_natCast]
    omega
  have scaled : (n : ℚ) / (10 : ℚ) ^ (places : Int) = (n : ℚ) / ((10 ^ places : Nat) : ℚ) := by
    push_cast
    rfl
  have floor : ⌊(n : ℚ) / (10 : ℚ) ^ (places : Int)⌋₊ = n / 10 ^ places := by
    rw [scaled, Nat.floor_div_natCast, Nat.floor_natCast]
  have room : (n / 10 ^ places + 1) * 10 ^ places ≤ 2 * n := by
    have power : 10 ^ places ≤ n := (Nat.pow_le_pow_right (by decide) (by omega)).trans
      (Nat.pow_log_le_self 10 positive.ne')
    have quotient := Nat.div_mul_le_self n (10 ^ places)
    rw [Nat.add_mul]
    omega
  unfold candidates at listed
  simp only [scale] at listed
  obtain ⟨digits, near, rfl⟩ := List.mem_map.mp listed
  have bounded : digits ≤ n / 10 ^ places + 1 := by
    have rounded := roundHalfEven_le ((n : ℚ) / (10 : ℚ) ^ (places : Int))
    simp only [List.mem_cons, List.not_mem_nil, or_false] at near
    omega
  have value : digits * 10 ^ places ≤ 2 * n := (Nat.mul_le_mul_right _ bounded).trans room
  split
  · rename_i full
    refine ⟨by positivity, ?_⟩
    have next : ((places : Int) + 1).toNat = places + 1 := by omega
    calc 10 ^ count * 10 ^ (places + 1) = 10 ^ (count + 1) * 10 ^ places := by ring
      _ ≤ 2 * n := by rwa [← full]
  · exact ⟨by positivity, by simpa using value⟩

theorem candidates_whole (n : Nat) :
    (⟨n, 0⟩ : Decimal) ∈ candidates n (Nat.log 10 n + 1) := by
  have scale : pointOf (n : ℚ) - ((Nat.log 10 n + 1 : Nat) : Int) = 0 := by
    rw [pointOf_natCast]
    omega
  have small : n ≠ 10 ^ (Nat.log 10 n + 1) := (Nat.lt_pow_succ_log_self (by decide) n).ne
  unfold candidates
  simp only [scale, zpow_zero, div_one, roundHalfEven_natCast, List.map_cons, if_neg small]
  exact List.mem_cons_self

theorem shortest_natCast (positive : 0 < n) (bounded : n < 2 ^ 52) :
    0 ≤ (shortest n).scale ∧ (shortest n).digits * 10 ^ (shortest n).scale.toNat = n := by
  have digits : Nat.log 10 n + 1 ≤ 17 := by
    have below : Nat.log 10 n < 16 := Nat.log_lt_of_lt_pow positive.ne' (bounded.trans (by decide))
    omega
  have counts : List.range 17 = List.range (Nat.log 10 n + 1) ++
      (List.range (17 - (Nat.log 10 n + 1))).map (Nat.log 10 n + 1 + ·) := by
    rw [← List.range_add, Nat.add_sub_cancel' digits]
  have value : (⟨n, 0⟩ : Decimal).value = n := by simp [Decimal.value]
  have reads : readsAs n ⟨n, 0⟩ = true := by
    rw [readsAs, value, decide_eq_true_eq]
    exact roundBinary64_natCast (bounded.trans (by decide))
  have present : (⟨n, 0⟩ : Decimal) ∈ (List.range (Nat.log 10 n + 1)).flatMap fun count =>
      candidates n (count + 1) :=
    List.mem_flatMap.mpr ⟨Nat.log 10 n, List.mem_range.mpr (by omega), candidates_whole n⟩
  obtain ⟨decimal, found⟩ := Option.isSome_iff_exists.mp
    (List.find?_isSome.mpr ⟨_, present, reads⟩)
  have first : shortest n = decimal := by
    rw [shortest, counts, List.flatMap_append, List.find?_append, found]
    rfl
  obtain ⟨count, within, listed⟩ := List.mem_flatMap.mp (List.mem_of_find?_eq_some found)
  obtain ⟨whole, small⟩ := candidates_natural positive
    (Nat.lt_succ_iff.mp (List.mem_range.mp within)) listed
  have natural : decimal.value = ((decimal.digits * 10 ^ decimal.scale.toNat : Nat) : ℚ) := by
    have scale : ((decimal.scale.toNat : Nat) : Int) = decimal.scale := Int.toNat_of_nonneg whole
    rw [Nat.cast_mul, Nat.cast_pow, ← zpow_natCast, scale]
    rfl
  have same : readsAs n decimal = true := List.find?_some found
  rw [readsAs, natural, roundBinary64_natCast (by omega), decide_eq_true_eq] at same
  rw [first]
  exact ⟨whole, by exact_mod_cast JsonNumber.finite.inj same⟩

theorem numberToString_natCast (bounded : n < 2 ^ 52) : numberToString n = Nat.toDigits 10 n := by
  rcases Nat.eq_zero_or_pos n with rfl | positive
  · rfl
  have cast : (0 : ℚ) < n := Nat.cast_pos.mpr positive
  obtain ⟨whole, value⟩ := shortest_natCast positive bounded
  rw [numberToString, if_neg cast.ne', if_neg (not_lt.mpr cast.le)]
  have filled : 0 < (shortest n).digits := by
    rcases Nat.eq_zero_or_pos (shortest n).digits with zero | filled
    · rw [zero] at value
      omega
    · exact filled
  have text := toDigits_pow _ filled (shortest n).scale.toNat
  rw [value] at text
  have short : (Nat.toDigits 10 n).length ≤ 21 :=
    (Nat.length_toDigits_le_iff (by decide) (by decide)).mpr (bounded.trans (by decide))
  have lengths := congrArg List.length text
  rw [List.length_append, List.length_replicate] at lengths
  have padded : ((Nat.toDigits 10 (shortest n).digits).length : Int) ≤
        (Nat.toDigits 10 (shortest n).digits).length + (shortest n).scale ∧
      (Nat.toDigits 10 (shortest n).digits).length + (shortest n).scale ≤ 21 := by omega
  have zeros : ((Nat.toDigits 10 (shortest n).digits).length + (shortest n).scale -
      (Nat.toDigits 10 (shortest n).digits).length : Int) = (shortest n).scale := by omega
  unfold decimalText
  rw [if_neg filled.ne', if_pos padded, zeros, text]

end Heniek.DecimalText
