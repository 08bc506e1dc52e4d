import BuildLog.Proofs.Json.Grammar
import Mathlib.Algebra.Order.Field.Rat
import Mathlib.Tactic.FieldSimp
import Mathlib.Tactic.Linarith
import Mathlib.Tactic.NormNum
import Mathlib.Tactic.Positivity
import Mathlib.Tactic.Ring

/-!
# How large a numeral may be

A numeral is small enough for a double if the significand and the power of ten that it is read as
are: each of the two is rounded before they are multiplied. Reading drops digits and never adds to
the number, and the two roundings add little, so a number is only refused close to the largest
double.

* `scaled_le_magnitude`: what a numeral is read as is at most the number that it writes.
* `roundToDouble_le`: rounding to a double adds one part in 2^53 at most.
* `Writes.isFinite`: up to 2^1024 - 2^973 no number is refused.
-/

namespace BuildLog.Json

/-- The number that digits make behind a number. -/
def valueBehind (v : Nat) (ds : List Nat) : Nat := ds.foldl (fun n d => 10 * n + d) v

theorem valueBehind_cons (v d : Nat) (ds : List Nat) :
    valueBehind v (d :: ds) = valueBehind (10 * v + d) ds := rfl

theorem valueOfDigits_append (ds fs : List Nat) :
    valueOfDigits (ds ++ fs) = valueBehind (valueOfDigits ds) fs :=
  List.foldl_append

namespace Numeral

/-- The power of ten that an exponent stands for. -/
def shift (n : Numeral) : Int :=
  match n.exponent with
  | none => 0
  | some e => if e.negative then -(valueOfDigits e.digits : Int) else valueOfDigits e.digits

/-- The number that a numeral writes, without its sign. -/
def magnitude (n : Numeral) : ℚ :=
  valueOfDigits (n.whole ++ n.fraction.getD []) *
    (10 : ℚ) ^ (n.shift - ((n.fraction.getD []).length : Int))

/-- A numeral that writes a natural number with its digits alone. -/
structure Plain (m : Numeral) (n : Nat) : Prop where
  negative : m.negative = false
  fraction : m.fraction = none
  exponent : m.exponent = none
  value : valueOfDigits m.whole = n

theorem Plain.magnitude {m : Numeral} {n : Nat} (h : m.Plain n) : m.magnitude = n := by
  simp [Numeral.magnitude, shift, h.fraction, h.exponent, h.value]

open Text.Number (largest64)

/-- A numeral is read as a natural number if its digits alone write one that fits into 64 bits. -/
theorem natural?_eq_some_iff_plain {m : Numeral} {n : Nat} :
    m.natural? = some n ↔ m.Plain n ∧ n ≤ largest64 := by
  rw [natural?_eq_some_iff]
  constructor
  · rintro ⟨⟨hNegative, hFraction, hExponent, hSmall⟩, rfl⟩
    exact ⟨⟨hNegative, hFraction, hExponent, rfl⟩, hSmall⟩
  · rintro ⟨⟨hNegative, hFraction, hExponent, rfl⟩, hSmall⟩
    exact ⟨⟨hNegative, hFraction, hExponent, hSmall⟩, rfl⟩

namespace Scaled

/-! ## Whole digits -/

/-- What whole digits of a value are read as, if one of them found no more room: the first one did
not, `k + 1` digits before the end. -/
structure Overfull (s : Scaled) (v k : Nat) : Prop where
  full : s.full = true
  power : s.power = k + 1
  le_value : s.significand * 10 ^ (k + 1) ≤ v
  beyond : (largest64 + 1) * 10 ^ k ≤ v
  tight : largest64 < 10 * s.significand + 10

theorem Overfull.first {v d : Nat} (hd : d < 10) (h : largest64 < 10 * v + d) :
    Overfull ⟨v, 1, true⟩ (10 * v + d) 0 where
  full := rfl
  power := rfl
  le_value := by dsimp only; omega
  beyond := by omega
  tight := by dsimp only; omega

theorem Overfull.pushWhole {s : Scaled} {v k : Nat} (h : Overfull s v k) (d : Nat) :
    Overfull (s.pushWhole d) (10 * v + d) (k + 1) := by
  have hPush : s.pushWhole d = { s with power := s.power + 1, full := true } := by
    simp [Scaled.pushWhole, fits, h.full]
  have hLe := h.le_value
  have hBeyond := h.beyond
  rw [hPush]
  refine ⟨rfl, by simp [h.power], ?_, ?_, h.tight⟩
  · calc s.significand * 10 ^ (k + 1 + 1) = 10 * (s.significand * 10 ^ (k + 1)) := by ring
      _ ≤ 10 * v + d := by omega
  · calc (largest64 + 1) * 10 ^ (k + 1) = 10 * ((largest64 + 1) * 10 ^ k) := by ring
      _ ≤ 10 * v + d := by omega

theorem Overfull.foldl {s : Scaled} {v k : Nat} (h : Overfull s v k) (ds : List Nat) :
    ∃ k, Overfull (ds.foldl Scaled.pushWhole s) (valueBehind v ds) k := by
  induction ds generalizing s v k with
  | nil => exact ⟨k, h⟩
  | cons d ds ih => exact ih (h.pushWhole d)

/-- Whole digits are read as their number, as long as there is room for each of them. -/
theorem foldl_pushWhole {ds : List Nat} (hds : ∀ d ∈ ds, d < 10) (v : Nat) :
    ds.foldl pushWhole ⟨v, 0, false⟩ = ⟨valueBehind v ds, 0, false⟩ ∨
      ∃ k, Overfull (ds.foldl pushWhole ⟨v, 0, false⟩) (valueBehind v ds) k := by
  induction ds generalizing v with
  | nil => exact .inl rfl
  | cons d ds ih =>
    rw [List.foldl_cons, valueBehind_cons]
    by_cases hFits : 10 * v + d ≤ largest64
    · have hPush : pushWhole ⟨v, 0, false⟩ d = ⟨10 * v + d, 0, false⟩ := by
        simp [pushWhole, fits, hFits]
      rw [hPush]
      exact ih (fun d hd => hds d (List.mem_cons_of_mem _ hd)) _
    · have hPush : pushWhole ⟨v, 0, false⟩ d = ⟨v, 1, true⟩ := by
        simp [pushWhole, fits, hFits]
      rw [hPush]
      exact .inr ((Overfull.first (hds d List.mem_cons_self) (by omega)).foldl ds)

/-! ## Digits behind the point -/

/-- What digits of a value are read as, `i` of them standing behind the point: the number itself or,
once there is no more room, no more than it. -/
structure Below (s : Scaled) (v i : Nat) : Prop where
  exact_or_full : (s.significand = v ∧ s.power = -(i : Int)) ∨ ∀ d, s.fits d = false
  le_value : (s.significand : ℚ) * 10 ^ s.power ≤ v * 10 ^ (-(i : Int))

theorem ten_zpow_succ (i : Nat) : (10 : ℚ) ^ (-(i : Int)) = 10 * 10 ^ (-((i + 1 : Nat) : Int)) := by
  rw [← zpow_one_add₀ (by norm_num)]
  congr 1
  push_cast
  ring

/-- One more digit behind the point does not make the number smaller. -/
theorem le_value_push {x : ℚ} {v i : Nat} (h : x ≤ v * 10 ^ (-(i : Int))) (d : Nat) :
    x ≤ (10 * v + d : Nat) * 10 ^ (-((i + 1 : Nat) : Int)) := by
  have hDigit : (0 : ℚ) ≤ d * 10 ^ (-((i + 1 : Nat) : Int)) :=
    mul_nonneg d.cast_nonneg (zpow_nonneg (by norm_num) _)
  rw [ten_zpow_succ] at h
  push_cast at h hDigit ⊢
  linarith

/-- A digit behind the point leaves what is read no more than the number. -/
theorem Below.pushFraction {s : Scaled} {v i : Nat} (h : Below s v i) (d : Nat) :
    Below (s.pushFraction d) (10 * v + d) (i + 1) := by
  by_cases hFits : s.fits d = true
  · have hPush : s.pushFraction d =
        { s with significand := 10 * s.significand + d, power := s.power - 1 } := by
      simp [Scaled.pushFraction, hFits]
    rcases h.exact_or_full with ⟨hValue, hPower⟩ | hFull
    · have hNext : (s.pushFraction d).power = -((i + 1 : Nat) : Int) := by
        rw [hPush]
        simp only [hPower]
        push_cast
        ring
      refine ⟨.inl ⟨by rw [hPush, ← hValue], hNext⟩, ?_⟩
      rw [hNext, hPush, hValue]
    · exact absurd hFits (by simp [hFull d])
  · have hPush : s.pushFraction d = { s with full := true } := by
      simp [Scaled.pushFraction, hFits]
    rw [hPush]
    exact ⟨.inr fun d => by simp [fits], le_value_push h.le_value d⟩

theorem Below.foldl {s : Scaled} {v i : Nat} (h : Below s v i) (fs : List Nat) :
    Below (fs.foldl Scaled.pushFraction s) (valueBehind v fs) (i + fs.length) := by
  induction fs generalizing s v i with
  | nil => exact h
  | cons d fs ih =>
    have hRest := ih (h.pushFraction d)
    rwa [show i + (d :: fs).length = i + 1 + fs.length by rw [List.length_cons]; omega]

/-- What is read without the digits dropped is no more than the number. -/
theorem Overfull.le_zpow {s : Scaled} {v k : Nat} (h : Overfull s v k) :
    (s.significand : ℚ) * 10 ^ s.power ≤ v * 10 ^ (-((0 : Nat) : Int)) := by
  have hCast : ((s.significand * 10 ^ (k + 1) : Nat) : ℚ) ≤ v := by exact_mod_cast h.le_value
  have hPower : (10 : ℚ) ^ s.power = 10 ^ (k + 1) := by
    rw [h.power]
    exact zpow_natCast 10 (k + 1)
  rw [hPower]
  push_cast at hCast
  simpa using hCast

/-- The first digit behind the point may find room where the last whole digit found none. -/
theorem Overfull.pushFraction {s : Scaled} {v k : Nat} (h : Overfull s v k) (d : Nat) :
    Below ({ s with full := false }.pushFraction d) (10 * v + d) 1 := by
  by_cases hFits : 10 * s.significand + d ≤ largest64
  · have hPush : { s with full := false }.pushFraction d =
        ⟨10 * s.significand + d, s.power - 1, false⟩ := by
      simp [Scaled.pushFraction, fits, hFits]
    rw [hPush]
    refine ⟨.inr fun e => ?_, ?_⟩
    · have hTight := h.tight
      have hLarge : 10 ≤ largest64 := by decide
      simp only [fits, Bool.and_eq_false_iff, decide_eq_false_iff_not]
      omega
    · have hLe : (10 * s.significand + d) * 10 ^ k ≤ v :=
        (Nat.mul_le_mul_right _ (by omega)).trans h.beyond
      have hPower : (10 : ℚ) ^ (s.power - 1) = 10 ^ k := by
        rw [h.power, add_sub_cancel_right]
        exact zpow_natCast 10 k
      refine le_value_push (i := 0) ?_ d
      rw [hPower]
      simpa using (by exact_mod_cast hLe : ((10 * s.significand + d : Nat) : ℚ) * 10 ^ k ≤ v)
  · have hPush : { s with full := false }.pushFraction d = { s with full := true } := by
      simp [Scaled.pushFraction, fits, hFits]
    rw [hPush]
    exact ⟨.inr fun e => by simp [fits], le_value_push h.le_zpow d⟩

/-- What the digits before and behind the point are read as is at most what they write. -/
theorem mantissa_le {ds : List Nat} (hds : ∀ d ∈ ds, d < 10) (fs : List Nat) {s : Scaled}
    (hs : fs.foldl pushFraction { ds.foldl pushWhole {} with full := false } = s) :
    (s.significand : ℚ) * 10 ^ s.power ≤ valueOfDigits (ds ++ fs) * 10 ^ (-(fs.length : Int)) := by
  subst hs
  rw [valueOfDigits_append]
  -- Only the first digit behind the point may follow whole digits that did not all fit.
  rcases foldl_pushWhole hds 0 with hWhole | ⟨k, hFull⟩
  · have hBelow : Below ⟨valueOfDigits ds, 0, false⟩ (valueOfDigits ds) 0 := ⟨by simp, by simp⟩
    have hRead : ds.foldl pushWhole {} = ⟨valueOfDigits ds, 0, false⟩ := hWhole
    rw [hRead, ← Nat.zero_add fs.length]
    exact (hBelow.foldl fs).le_value
  · cases fs with
    | nil => exact hFull.le_zpow
    | cons d fs =>
      rw [List.length_cons, Nat.add_comm]
      exact ((hFull.pushFraction d).foldl fs).le_value

end Scaled

/-- Reading drops digits, and never adds to the number. -/
theorem scaled_le_magnitude {n : Numeral} (h : ∀ d ∈ n.whole, d < 10) :
    (n.scaled.significand : ℚ) * 10 ^ n.scaled.power ≤ n.magnitude := by
  have hMantissa := Scaled.mantissa_le h (n.fraction.getD []) rfl
  generalize hs : (n.fraction.getD []).foldl Scaled.pushFraction
    { n.whole.foldl Scaled.pushWhole {} with full := false } = s at hMantissa
  have hScaled : n.scaled.significand = s.significand ∧ n.scaled.power = s.power + n.shift := by
    subst hs
    unfold scaled shift
    cases n.exponent with
    | none => simp
    | some e => by_cases hNegative : e.negative <;> simp [hNegative, sub_eq_add_neg]
  rw [hScaled.1, hScaled.2, magnitude, sub_eq_neg_add, zpow_add₀ (by norm_num),
    zpow_add₀ (by norm_num), ← mul_assoc, ← mul_assoc]
  exact mul_le_mul_of_nonneg_right hMantissa (zpow_nonneg (by norm_num) _)

/-! ## Rounding -/

/-- Only a number of more than 53 bits is rounded. -/
theorem unit_le {n unit : Nat} (hUnit : 2 ^ (n.log2 - 52) = unit) (h : unit ≤ 2 * (n % unit)) :
    unit * 2 ^ 52 ≤ n := by
  subst hUnit
  by_cases hLarge : 52 ≤ n.log2
  · have hNonzero : n ≠ 0 := by
      rintro rfl
      simp at hLarge
    calc 2 ^ (n.log2 - 52) * 2 ^ 52 = 2 ^ n.log2 := by
          rw [← Nat.pow_add, Nat.sub_add_cancel hLarge]
      _ ≤ n := Nat.log2_self_le hNonzero
  · rw [Nat.sub_eq_zero_of_le (by omega), Nat.pow_zero, Nat.mod_one] at h
    omega

/-- Rounding to a double adds one part in 2^53 at most. -/
theorem roundToDouble_le (n : Nat) : roundToDouble n * 2 ^ 53 ≤ n * (2 ^ 53 + 1) := by
  simp only [roundToDouble, Nat.pow_eq]
  generalize hUnit : 2 ^ (n.log2 - 52) = unit
  have hSplit := Nat.div_add_mod n unit
  split
  · next hUp =>
    have hHalf : unit ≤ 2 * (n % unit) := by omega
    have hRoom := unit_le hUnit hHalf
    have hTwice : 2 * ((n / unit + 1) * unit) ≤ 2 * n + unit := by
      rw [Nat.add_mul, Nat.mul_comm (n / unit)]
      omega
    linarith only [hTwice, hRoom]
  · calc n / unit * unit * 2 ^ 53 ≤ n * 2 ^ 53 :=
          Nat.mul_le_mul_right (2 ^ 53) (Nat.div_mul_le_self n unit)
      _ ≤ n * (2 ^ 53 + 1) := by omega

/-- A bound below the least number that rounds to no double: it leaves room for the roundings of the
significand, the power of ten and their product. -/
def safeLimit : Nat := 2 ^ 1024 - 2 ^ 973

theorem cast_safeLimit : (safeLimit : ℚ) = 2 ^ 1024 - 2 ^ 973 := by
  have hPower : 2 ^ 973 ≤ 2 ^ 1024 := pow_le_pow_right₀ (by norm_num) (by norm_num)
  rw [safeLimit, Nat.cast_sub hPower, Nat.cast_pow, Nat.cast_pow, Nat.cast_ofNat]

/-- Two roundings take nothing below the bound to the least number that is refused. -/
theorem safeLimit_lt : safeLimit * (2 ^ 53 + 1) ^ 2 < doubleLimit * (2 ^ 53) ^ 2 := by
  decide +kernel

theorem power_le_of_le_safeLimit {k : Nat} (h : 10 ^ k ≤ safeLimit) : k ≤ 308 := by
  have hLarge : safeLimit < 10 ^ 309 := by decide +kernel
  have hPower := (Nat.pow_lt_pow_iff_right (by decide)).1 (h.trans_lt hLarge)
  omega

/-- A product of rounded factors exceeds the exact one by little. -/
theorem roundToDouble_mul_lt {a b : Nat} (h : a * b ≤ safeLimit) :
    roundToDouble a * roundToDouble b < doubleLimit := by
  have hProduct := Nat.mul_le_mul (roundToDouble_le a) (roundToDouble_le b)
  have hScaled : roundToDouble a * roundToDouble b * (2 ^ 53) ^ 2 < doubleLimit * (2 ^ 53) ^ 2 :=
    calc roundToDouble a * roundToDouble b * (2 ^ 53) ^ 2
        = roundToDouble a * 2 ^ 53 * (roundToDouble b * 2 ^ 53) := by ring
      _ ≤ a * (2 ^ 53 + 1) * (b * (2 ^ 53 + 1)) := hProduct
      _ = a * b * (2 ^ 53 + 1) ^ 2 := by ring
      _ ≤ safeLimit * (2 ^ 53 + 1) ^ 2 := Nat.mul_le_mul_right _ h
      _ < doubleLimit * (2 ^ 53) ^ 2 := safeLimit_lt
  exact Nat.lt_of_mul_lt_mul_right hScaled

theorem Writes.whole_lt {n : Numeral} {s : Text} (h : n.Writes s) : ∀ d ∈ n.whole, d < 10 := by
  cases h with
  | intro hWhole => exact hWhole.2

theorem Writes.isFinite {n : Numeral} {s : Text} (hWrites : n.Writes s)
    (h : n.magnitude ≤ safeLimit) : n.isFinite := by
  have hScaled := (scaled_le_magnitude hWrites.whole_lt).trans h
  simp only [Numeral.isFinite, Bool.or_eq_true, beq_iff_eq, decide_eq_true_eq, Bool.and_eq_true]
  generalize n.scaled = s at hScaled ⊢
  by_cases hZero : s.significand = 0
  · exact .inl (.inl hZero)
  by_cases hPower : s.power ≤ 0
  · exact .inl (.inr hPower)
  obtain ⟨k, hk⟩ := Int.eq_ofNat_of_zero_le (by omega : 0 ≤ s.power)
  have hLe : s.significand * 10 ^ k ≤ safeLimit := by
    rw [hk] at hScaled
    exact_mod_cast hScaled
  have hTen : 10 ^ k ≤ safeLimit :=
    (Nat.le_mul_of_pos_left _ (Nat.pos_of_ne_zero hZero)).trans hLe
  have hExponent := power_le_of_le_safeLimit hTen
  refine .inr ⟨by omega, ?_⟩
  rw [hk, Int.toNat_natCast, Nat.pow_eq]
  exact roundToDouble_mul_lt hLe

end Numeral

end BuildLog.Json
