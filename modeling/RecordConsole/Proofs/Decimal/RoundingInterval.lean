import Mathlib.Algebra.Order.Field.Power
import Mathlib.Algebra.Order.Field.Rat
import Mathlib.Tactic.Linarith
import Mathlib.Tactic.NormNum
import Mathlib.Tactic.Positivity
import Mathlib.Tactic.Ring
import RecordConsole.Decimal.Shortest

/-! The shortest decimal number of a double lies in its rounding interval, which has no point in
common with the interval of another double. So the number tells the double. -/
namespace RecordConsole.Decimal

def Scaled.value (x : Scaled) : ℚ := x.digits * (10 : ℚ) ^ x.exponent

def Scaled.quarters (x : Scaled) : ℚ := x.value * (4 * unitsPerOne)

namespace RoundingInterval

def Holds (i : RoundingInterval) (q : ℚ) : Prop :=
  if i.closed then (i.low : ℚ) ≤ q ∧ q ≤ i.high else (i.low : ℚ) < q ∧ q < i.high

def inside (i : RoundingInterval) (exponent : Int) (n : Nat) : Bool :=
  0 < n && (if i.closed then i.low * 10 ^ (-exponent).toNat ≤ n * (4 * unitsPerOne * 10 ^ exponent.toNat)
      && n * (4 * unitsPerOne * 10 ^ exponent.toNat) ≤ i.high * 10 ^ (-exponent).toNat
    else i.low * 10 ^ (-exponent).toNat < n * (4 * unitsPerOne * 10 ^ exponent.toNat)
      && n * (4 * unitsPerOne * 10 ^ exponent.toNat) < i.high * 10 ^ (-exponent).toNat)

theorem holds_bounds {i : RoundingInterval} {q : ℚ} (h : i.Holds q) :
    (i.low : ℚ) ≤ q ∧ q ≤ i.high := by
  unfold Holds at h
  split at h
  · exact h
  · exact ⟨h.1.le, h.2.le⟩

/-- The exponent is a variable here, so that nothing computes the power. -/
theorem unitsPerOne_eq {power : Nat} (h : 1074 = power) : unitsPerOne = 2 ^ power := by
  rw [unitsPerOne, h, Nat.shiftLeft_eq, Nat.one_mul]

theorem unitsPerOne_pos : 0 < unitsPerOne := by decide +kernel

/-- Both sides of the test are the number and a bound, times the same power of ten. -/
theorem quarters_mul (x : Scaled) :
    x.quarters * ((10 ^ (-x.exponent).toNat : ℕ) : ℚ) =
      ((x.digits * (4 * unitsPerOne * 10 ^ x.exponent.toNat) : ℕ) : ℚ) := by
  have hpower : (10 : ℚ) ^ x.exponent * 10 ^ (-x.exponent).toNat = 10 ^ x.exponent.toNat := by
    rw [← zpow_natCast, ← zpow_natCast, ← zpow_add₀ (by norm_num)]
    congr 1
    omega
  unfold Scaled.quarters Scaled.value
  push_cast
  rw [← hpower]
  ring

theorem inside_iff {i : RoundingInterval} {x : Scaled} :
    i.inside x.exponent x.digits = true ↔ 0 < x.digits ∧ i.Holds x.quarters := by
  have hscale : (0 : ℚ) < ((10 ^ (-x.exponent).toNat : ℕ) : ℚ) := by positivity
  have hvalue := quarters_mul x
  have hle (bound : Nat) : bound * 10 ^ (-x.exponent).toNat ≤
      x.digits * (4 * unitsPerOne * 10 ^ x.exponent.toNat) ↔ (bound : ℚ) ≤ x.quarters := by
    rw [← mul_le_mul_iff_of_pos_right hscale, hvalue]
    exact_mod_cast Iff.rfl
  have hge (bound : Nat) : x.digits * (4 * unitsPerOne * 10 ^ x.exponent.toNat) ≤
      bound * 10 ^ (-x.exponent).toNat ↔ x.quarters ≤ bound := by
    rw [← mul_le_mul_iff_of_pos_right hscale, hvalue]
    exact_mod_cast Iff.rfl
  unfold inside Holds
  cases i.closed
  · simp [← not_le, hle, hge]
  · simp [hle, hge]

theorem onGrid?_eq (i : RoundingInterval) (exponent : Int) :
    i.onGrid? exponent =
      match i.inside exponent
          (i.value * 10 ^ (-exponent).toNat / (4 * unitsPerOne * 10 ^ exponent.toNat)),
        i.inside exponent
          (i.value * 10 ^ (-exponent).toNat / (4 * unitsPerOne * 10 ^ exponent.toNat) + 1) with
      | true, true => some (roundQuotient (i.value * 10 ^ (-exponent).toNat)
          (4 * unitsPerOne * 10 ^ exponent.toNat))
      | true, false =>
        some (i.value * 10 ^ (-exponent).toNat / (4 * unitsPerOne * 10 ^ exponent.toNat))
      | false, true =>
        some (i.value * 10 ^ (-exponent).toNat / (4 * unitsPerOne * 10 ^ exponent.toNat) + 1)
      | false, false => none := rfl

theorem roundQuotient_cases (num den : Nat) :
    roundQuotient num den = num / den ∨ roundQuotient num den = num / den + 1 := by
  unfold roundQuotient
  simp only
  split
  · exact Or.inr rfl
  · exact Or.inl rfl

theorem inside_of_onGrid? {i : RoundingInterval} {exponent : Int} {n : Nat}
    (h : i.onGrid? exponent = some n) : i.inside exponent n = true := by
  rw [onGrid?_eq] at h
  split at h
  · rename_i hlower hupper
    cases h
    rcases roundQuotient_cases (i.value * 10 ^ (-exponent).toNat)
      (4 * unitsPerOne * 10 ^ exponent.toNat) with heq | heq
    · rw [heq, hlower]
    · rw [heq, hupper]
  · rename_i hlower _
    cases h
    exact hlower
  · rename_i _ hupper
    cases h
    exact hupper
  · cases h

/-- A grid no coarser than the lower half of the interval has a point below the value. -/
theorem exists_onGrid? {i : RoundingInterval} {exponent : Int} (hlow : i.low ≤ i.value)
    (hhigh : i.value < i.high)
    (hfine : 4 * unitsPerOne * 10 ^ exponent.toNat ≤ (i.value - i.low) * 10 ^ (-exponent).toNat) :
    ∃ n, i.onGrid? exponent = some n := by
  have hinside : i.inside exponent
      (i.value * 10 ^ (-exponent).toNat / (4 * unitsPerOne * 10 ^ exponent.toNat)) = true := by
    have hspacing : 0 < 4 * unitsPerOne * 10 ^ exponent.toNat :=
      Nat.mul_pos (Nat.mul_pos (by decide) unitsPerOne_pos) (Nat.pow_pos (by decide))
    have hscale : 0 < 10 ^ (-exponent).toNat := Nat.pow_pos (by decide)
    unfold inside
    generalize 4 * unitsPerOne * 10 ^ exponent.toNat = down at *
    generalize 10 ^ (-exponent).toNat = up at *
    have hbelow : i.value * up / down * down ≤ i.value * up := Nat.div_mul_le_self _ _
    have habove : i.value * up < i.value * up / down * down + down :=
      Nat.lt_div_mul_add hspacing
    have hupper : i.value * up < i.high * up := Nat.mul_lt_mul_of_pos_right hhigh hscale
    rw [Nat.sub_mul] at hfine
    have hlower : i.low * up ≤ i.value * up := Nat.mul_le_mul_right up hlow
    have hin : i.low * up < i.value * up / down * down := by omega
    have hpos : 0 < i.value * up / down := by
      rcases Nat.eq_zero_or_pos (i.value * up / down) with hzero | hpos
      · rw [hzero] at hin
        omega
      · exact hpos
    have hout : i.value * up / down * down < i.high * up := by omega
    simp [hpos, hin, hout, hin.le, hout.le]
  rw [onGrid?_eq, hinside]
  split
  · exact ⟨_, rfl⟩
  · exact ⟨_, rfl⟩
  · rename_i hfalse _
    cases hfalse
  · rename_i hfalse _
    cases hfalse

/-- The search finds a number that is inside if the finest of its grids has one. -/
theorem inside_coarsest {i : RoundingInterval} (steps : Nat) {exponent : Int}
    (h : ∃ n, i.onGrid? (exponent - steps) = some n) :
    i.inside (i.coarsest steps exponent).exponent (i.coarsest steps exponent).digits = true := by
  induction steps generalizing exponent with
  | zero =>
    obtain ⟨n, hn⟩ := h
    rw [Nat.cast_zero, sub_zero] at hn
    rw [coarsest, hn]
    exact inside_of_onGrid? hn
  | succ steps ih =>
    rw [coarsest]
    cases hgrid : i.onGrid? exponent with
    | some digits => exact inside_of_onGrid? hgrid
    | none =>
      obtain ⟨n, hn⟩ := h
      have hnext : exponent - 1 - (steps : Int) = exponent - ((steps + 1 : ℕ) : Int) := by
        push_cast
        ring
      exact ih ⟨n, hnext ▸ hn⟩

end RoundingInterval

/-- Three decimal places are less than ten binary ones, which leaves room enough between the power
of ten estimated from a binary power and that power itself. -/
theorem tenPower_le {power tens places : Nat} (hpower : power ≤ topPower)
    (htens : 100000 * tens ≤ 30103 * (52 + power)) (hplaces : places = 346) :
    4 * unitsPerOne * 10 ^ tens ≤ 2 ^ power * 10 ^ places := by
  obtain ⟨units, hunits⟩ : ∃ units, units = 1074 := ⟨_, rfl⟩
  obtain ⟨blocks, hblocks⟩ : ∃ blocks, blocks = 37 := ⟨_, rfl⟩
  have htop : power ≤ 2045 := hpower
  rw [RoundingInterval.unitsPerOne_eq hunits.symm]
  refine (Nat.pow_le_pow_iff_left (show 3 ≠ 0 by decide)).mp ?_
  calc (4 * 2 ^ units * 10 ^ tens) ^ 3 = 2 ^ (3 * (units + 2)) * (10 ^ 3) ^ tens := by
        rw [mul_pow, ← pow_mul 10 tens, ← pow_mul 10 3, Nat.mul_comm tens, Nat.mul_comm 3 (units + 2),
          pow_mul 2 (units + 2), pow_add, Nat.mul_comm 4, show 4 = 2 ^ 2 from rfl]
    _ ≤ 2 ^ (3 * (units + 2)) * (2 ^ 10) ^ tens :=
      Nat.mul_le_mul_left _ (Nat.pow_le_pow_left (by decide) tens)
    _ = 2 ^ (3 * (units + 2) + 10 * tens) := by rw [pow_add, pow_mul 2 10]
    _ ≤ 2 ^ (power * 3 + 93 * blocks) := Nat.pow_le_pow_right (by decide) (by omega)
    _ = (2 ^ power) ^ 3 * (2 ^ 93) ^ blocks := by rw [pow_add, pow_mul 2 93, pow_mul]
    _ ≤ (2 ^ power) ^ 3 * (10 ^ 28) ^ blocks :=
      Nat.mul_le_mul_left _ (Nat.pow_le_pow_left (by decide) blocks)
    _ ≤ (2 ^ power) ^ 3 * (10 ^ places) ^ 3 := by
      rw [← pow_mul 10 28, ← pow_mul 10 places]
      exact Nat.mul_le_mul_left _ (Nat.pow_le_pow_right (show 0 < 10 by decide) (by omega))
    _ = (2 ^ power * 10 ^ places) ^ 3 := by rw [mul_pow]

theorem tenPower_sub_le {power tens places : Nat} (hpower : power ≤ topPower)
    (htens : 100000 * tens ≤ 30103 * (52 + power)) (hplaces : places = 346) :
    4 * unitsPerOne * 10 ^ (tens - places) ≤ 2 ^ power * 10 ^ (places - tens) := by
  have htotal : 4 * unitsPerOne * 10 ^ tens ≤ 2 ^ power * 10 ^ places :=
    tenPower_le hpower htens hplaces
  have hleft : tens - places + min tens places = tens := by clear htotal; omega
  have hright : places - tens + min tens places = places := by clear htotal; omega
  have hcommon : 0 < 10 ^ min tens places := Nat.pow_pos (by decide)
  refine Nat.le_of_mul_le_mul_right ?_ hcommon
  rw [Nat.mul_assoc (4 * unitsPerOne), Nat.mul_assoc (2 ^ power), ← Nat.pow_add, ← Nat.pow_add,
    hleft, hright]
  exact htotal

namespace Binary64

def below (x : Binary64) : Nat := if x.mantissa = leadingBit ∧ 0 < x.power then 1 else 2

theorem below_cases (x : Binary64) : x.below = 1 ∧ x.mantissa = leadingBit ∨ x.below = 2 := by
  unfold below
  split
  · rename_i h
    exact Or.inl ⟨rfl, h.1⟩
  · exact Or.inr rfl

theorem low_eq (x : Binary64) : x.interval.low = (4 * x.mantissa - x.below) * 2 ^ x.power :=
  Nat.shiftLeft_eq _ _

theorem value_eq (x : Binary64) : x.interval.value = 4 * x.mantissa * 2 ^ x.power :=
  Nat.shiftLeft_eq _ _

theorem high_eq (x : Binary64) : x.interval.high = (4 * x.mantissa + 2) * 2 ^ x.power :=
  Nat.shiftLeft_eq _ _

theorem mantissa_pos {x : Binary64} (h : x ≠ zero) : 0 < x.mantissa := by
  cases x with
  | mk mantissa power hcanonical =>
    rcases Nat.eq_zero_or_pos mantissa with rfl | hpos
    · rcases hcanonical.2.1 with rfl | hleading
      · exact absurd rfl h
      · exact absurd hleading (by decide)
    · exact hpos

theorem log2_units_lt {x : Binary64} (h : x ≠ zero) : Nat.log2 x.units < 53 + x.power := by
  have hpower := Nat.two_pow_pos x.power
  have hunits : x.units = x.mantissa * 2 ^ x.power := Nat.shiftLeft_eq _ _
  rw [hunits, Nat.log2_lt (Nat.mul_pos (mantissa_pos h) hpower).ne', Nat.pow_add]
  exact Nat.mul_lt_mul_of_pos_right x.canonical.1 hpower

theorem finest_eq {x : Binary64} (h : x ≠ zero) :
    ∃ tens places : Nat, 100000 * tens ≤ 30103 * (52 + x.power) ∧ places = 346 ∧
      x.leadingExponent - (24 : ℕ) = tens - places := by
  have hlog := log2_units_lt h
  unfold leadingExponent
  generalize Nat.log2 x.units = log at *
  refine ⟨log * 30103 / 100000, 346, ?_, rfl, ?_⟩
  · omega
  · push_cast
    ring

theorem exists_onGrid?_finest {x : Binary64} (h : x ≠ zero) :
    ∃ n, x.interval.onGrid? (x.leadingExponent - (24 : ℕ)) = some n := by
  have hmantissa := mantissa_pos h
  have hbelow : 1 ≤ x.below ∧ x.below ≤ 4 * x.mantissa := by
    rcases below_cases x with ⟨hone, -⟩ | htwo <;> omega
  have hpower := Nat.two_pow_pos x.power
  obtain ⟨tens, places, htens, hplaces, hexponent⟩ := finest_eq h
  rw [hexponent]
  have hup : ((tens : Int) - places).toNat = tens - places := by omega
  have hdown : (-((tens : Int) - places)).toNat = places - tens := by omega
  apply RoundingInterval.exists_onGrid?
  · rw [low_eq, value_eq]
    exact Nat.mul_le_mul_right _ (by omega)
  · rw [value_eq, high_eq]
    exact Nat.mul_lt_mul_of_pos_right (by omega) hpower
  · rw [hup, hdown, low_eq, value_eq, ← Nat.sub_mul]
    have hroom := tenPower_sub_le x.canonical.2.2 htens hplaces
    refine hroom.trans (Nat.mul_le_mul_right _ ?_)
    exact Nat.le_mul_of_pos_left _ (by omega)

theorem shortest_spec {x : Binary64} (h : x ≠ zero) :
    0 < x.shortest.digits ∧ x.interval.Holds x.shortest.quarters := by
  have hinside := RoundingInterval.inside_coarsest 24 (exists_onGrid?_finest h)
  rw [← shortest] at hinside
  exact RoundingInterval.inside_iff.mp hinside

/-- Of two doubles the interval of the smaller one ends where that of the larger one begins, at the
latest, and an end that they share belongs to one of them at most. -/
theorem high_le_low {x y : Binary64}
    (h : x.power < y.power ∨ x.power = y.power ∧ x.mantissa < y.mantissa) :
    x.interval.high ≤ y.interval.low ∧
      (x.interval.high = y.interval.low → ¬ (x.interval.closed = true ∧ y.interval.closed = true)) := by
  have hclosed (z : Binary64) : z.interval.closed = true ↔ z.mantissa % 2 = 0 := beq_iff_eq
  obtain ⟨hbits, hleading, -⟩ := x.canonical
  obtain ⟨-, hleading', -⟩ := y.canonical
  have hbit : leadingBit = 4503599627370496 := rfl
  have hpower := Nat.two_pow_pos x.power
  rw [hclosed, hclosed, high_eq, low_eq]
  rcases h with hless | ⟨hsame, hless⟩
  · have hdouble : 2 * 2 ^ x.power ≤ 2 ^ y.power := by
      rw [← Nat.pow_succ']
      exact Nat.pow_le_pow_right (by decide) hless
    have hlow : 4 * x.mantissa + 2 ≤ (4 * y.mantissa - y.below) * 2 ∧
        (4 * x.mantissa + 2 = (4 * y.mantissa - y.below) * 2 → x.mantissa % 2 = 1) := by
      rcases below_cases y with ⟨hone, heq⟩ | htwo
      · omega
      · have hy : y.mantissa ≠ leadingBit := by
          intro heq
          rw [below, if_pos ⟨heq, by omega⟩] at htwo
          cases htwo
        omega
    have hscale : (4 * y.mantissa - y.below) * 2 * 2 ^ x.power ≤
        (4 * y.mantissa - y.below) * 2 ^ y.power := by
      rw [Nat.mul_assoc]
      exact Nat.mul_le_mul_left _ hdouble
    have hbound := Nat.mul_le_mul_right (2 ^ x.power) hlow.1
    refine ⟨hbound.trans hscale, ?_⟩
    rintro heq ⟨heven, -⟩
    have htight : 4 * x.mantissa + 2 = (4 * y.mantissa - y.below) * 2 :=
      Nat.eq_of_mul_eq_mul_right hpower (by omega)
    omega
  · rw [← hsame]
    have hlow : 4 * x.mantissa + 2 ≤ 4 * y.mantissa - y.below := by
      rcases below_cases y with ⟨hone, heq⟩ | htwo <;> omega
    refine ⟨Nat.mul_le_mul_right _ hlow, ?_⟩
    rintro heq ⟨heven, heven'⟩
    have htight := Nat.eq_of_mul_eq_mul_right hpower heq
    rcases below_cases y with ⟨hone, heq⟩ | htwo <;> omega

theorem not_holds_both {x y : Binary64}
    (h : x.power < y.power ∨ x.power = y.power ∧ x.mantissa < y.mantissa) {q : ℚ}
    (hx : x.interval.Holds q) (hy : y.interval.Holds q) : False := by
  obtain ⟨hle, hends⟩ := high_le_low h
  have hle' : (x.interval.high : ℚ) ≤ y.interval.low := by exact_mod_cast hle
  have hhigh := (RoundingInterval.holds_bounds hx).2
  have hlow := (RoundingInterval.holds_bounds hy).1
  have hsame : x.interval.high = y.interval.low := by
    have : (x.interval.high : ℚ) = y.interval.low := by linarith
    exact_mod_cast this
  have hopen := hends hsame
  unfold RoundingInterval.Holds at hx hy
  split at hx
  · split at hy
    · exact hopen ⟨‹_›, ‹_›⟩
    · linarith [hy.1]
  · linarith [hx.2]

theorem eq_of_holds {x y : Binary64} {q : ℚ} (hx : x.interval.Holds q) (hy : y.interval.Holds q) :
    x = y := by
  rcases Nat.lt_trichotomy x.power y.power with hless | hsame | hless
  · exact (not_holds_both (Or.inl hless) hx hy).elim
  · rcases Nat.lt_trichotomy x.mantissa y.mantissa with hless | hsame' | hless
    · exact (not_holds_both (Or.inr ⟨hsame, hless⟩) hx hy).elim
    · cases x
      cases y
      cases hsame
      cases hsame'
      rfl
    · exact (not_holds_both (Or.inr ⟨hsame.symm, hless⟩) hy hx).elim
  · exact (not_holds_both (Or.inl hless) hy hx).elim

theorem eq_of_shortest {x y : Binary64} (hx : x ≠ zero) (hy : y ≠ zero)
    (h : x.shortest.value = y.shortest.value) : x = y := by
  have hquarters : x.shortest.quarters = y.shortest.quarters := congrArg (· * (4 * (unitsPerOne : ℚ))) h
  exact eq_of_holds (shortest_spec hx).2 (hquarters ▸ (shortest_spec hy).2)

theorem shortest_value_pos {x : Binary64} (h : x ≠ zero) : 0 < x.shortest.value := by
  have hdigits : (0 : ℚ) < x.shortest.digits := by exact_mod_cast (shortest_spec h).1
  exact mul_pos hdigits (by positivity)

end Binary64

end RecordConsole.Decimal
