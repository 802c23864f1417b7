import Shooting.Proofs.Double.Rounding

/-!
# Scaling doubles up and down

A positive double times a factor of more than one is not smaller than it was, and divided by such a
factor it is not larger, although both results are rounded, may be subnormal, overflow to infinity
or underflow to zero (`le_mul`, `div_le`).

For finite values that is a matter of ranks. The product cannot be rounded on a finer grid than the
one its first factor lies on. If it is rounded on the same one, what is cut off belongs to the
second factor alone (`rank_le_of_mul`). For the quotient it is the other way round
(`rank_le_of_div`).
-/

namespace Shooting.Double

open Float.Model (UnpackedFloat)
open Float.Model.UnpackedFloat (Sign Accuracy divCore roundWithAccuracy)

/-! ## Mantissas -/

theorem log2_add_le {m n : Nat} (hm : m ≠ 0) (hn : 2 ^ 52 ≤ n) : m.log2 + 52 ≤ (m * n).log2 := by
  have hn' : n ≠ 0 := by omega
  rw [Nat.le_log2 (Nat.mul_ne_zero hm hn'), Nat.pow_add]
  exact Nat.mul_le_mul (Nat.log2_self_le hm) hn

/-- Rounding a product with a factor of at least one does not lead below the other factor. -/
theorem rank_le_of_mul {s : Sign} {m n : Nat} {e d : Int} {hm : 0 < m}
    (hcanonical : IsCanonical (.finite s m e hm)) (hn : 2 ^ 52 ≤ n) (hd : -52 ≤ d) :
    e + d ≤ grid (m * n) (e + d) ∧
      ∀ r, m * n / 2 ^ (grid (m * n) (e + d) - (e + d)).toNat ≤ r →
        (e + 1074) * 2 ^ 52 + m ≤ (grid (m * n) (e + d) + 1074) * 2 ^ 52 + r := by
  obtain ⟨hbits, he, -, hc⟩ := hcanonical
  have hlog := log2_add_le hm.ne' hn
  have hgrid : grid (m * n) (e + d) = max (((m * n).log2 : Int) + (e + d) - 52) (-1074) := rfl
  have hle : e + d ≤ grid (m * n) (e + d) := by omega
  refine ⟨hle, fun r hr => ?_⟩
  have hnormal : 2 ^ 52 ≤ m → 52 ≤ m.log2 := (Nat.le_log2 hm.ne').mpr
  have hge : e ≤ grid (m * n) (e + d) := by omega
  rcases lt_or_eq_of_le hge with hlt | heq
  · have hlarge := (div_pow_bounds hle).2
    omega
  · have hk : (grid (m * n) (e + d) - (e + d)).toNat ≤ 52 := by omega
    have hkept : m ≤ m * n / 2 ^ (grid (m * n) (e + d) - (e + d)).toNat := by
      rw [Nat.le_div_iff_mul_le (Nat.two_pow_pos _)]
      exact Nat.mul_le_mul_left m ((Nat.pow_le_pow_right Nat.two_pos hk).trans hn)
    omega

/-- The quotient of two mantissas before it is rounded: the first is shifted so far that the
quotient has enough bits. -/
theorem divCore_eq {n : Nat} (m : Nat) (e d : Int) (hn : n.log2 = 52) :
    ∃ q f acc, divCore .binary64 m e n d = (q, f, acc) ∧
      f = min (e - d) (max (m.log2 + e - 105 - d) (-1074)) ∧
      q = m * 2 ^ (e - d - f).toNat / n := by
  refine ⟨_, _, _, rfl, ?_, ?_⟩
  · unfold Float.Model.Format.targetExponent Float.Model.totalExponent
      Float.Model.Format.minExponent Float.Model.Format.mantissaBits
    rw [hn]
    show min _ (max (_ - 53) (3 - 1024 - 53)) = _
    omega
  · rw [Nat.shiftLeft_eq]

/-- A shift that leaves 53 bits to be rounded. -/
theorem two_pow_le_quotient {m n shift : Nat} (hm : 0 < m) (hn : 0 < n) (hn' : n < 2 ^ 53)
    (hshift : 105 ≤ m.log2 + shift) : 2 ^ 52 ≤ m * 2 ^ shift / n := by
  rw [Nat.le_div_iff_mul_le hn]
  calc 2 ^ 52 * n ≤ 2 ^ 52 * 2 ^ 53 := Nat.mul_le_mul_left _ hn'.le
    _ = 2 ^ 105 := (Nat.pow_add 2 52 53).symm
    _ ≤ 2 ^ (m.log2 + shift) := Nat.pow_le_pow_right Nat.two_pos hshift
    _ = 2 ^ m.log2 * 2 ^ shift := Nat.pow_add ..
    _ ≤ m * 2 ^ shift := Nat.mul_le_mul_right _ (Nat.log2_self_le hm.ne')

/-- What is divided by 53 bits is 52 bits longer than the quotient. -/
theorem log2_quotient_lt {m n q shift : Nat} (hq : q ≠ 0) (hn : 2 ^ 52 ≤ n)
    (hqn : q * n ≤ m * 2 ^ shift) : q.log2 + 52 < m.log2 + 1 + shift := by
  rw [← Nat.pow_lt_pow_iff_right (Nat.one_lt_two)]
  calc 2 ^ (q.log2 + 52) = 2 ^ q.log2 * 2 ^ 52 := Nat.pow_add ..
    _ ≤ q * n := Nat.mul_le_mul (Nat.log2_self_le hq) hn
    _ ≤ m * 2 ^ shift := hqn
    _ < 2 ^ (m.log2 + 1) * 2 ^ shift :=
      Nat.mul_lt_mul_of_pos_right Nat.lt_log2_self (Nat.two_pow_pos _)
    _ = 2 ^ (m.log2 + 1 + shift) := (Nat.pow_add ..).symm

/-- A factor of more than one, on a grid that is `k` bits coarser, outweighs the shift. -/
theorem two_pow_shift_lt {n k shift : Nat} (hn : 2 ^ 52 ≤ n)
    (hone : shift = k + 52 → 2 ^ 52 < n) (hle : shift ≤ k + 52) : 2 ^ shift < 2 ^ k * n := by
  rcases Nat.lt_or_eq_of_le hle with hlt | rfl
  · calc 2 ^ shift ≤ 2 ^ (k + 51) := Nat.pow_le_pow_right Nat.two_pos (by omega)
      _ = 2 ^ k * 2 ^ 51 := Nat.pow_add ..
      _ < 2 ^ k * n := Nat.mul_lt_mul_of_pos_left (by omega) (Nat.two_pow_pos _)
  · rw [Nat.pow_add]
    exact Nat.mul_lt_mul_of_pos_left (hone rfl) (Nat.two_pow_pos _)

/-- Rounding a quotient by a factor of more than one does not lead beyond what is divided. -/
theorem rank_le_of_div {s : Sign} {m n q : Nat} {e d f : Int} {hm : 0 < m}
    (hcanonical : IsCanonical (.finite s m e hm)) (hn : 2 ^ 52 ≤ n) (hn' : n < 2 ^ 53)
    (hd : -52 ≤ d) (hone : d = -52 → 2 ^ 52 < n)
    (hf : f = min (e - d) (max (m.log2 + e - 105 - d) (-1074)))
    (hq : q = m * 2 ^ (e - d - f).toNat / n) :
    f ≤ grid q f ∧ ∀ r, r ≤ q / 2 ^ (grid q f - f).toNat + 1 →
      (grid q f + 1074) * 2 ^ 52 + r ≤ (e + 1074) * 2 ^ 52 + m := by
  obtain ⟨hbits, he, -, hc⟩ := hcanonical
  have hlogm : m.log2 ≤ 52 := by
    have := (Nat.log2_lt hm.ne').mpr hbits
    omega
  generalize hshift : (e - d - f).toNat = shift at hq
  have hgrid : grid q f = max ((q.log2 : Int) + f - 52) (-1074) := rfl
  have hqn : q * n ≤ m * 2 ^ shift := hq ▸ Nat.div_mul_le_self _ _
  have hle : f ≤ grid q f := by
    by_cases hlow : f ≤ -1074
    · omega
    · have hlarge : 2 ^ 52 ≤ q := hq ▸ two_pow_le_quotient hm (by omega) hn' (by omega)
      have := (Nat.le_log2 (by omega)).mpr hlarge
      omega
  have hge : grid q f ≤ e := by
    by_cases hzero : q = 0
    · have hlog : q.log2 = 0 := by
        rw [hzero]
        rfl
      omega
    · have hlt := log2_quotient_lt hzero hn hqn
      omega
  refine ⟨hle, fun r hr => ?_⟩
  have hsmall := (div_pow_bounds hle).1
  rcases lt_or_eq_of_le hge with hlt | heq
  · omega
  · generalize hk : (grid q f - f).toNat = k at *
    have hpow : 2 ^ shift < 2 ^ k * n :=
      two_pow_shift_lt hn (fun heq' => hone (by omega)) (by omega)
    have hless : q / 2 ^ k < m := by
      rw [Nat.div_lt_iff_lt_mul (Nat.two_pow_pos _)]
      refine Nat.lt_of_mul_lt_mul_right (lt_of_le_of_lt hqn ?_)
      rw [Nat.mul_assoc]
      exact Nat.mul_lt_mul_of_pos_left hpow hm
    omega

/-! ## Doubles -/

variable {a c : Float}

theorem rankOf_infinity : rankOf ⟨.pack (.infinity .positive)⟩ = top := by decide +kernel

theorem isNaN_infinity : Float.isNaN ⟨.pack (.infinity .positive)⟩ = false := by decide +kernel

/-- A factor of more than one has its hidden bit, and that bit counts at least one. -/
theorem factor_cases (hc : 1 < c) :
    c.toModel.unpack = .infinity .positive ∨
      ∃ n d hn, c.toModel.unpack = .finite .positive n d hn ∧ 2 ^ 52 ≤ n ∧ n < 2 ^ 53 ∧ -52 ≤ d ∧
        (d = -52 → 2 ^ 52 < n) := by
  obtain ⟨-, hnum, hlt⟩ := lt_iff.mp hc
  rw [rankOf_one] at hlt
  rcases positive_cases hnum (by omega) with hinf | ⟨n, d, hn, hfin⟩
  · exact .inl hinf
  · have hcanonical := isCanonical_unpack c
    unfold rankOf at hlt
    rw [hfin] at hcanonical hlt
    simp only [rank, Sign.apply] at hlt
    unfold IsCanonical at hcanonical
    exact .inr ⟨n, d, hn, hfin, by omega, by omega, by omega, by omega⟩

/-- A positive value that is rounded is a number again. -/
theorem rankOf_round {m : Nat} {e : Int} (acc : Accuracy) (h : e ≤ grid m e) :
    ∃ r, m / 2 ^ (grid m e - e).toNat ≤ r ∧ r ≤ m / 2 ^ (grid m e - e).toNat + 1 ∧
      Float.isNaN ⟨.pack (roundWithAccuracy .binary64 .positive m e acc)⟩ = false ∧
      rankOf ⟨.pack (roundWithAccuracy .binary64 .positive m e acc)⟩ =
        min (top : Int) ((grid m e + 1074) * 2 ^ 52 + r) := by
  obtain ⟨r, hlo, hhi, hsign, hmagnitude⟩ := round_spec .positive acc h
  have hle : magnitude (UnpackedFloat.pack .binary64
      (roundWithAccuracy .binary64 .positive m e acc)) ≤ top := by omega
  refine ⟨r, hlo, hhi, isNaN_pack hle, ?_⟩
  rw [rankOf_pack hle, hsign, ← hmagnitude]
  rfl

theorem mul_eq (a c : Float) :
    a * c = ⟨.pack (UnpackedFloat.mul .binary64 a.toModel.unpack c.toModel.unpack)⟩ := rfl

theorem div_eq (a c : Float) :
    a / c = ⟨.pack (UnpackedFloat.div .binary64 a.toModel.unpack c.toModel.unpack)⟩ := rfl

theorem mul_finite {m n : Nat} {e d : Int} (hm : 0 < m) (hn : 0 < n) :
    UnpackedFloat.mul .binary64 (.finite .positive m e hm) (.finite .positive n d hn) =
      roundWithAccuracy .binary64 .positive (m * n) (e + d) .exact := rfl

theorem div_finite {m n q : Nat} {e d f : Int} {acc : Accuracy} (hm : 0 < m) (hn : 0 < n)
    (h : divCore .binary64 m e n d = (q, f, acc)) :
    UnpackedFloat.div .binary64 (.finite .positive m e hm) (.finite .positive n d hn) =
      roundWithAccuracy .binary64 .positive q f acc := by
  show (match divCore .binary64 m e n d with
    | (q, f, acc) => roundWithAccuracy .binary64 (Sign.positive / Sign.positive) q f acc) = _
  rw [h]
  rfl

/-- **Scaling up does not make smaller.** -/
theorem le_mul (ha : 0 < a) (hc : 1 < c) : a ≤ a * c := by
  obtain ⟨-, hnum, hpos⟩ := lt_iff.mp ha
  rw [rankOf_zero] at hpos
  have hinfinite {u : UnpackedFloat} (hu : u = .infinity .positive) : a ≤ ⟨.pack u⟩ := by
    subst hu
    refine le_iff.mpr ⟨hnum, isNaN_infinity, ?_⟩
    rw [rankOf_infinity]
    exact rankOf_le_top a
  rw [mul_eq]
  rcases positive_cases hnum hpos with hinf | ⟨m, e, hm, hfin⟩
  · rcases factor_cases hc with hinf' | ⟨n, d, hn, hfin', -⟩
    · rw [hinf, hinf']
      exact hinfinite rfl
    · rw [hinf, hfin']
      exact hinfinite rfl
  · rcases factor_cases hc with hinf' | ⟨n, d, hn, hfin', hn₁, -, hd, -⟩
    · rw [hfin, hinf']
      exact hinfinite rfl
    · have hcanonical := isCanonical_unpack a
      rw [hfin] at hcanonical
      obtain ⟨hgrid, hrank⟩ := rank_le_of_mul hcanonical hn₁ hd
      obtain ⟨r, hlo, -, hnum', heq⟩ := rankOf_round .exact hgrid
      rw [hfin, hfin', mul_finite]
      refine le_iff.mpr ⟨hnum, hnum', ?_⟩
      rw [heq]
      refine le_min (rankOf_le_top a) ?_
      unfold rankOf
      rw [hfin]
      exact hrank r hlo

/-- **Scaling down does not make larger**, except that infinity over infinity is not a number. -/
theorem div_le (ha : 0 < a) (hc : 1 < c) (hquotient : (a / c).isNaN = false) : a / c ≤ a := by
  obtain ⟨-, hnum, hpos⟩ := lt_iff.mp ha
  rw [rankOf_zero] at hpos
  refine le_iff.mpr ⟨hquotient, hnum, ?_⟩
  rw [div_eq]
  rcases positive_cases hnum hpos with hinf | ⟨m, e, hm, hfin⟩
  · have hrank : rankOf a = top := by
      unfold rankOf
      rw [hinf]
      rfl
    rw [hrank]
    exact rankOf_le_top _
  · rcases factor_cases hc with hinf' | ⟨n, d, hn, hfin', hn₁, hn₂, hd, hone⟩
    · have hzero : UnpackedFloat.div .binary64 (.finite .positive m e hm) (.infinity .positive) =
          .zero .positive := rfl
      have hrank : rankOf ⟨.pack (.zero .positive)⟩ = 0 := by decide +kernel
      rw [hfin, hinf', hzero, hrank]
      exact hpos.le
    · have hcanonical := isCanonical_unpack a
      have hlog : n.log2 = 52 := by
        have hle := (Nat.le_log2 hn.ne').mpr hn₁
        have hlt := (Nat.log2_lt hn.ne').mpr hn₂
        omega
      obtain ⟨q, f, acc, hcore, hf, hq⟩ := divCore_eq m e d hlog
      rw [hfin] at hcanonical
      obtain ⟨hgrid, hrank⟩ := rank_le_of_div hcanonical hn₁ hn₂ hd hone hf hq
      obtain ⟨r, -, hhi, -, heq⟩ := rankOf_round acc hgrid
      rw [hfin, hfin', div_finite hm hn hcore, heq]
      refine (min_le_right _ _).trans ?_
      unfold rankOf
      rw [hfin]
      exact hrank r hhi

end Shooting.Double
