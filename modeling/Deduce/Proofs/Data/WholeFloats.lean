import Mathlib

/-!
# Whole numbers in floating-point arithmetic

A natural number below `2 ^ 53` is held exactly, with its binary digits moved up to the first of 53
places (`Binary64.whole`).  Rounding leaves a number of so many digits alone, wherever zeros follow
(`Binary64.roundWithAccuracy_normal`), and so does storing it (`Binary64.unpack_pack_normal`).  So
such numbers are counted up exactly (`Binary64.ofNat_add_one`), and the quotient of one by itself
is one (`Binary64.ofNat_div_self`).
-/

namespace Deduce.Binary64

open Float.Model Float.Model.UnpackedFloat

variable {m n : Nat} {e : Int}

/-! ### Rounding -/

theorem log2_mul_two_pow (hm : 0 < m) (j : Nat) : (m * 2 ^ j).log2 = m.log2 + j := by
  induction j with
  | zero => simp
  | succ j ih =>
    have hne : m * 2 ^ j ≠ 0 := by positivity
    rw [pow_succ, ← mul_assoc, mul_comm _ 2, Nat.log2_two_mul hne, ih]
    rfl

theorem targetExponent_eq (t : Int) : Format.binary64.targetExponent t = max (t - 53) (-1074) := rfl

/-- Shifting out zeros leaves nothing to be rounded. -/
theorem shiftRight_mul_two_pow (m j : Nat) :
    (⟨m * 2 ^ j, false, false⟩ : ExtendedMantissa) >>> j = ⟨m, false, false⟩ := by
  change Nat.repeat ExtendedMantissa.shiftRightOne j _ = _
  induction j generalizing m with
  | zero => simp [Nat.repeat]
  | succ j ih =>
    have hsplit : m * 2 ^ (j + 1) = m * 2 * 2 ^ j := by ring
    rw [Nat.repeat, hsplit, ih]
    simp [ExtendedMantissa.shiftRightOne]

theorem shiftToTargetExponent_normal (hm : m.log2 = 52) (he : -1074 ≤ e) (j : Nat) :
    shiftToTargetExponent Format.binary64 (m * 2 ^ j) (e - j) .exact =
      (⟨m, false, false⟩, e) := by
  have hpos : 0 < m := Nat.pos_of_ne_zero (by rintro rfl; simp at hm)
  have htotal : totalExponent (m * 2 ^ j) (e - j) = e + 53 := by
    rw [totalExponent, log2_mul_two_pow hpos, hm]
    push_cast
    ring
  have htarget : Format.binary64.targetExponent (e + 53) = e := by
    rw [targetExponent_eq]
    omega
  have hshift : (e - (e - j)).toNat = j := by omega
  rw [shiftToTargetExponent, htotal, htarget, shiftToExponent, hshift,
    ExtendedMantissa.ofMantissaAndAccuracy, shiftRight_mul_two_pow, Int.sub_add_cancel]

/-- A number of 53 binary digits, followed by zeros, is rounded to itself. -/
theorem roundWithAccuracy_normal {s : Sign} (hm : m.log2 = 52) (hpos : 0 < m) (he : -1074 ≤ e)
    (j : Nat) :
    roundWithAccuracy Format.binary64 s (m * 2 ^ j) (e - j) .exact = .finite s m e hpos := by
  have hagain := shiftToTargetExponent_normal hm he 0
  rw [pow_zero, mul_one, Nat.cast_zero, sub_zero] at hagain
  have hrounded : (⟨m, false, false⟩ : ExtendedMantissa).roundedMantissa = m := rfl
  simp only [roundWithAccuracy, shiftToTargetExponent_normal hm he, hrounded, hagain]
  rw [dif_neg hpos.ne']

/-! ### Packing -/

/-- The highest binary digit, which is not stored, is put back. -/
theorem toNat_one_append (hm : m.log2 = 52) : (1#1 ++ BitVec.ofNat 52 m).toNat = m := by
  have hne : m ≠ 0 := by rintro rfl; simp at hm
  obtain ⟨hlow, hhigh⟩ := (Nat.log2_eq_iff hne).1 hm
  rw [BitVec.toNat_append, ← Nat.shiftLeft_add_eq_or_of_lt (BitVec.isLt _), BitVec.toNat_ofNat,
    BitVec.toNat_ofNat, Nat.shiftLeft_eq]
  omega

/-- Storing a number of 53 binary digits loses nothing, unless the exponent is out of range. -/
theorem unpack_pack_normal (hm : m.log2 = 52) (hpos : 0 < m) (he : -1074 ≤ e) (he' : e ≤ 971) :
    (Float.Model.pack (.finite .positive m e hpos)).unpack = .finite .positive m e hpos := by
  have hbias : (Format.binary64.exponentBias : Int) + (52 : Nat) = 1075 := rfl
  obtain ⟨b, hb⟩ : ∃ b : Nat, (b : Int) = e + 1075 := ⟨(e + 1075).toNat, by omega⟩
  have htoNat : (BitVec.ofNat 11 b).toNat = b := Nat.mod_eq_of_lt (by omega)
  have hstored (c : BitVec 11) (hc : b ≠ c.toNat) : BitVec.ofNat 11 b ≠ c :=
    fun h => hc (by rw [← h, htoNat])
  have hzero : BitVec.ofNat 11 b ≠ 0#11 := hstored _ (by change b ≠ 0; omega)
  have hones : BitVec.ofNat 11 b ≠ -1#11 := hstored _ (by change b ≠ 2047; omega)
  have hpack : UnpackedFloat.pack Format.binary64 (.finite .positive m e hpos) =
      packComponents Format.binary64 .positive (BitVec.ofNat 11 b) (BitVec.ofNat 52 m) := by
    have hexponent : (e + Format.binary64.exponentBias + (52 : Nat)).toNat = b := by omega
    simp only [UnpackedFloat.pack, hexponent]
    rw [if_neg (by omega), if_pos (by rw [hm]; rfl)]
  have hexponent : (b : Int) - 1075 = e := by omega
  rw [Float.Model.pack, Float.Model.unpack]
  dsimp only
  rw [hpack, UnpackedFloat.unpack]
  simp only [unpackMantissa_packComponents, unpackExponent_packComponents,
    unpackSign_packComponents, Sign.ofBitVec_toBitVec, hones, hzero, if_false, htoNat,
    toNat_one_append hm, hbias, hexponent]

/-! ### Whole numbers -/

/-- A whole number below `2 ^ 53`, with 53 binary digits. -/
def whole (n : Nat) : UnpackedFloat :=
  if h : n = 0 then .zero .positive
  else .finite .positive (n * 2 ^ (52 - n.log2)) (n.log2 - 52)
    (Nat.mul_pos (Nat.pos_of_ne_zero h) (Nat.two_pow_pos _))

theorem log2_le (hn : n ≠ 0) (hb : n < 2 ^ 53) : n.log2 ≤ 52 :=
  Nat.le_of_lt_succ ((Nat.log2_lt hn).2 hb)

theorem log2_normal (hn : n ≠ 0) (hb : n < 2 ^ 53) : (n * 2 ^ (52 - n.log2)).log2 = 52 := by
  rw [log2_mul_two_pow (Nat.pos_of_ne_zero hn)]
  exact Nat.add_sub_cancel' (log2_le hn hb)

theorem roundWithAccuracy_whole (hn : n ≠ 0) (hb : n < 2 ^ 53) {k : Nat} (hk : 52 - n.log2 ≤ k) :
    roundWithAccuracy Format.binary64 .positive (n * 2 ^ k) (-k) .exact = whole n := by
  obtain ⟨j, rfl⟩ := Nat.exists_eq_add_of_le hk
  have hlog := log2_le hn hb
  have hexponent : -((52 - n.log2 + j : Nat) : Int) = (n.log2 - 52 : Int) - j := by omega
  rw [whole, dif_neg hn, hexponent, pow_add, ← mul_assoc]
  exact roundWithAccuracy_normal (log2_normal hn hb) _ (by omega) j

theorem round_whole (hn : n ≠ 0) (hb : n < 2 ^ 53) (k : Nat) :
    UnpackedFloat.round Format.binary64 .positive (n * 2 ^ k) (-k) = whole n := by
  have hlog := log2_le hn hb
  have htarget : Format.binary64.targetExponent (totalExponent (n * 2 ^ k) (-k)) =
      n.log2 - 52 := by
    rw [targetExponent_eq, totalExponent, log2_mul_two_pow (Nat.pos_of_ne_zero hn)]
    omega
  have hshift : (-k - (n.log2 - 52 : Int)).toNat = 52 - n.log2 - k := by omega
  have hexponent : -(k : Int) - (52 - n.log2 - k : Nat) = -(k + (52 - n.log2 - k) : Nat) := by
    omega
  rw [UnpackedFloat.round, htarget, decreaseExponent, hshift]
  dsimp only
  rw [hexponent, Nat.shiftLeft_eq, mul_assoc, ← pow_add]
  exact roundWithAccuracy_whole hn hb (by omega)

theorem unpack_pack_whole (hb : n < 2 ^ 53) : (Float.Model.pack (whole n)).unpack = whole n := by
  by_cases hn : n = 0
  · subst hn
    rfl
  · have hlog := log2_le hn hb
    rw [whole, dif_neg hn]
    exact unpack_pack_normal (log2_normal hn hb) _ (by omega) (by omega)

theorem whole_one : whole 1 = .finite .positive (2 ^ 52) (-52) (by decide) := by
  have hlog : (1 : Nat).log2 = 0 := by decide
  simp [whole, hlog]

theorem normalize_whole (hb : n < 2 ^ 53) (k : Nat) :
    UnpackedFloat.normalize Format.binary64 (n * 2 ^ k : Nat) (-k) .positive = whole n := by
  by_cases hn : n = 0
  · rw [hn, zero_mul]
    rfl
  · have hpos : 0 < n * 2 ^ k := Nat.mul_pos (Nat.pos_of_ne_zero hn) (Nat.two_pow_pos k)
    rw [UnpackedFloat.normalize, Int.compare_eq_gt.2 (by omega)]
    exact round_whole hn hb k

theorem add_one_whole (hb : n + 1 < 2 ^ 53) :
    UnpackedFloat.add Format.binary64 (whole n) (whole 1) = whole (n + 1) := by
  by_cases hn : n = 0
  · subst hn
    rfl
  · have hlog := log2_le hn (Nat.lt_of_succ_lt hb)
    have hmin : min (n.log2 - 52 : Int) (-52) = -52 := by omega
    have hshift : (n.log2 - 52 - -52 : Int).toNat = n.log2 := by omega
    have hdigits : (n * 2 ^ (52 - n.log2)) <<< n.log2 = n * 2 ^ 52 := by
      rw [Nat.shiftLeft_eq, mul_assoc, ← pow_add, Nat.sub_add_cancel hlog]
    rw [whole, dif_neg hn, whole_one, UnpackedFloat.add]
    simp only [hmin, decreaseExponent, hshift, hdigits]
    rw [← normalize_whole hb 52, Nat.succ_mul]
    rfl

theorem mul_one_whole (hb : n < 2 ^ 53) :
    UnpackedFloat.mul Format.binary64 (whole n) (whole 1) = whole n := by
  by_cases hn : n = 0
  · subst hn
    rfl
  · have hlog := log2_le hn hb
    rw [whole_one]
    nth_rewrite 1 [whole]
    rw [dif_neg hn, UnpackedFloat.mul, mul_assoc, ← pow_add]
    have hexponent : (n.log2 - 52 + -52 : Int) = -((52 - n.log2 + 52 : Nat) : Int) := by omega
    rw [hexponent]
    exact roundWithAccuracy_whole hn hb (Nat.le_add_right _ _)

theorem divCore_self (hm : 0 < m) :
    divCore Format.binary64 m e m e = (2 ^ 53, -53, .exact) := by
  have htarget : min (e - e)
      (Format.binary64.targetExponent (totalExponent m e - totalExponent m e)) = -53 := by
    rw [sub_self, sub_self]
    rfl
  have hshift : (e - e - -53).toNat = 53 := by omega
  simp only [divCore, htarget, hshift]
  rw [Nat.shiftLeft_eq, Nat.mul_div_cancel_left _ hm, Nat.mul_mod_right]
  rfl

theorem div_self_whole (hn : n ≠ 0) :
    UnpackedFloat.div Format.binary64 (whole n) (whole n) = whole 1 := by
  rw [whole, dif_neg hn, UnpackedFloat.div, divCore_self (by positivity)]
  exact roundWithAccuracy_whole one_ne_zero (by decide) (k := 53) (by decide)

/-! ### Counting -/

theorem one_eq : (1.0 : Float) = ⟨.pack (whole 1)⟩ := rfl

theorem ofNat_eq (hb : n < 2 ^ 53) : Float.ofNat n = ⟨.pack (whole n)⟩ := by
  have htoFloat : n.toUInt64.toFloat = ⟨.pack (whole n)⟩ := by
    have htoNat : n.toUInt64.toNat = n := Nat.mod_eq_of_lt (by omega)
    rw [UInt64.toFloat, Float.Model.ofUInt64, UnpackedFloat.ofUInt64, htoNat,
      ← normalize_whole hb 0, pow_zero, mul_one]
    rfl
  have hpower : Float.exactlyRepresentablePowersOfTen[0] = ⟨.pack (whole 1)⟩ := rfl
  have hofNat : Float.ofNat n = n.toUInt64.toFloat * Float.exactlyRepresentablePowersOfTen[0] := by
    change Float.ofScientific n false 0 = _
    rw [Float.ofScientific, dif_pos ⟨hb, by decide⟩]
    rfl
  rw [hofNat, htoFloat, hpower]
  change Float.ofModel (Float.Model.pack (UnpackedFloat.mul Format.binary64 _ _)) = _
  rw [unpack_pack_whole hb, unpack_pack_whole (by decide), mul_one_whole hb]

theorem ofNat_add_one (hb : n + 1 < 2 ^ 53) : Float.ofNat n + 1.0 = Float.ofNat (n + 1) := by
  have hn : n < 2 ^ 53 := Nat.lt_of_succ_lt hb
  rw [ofNat_eq hn, ofNat_eq hb, one_eq]
  change Float.ofModel (Float.Model.pack (UnpackedFloat.add Format.binary64 _ _)) = _
  rw [unpack_pack_whole hn, unpack_pack_whole (by decide), add_one_whole hb]

theorem ofNat_div_self (hn : n ≠ 0) (hb : n < 2 ^ 53) : Float.ofNat n / Float.ofNat n = 1.0 := by
  rw [ofNat_eq hb, one_eq]
  change Float.ofModel (Float.Model.pack (UnpackedFloat.div Format.binary64 _ _)) = _
  rw [unpack_pack_whole hb, div_self_whole hn]

end Deduce.Binary64
