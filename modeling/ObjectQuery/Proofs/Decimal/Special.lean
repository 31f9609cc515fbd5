import Mathlib.Algebra.Group.Nat.Defs
import ObjectQuery.Decimal.Shortest

namespace ObjectQuery

/-! Zero and the numbers without digits, which their views determine. -/

namespace FloatView

theorem eq_of_toBits {left right : Float} (same : left.toBits = right.toBits) : left = right := by
  obtain ⟨⟨leftBits, leftValid⟩⟩ := left
  obtain ⟨⟨rightBits, rightValid⟩⟩ := right
  cases same
  rfl

theorem special_of_view {value : Float} {view : FloatView} (shown : ofFloat value = view)
    (special : ∀ negative size, view ≠ .finite negative size) :
    value.toBits.toNat / 2 ^ 52 % 2048 = 2047 ∧
      view = if value.toBits.toNat % leadingBit = 0 then
        .infinity (value.toBits.toNat >>> 63 == 1) else .nan := by
  subst shown
  rw [← Nat.shiftRight_eq_div_pow]
  by_cases top : value.toBits.toNat >>> 52 % 2048 = 2047
  · exact ⟨top, by simp only [ofFloat, top, if_true]⟩
  · by_cases bottom : value.toBits.toNat >>> 52 % 2048 = 0
    · exact absurd (by simp only [ofFloat, bottom]; rfl) (special _ _)
    · exact absurd (by simp only [ofFloat, top, bottom, if_false]; rfl) (special _ _)

theorem eq_of_nan {value : Float} (view : ofFloat value = .nan) : value = 0.0 / 0.0 := by
  obtain ⟨top, shown⟩ := special_of_view view (by simp)
  have bits : (0.0 / 0.0 : Float).toBits = 0x7ff8000000000000 := by decide +kernel
  refine eq_of_toBits (Eq.trans (UInt64.toBitVec_inj.1 ?_) bits.symm)
  refine value.toModel.valid.eq_packedNaN ?_ ?_
  · apply BitVec.eq_of_toNat_eq
    change value.toModel.toBits.toNat / 2 ^ 52 % 2048 = 2047 at top
    simpa [Float.Model.UnpackedFloat.unpackExponent, Nat.shiftRight_eq_div_pow] using top
  · intro zero
    have fraction := congrArg BitVec.toNat zero
    simp only [Float.Model.UnpackedFloat.unpackMantissa, BitVec.toNat_cast,
      BitVec.extractLsb_toNat, UInt64.toNat_toBitVec, BitVec.toNat_ofNat] at fraction
    have whole : value.toBits.toNat % leadingBit = 0 := by
      rw [leadingBit]
      change value.toModel.toBits.toNat % 0x10000000000000 = 0
      simpa using fraction
    rw [if_pos whole] at shown
    cases shown

theorem eq_of_infinity {value : Float} {negative : Bool}
    (view : ofFloat value = .infinity negative) :
    value = if negative then -1.0 / 0.0 else 1.0 / 0.0 := by
  obtain ⟨top, shown⟩ := special_of_view view (by simp)
  have above : (1.0 / 0.0 : Float).toBits = 0x7ff0000000000000 := by decide +kernel
  have below : (-1.0 / 0.0 : Float).toBits = 0xfff0000000000000 := by decide +kernel
  have small := value.toBits.toNat_lt
  rw [Nat.shiftRight_eq_div_pow] at shown
  by_cases whole : value.toBits.toNat % leadingBit = 0
  · rw [if_pos whole, infinity.injEq] at shown
    rw [leadingBit] at whole
    cases negative with
    | true =>
        refine eq_of_toBits (Eq.trans (UInt64.toNat_inj.1 ?_) below.symm)
        have sign := beq_iff_eq.1 shown.symm
        change value.toBits.toNat = 0xfff0000000000000
        omega
    | false =>
        refine eq_of_toBits (Eq.trans (UInt64.toNat_inj.1 ?_) above.symm)
        have sign := beq_eq_false_iff_ne.1 shown.symm
        change value.toBits.toNat = 0x7ff0000000000000
        omega
  · rw [if_neg whole] at shown
    cases shown

theorem eq_of_zero {value : Float} {negative : Bool} {size : BinarySize}
    (view : ofFloat value = .finite negative size) (zero : size.significand = 0) :
    value = if negative then -0.0 else 0.0 := by
  have above : (0.0 : Float).toBits = 0 := by decide +kernel
  have below : (-0.0 : Float).toBits = 0x8000000000000000 := by decide +kernel
  have small := value.toBits.toNat_lt
  unfold ofFloat at view
  dsimp only at view
  split at view
  · split at view <;> cases view
  · split at view
    · rename_i bottom
      obtain ⟨sign, rfl⟩ := finite.inj view
      rw [Nat.shiftRight_eq_div_pow] at bottom sign
      change value.toBits.toNat % 0x10000000000000 = 0 at zero
      cases negative with
      | true =>
          refine eq_of_toBits (Eq.trans (UInt64.toNat_inj.1 ?_) below.symm)
          have high := beq_iff_eq.1 sign
          change value.toBits.toNat = 0x8000000000000000
          omega
      | false =>
          refine eq_of_toBits (Eq.trans (UInt64.toNat_inj.1 ?_) above.symm)
          have low := beq_eq_false_iff_ne.1 sign
          change value.toBits.toNat = 0
          omega
    · obtain ⟨-, rfl⟩ := finite.inj view
      exact absurd (Nat.add_eq_zero_iff.1 zero).1 (by decide)

end FloatView

end ObjectQuery
