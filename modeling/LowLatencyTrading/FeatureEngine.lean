import LowLatencyTrading.LiquidityTaker

/-!
# The feature engine (`trading/src/features.rs`)

`FeatureEngine` turns each valid BBO into a ticker's features: the mid price, a fair value that
starts at the mid and then follows it as an exponential moving average rounded to an integer,
the spread, the order-book imbalance `(bid_qty - ask_qty) / (bid_qty + ask_qty)`, and a trade
signal, 70% the fair value's deviation from the mid over the spread and 30% the imbalance, each
clamped to `[-1.0, 1.0]`. All of it is `f64` arithmetic (`F64`).

The source's comments promise that the imbalance and the signal lie in `[-1.0, 1.0]`. Both hold
of every features record the engine ever holds, whatever the smoothing factor, NaN included
(`Reachable.inRange`). The imbalance needs the quantities to be exact in `f64` and the quotient
to round to no more than one (`F64.div_inUnitRange`); the signal only needs the imbalance not to
be NaN, since the final clamp does the rest (`calculateTradeSignalFromFeatures_inUnitRange`).
-/

namespace LowLatencyTrading

/-- `TickerFeatures::new`. -/
def TickerFeatures.new (tickerId : TickerId) : TickerFeatures :=
  ⟨tickerId, 0, 0, 0, F64.zero, F64.zero⟩

/-- What the engine keeps of each features record: imbalance and trade signal in
`[-1.0, 1.0]`, and a spread that fits its `i64`. -/
structure TickerFeatures.InRange (f : TickerFeatures) : Prop where
  imbalance : f.imbalance.InUnitRange
  tradeSignal : f.tradeSignal.InUnitRange
  spread : f.spread < 2 ^ 63

theorem TickerFeatures.inRange_new (t : TickerId) : (TickerFeatures.new t).InRange :=
  ⟨F64.zero_inUnitRange, F64.zero_inUnitRange, by norm_num [TickerFeatures.new]⟩

/-- `FeatureEngine`. -/
structure FeatureEngine where
  features : HashMap TickerId TickerFeatures
  fairValueAlpha : F64

namespace FeatureEngine

/-- `DEFAULT_FAIR_VALUE_ALPHA`: `0.1`. -/
def defaultFairValueAlpha : F64 := F64.lit 1 10

/-- `FeatureEngine::new`. -/
def new : FeatureEngine := ⟨∅, defaultFairValueAlpha⟩

/-- `with_alpha`: the factor clamped to `[0.0, 1.0]`. -/
def withAlpha (fairValueAlpha : F64) : FeatureEngine :=
  ⟨∅, fairValueAlpha.clamp F64.zero F64.one⟩

/-- `calculate_imbalance`. -/
def calculateImbalance (bbo : BBO) : F64 :=
  let bidQty := F64.ofNat bbo.bidQty
  let askQty := F64.ofNat bbo.askQty
  let totalQty := bidQty.add askQty
  if totalQty.eq F64.zero then F64.zero else (bidQty.sub askQty).div totalQty

/-- `calculate_trade_signal_from_features`. -/
def calculateTradeSignalFromFeatures (features : TickerFeatures) : F64 :=
  if !features.isValid || features.spread ≤ 0 then F64.zero
  else
    let fvDeviation := F64.ofInt (i64Wrap (features.fairValue - features.midPrice))
    let spreadF64 := F64.ofInt features.spread
    let fvSignal := (fvDeviation.div spreadF64).clamp F64.one.neg F64.one
    let combinedSignal :=
      ((F64.lit 7 10).mul fvSignal).add ((F64.lit 3 10).mul features.imbalance)
    combinedSignal.clamp F64.one.neg F64.one

/-- `on_bbo_update`: nothing for an invalid BBO; otherwise the ticker's features, created by
`TickerFeatures::new` if absent, recomputed from the BBO. -/
def onBboUpdate (fe : FeatureEngine) (tickerId : TickerId) (bbo : BBO) : FeatureEngine :=
  if !bbo.isValid then fe
  else
    let features := (fe.features.lookup tickerId).getD (TickerFeatures.new tickerId)
    let midPrice := (i64Wrap (bbo.bidPrice + bbo.askPrice)).tdiv 2
    let fairValue :=
      if features.fairValue = 0 then midPrice
      else
        let newFv := (fe.fairValueAlpha.mul (F64.ofInt midPrice)).add
          ((F64.one.sub fe.fairValueAlpha).mul (F64.ofInt features.fairValue))
        newFv.round.toI64
    let features := { features with
      midPrice := midPrice, fairValue := fairValue,
      spread := i64Wrap (bbo.askPrice - bbo.bidPrice), imbalance := calculateImbalance bbo }
    let features := { features with tradeSignal := calculateTradeSignalFromFeatures features }
    { fe with features := fe.features.insert tickerId features }

/-- `get_features`. -/
def getFeatures (fe : FeatureEngine) (tickerId : TickerId) : Option TickerFeatures :=
  fe.features.lookup tickerId

/-- `calculate_trade_signal`: `0.0` for a ticker without features. -/
def calculateTradeSignal (fe : FeatureEngine) (tickerId : TickerId) : F64 :=
  match fe.features.lookup tickerId with
  | some features => calculateTradeSignalFromFeatures features
  | none => F64.zero

/-- `reserve_tickers`: `entry(ticker_id).or_insert_with(|| TickerFeatures::new(ticker_id))`. -/
def reserveTickers (fe : FeatureEngine) (tickers : List TickerId) : FeatureEngine :=
  { fe with features := tickers.foldl (fun m t => m.orInsert t (TickerFeatures.new t)) fe.features }

/-- `clear`. -/
def clear (fe : FeatureEngine) : FeatureEngine := { fe with features := ∅ }

/-- `set_fair_value_alpha`: clamped to `[0.0, 1.0]`. -/
def setFairValueAlpha (fe : FeatureEngine) (alpha : F64) : FeatureEngine :=
  { fe with fairValueAlpha := alpha.clamp F64.zero F64.one }

/-! ## The imbalance -/

section Imbalance

open F64

variable {b a : Nat}

/-- The sum of two exact integers below `2^52` is exact. -/
theorem add_ofNat (hb : b < 2 ^ 52) (ha : a < 2 ^ 52) :
    (ofNat b).add (ofNat a) = fin false ((b + a) * unit) := by
  rw [ofNat_of_lt (by omega), ofNat_of_lt (by omega)]
  simp only [add, signed_false, ← Nat.cast_add, ← Nat.add_mul, Nat.cast_eq_zero,
    Int.natAbs_ofNat, roundUnits_mul_unit (show b + a < 2 ^ 53 by omega), ofUnits]
  split_ifs with h
  · rw [Nat.mul_eq_zero.mp h |>.resolve_right unit_pos.ne', Nat.zero_mul, Bool.and_self]
  · simp only [fin.injEq, decide_eq_false_iff_not, not_lt, and_true]
    exact_mod_cast Nat.zero_le _

/-- The difference of two exact integers below `2^52` is exact, and no larger than their sum. -/
theorem sub_ofNat (hb : b < 2 ^ 52) (ha : a < 2 ^ 52) :
    ∃ s d, (ofNat b).sub (ofNat a) = fin s (d * unit) ∧ d ≤ b + a := by
  rw [ofNat_of_lt (by omega), ofNat_of_lt (by omega)]
  have hab : ((b * unit : Nat) : Int) + -((a * unit : Nat) : Int) =
      ((b : Int) - a) * (unit : Nat) := by push_cast; ring
  simp only [sub, neg, add, Bool.not_false, signed_false, signed_true, hab, mul_eq_zero,
    Nat.cast_eq_zero, unit_pos.ne', or_false, Int.natAbs_mul, Int.natAbs_ofNat]
  split_ifs with h
  · exact ⟨_, 0, by rw [Nat.zero_mul], Nat.zero_le _⟩
  · rw [roundUnits_mul_unit (by omega)]
    exact ⟨_, _, rfl, by omega⟩

/-- **The imbalance lies in `[-1.0, 1.0]`** for quantities that fit their `u32`. -/
theorem calculateImbalance_inUnitRange {bbo : BBO} (hb : bbo.bidQty < 2 ^ 32)
    (ha : bbo.askQty < 2 ^ 32) : (calculateImbalance bbo).InUnitRange := by
  have hb' : bbo.bidQty < 2 ^ 52 := hb.trans (by norm_num)
  have ha' : bbo.askQty < 2 ^ 52 := ha.trans (by norm_num)
  obtain ⟨s, d, hd, hle⟩ := sub_ofNat hb' ha'
  simp only [calculateImbalance, add_ofNat hb' ha', hd]
  split_ifs with h0
  · decide
  · have hT : (bbo.bidQty + bbo.askQty) * unit ≠ 0 := by
      rintro hT
      simp [eq, le, zero, hT] at h0
    exact div_inUnitRange (Nat.mul_le_mul_right _ hle) hT

end Imbalance

/-! ## The trade signal -/

theorem lit_seven_tenths : ∃ k, F64.lit 7 10 = .fin false k ∧ k ≤ F64.unit := ⟨_, rfl, by decide⟩

theorem lit_three_tenths : ∃ k, F64.lit 3 10 = .fin false k ∧ k ≠ 0 := ⟨_, rfl, by decide⟩

/-- **The trade signal lies in `[-1.0, 1.0]`** when the imbalance is not NaN and the spread fits
its `i64`: the deviation over the spread is clamped, its weighted sum with the imbalance is not
NaN, and the sum is clamped. -/
theorem calculateTradeSignalFromFeatures_inUnitRange {f : TickerFeatures}
    (hi : f.imbalance ≠ .nan) (hs : f.spread < 2 ^ 63) :
    (calculateTradeSignalFromFeatures f).InUnitRange := by
  unfold calculateTradeSignalFromFeatures
  split_ifs with h
  · decide
  · simp only [Bool.or_eq_true, Bool.not_eq_true', decide_eq_true_eq, not_or, not_le] at h
    obtain ⟨S, hS, hS0⟩ := F64.ofInt_pos h.2 hs
    have hsig := F64.clamp_inUnitRange (F64.div_ne_nan (F64.ofUnits_ne_nan _ _) hS0.ne' :
      (F64.ofInt (i64Wrap (f.fairValue - f.midPrice))).div (.fin false S) ≠ .nan)
    rw [← hS] at hsig
    obtain ⟨sg, m, hfv, hm⟩ := F64.inUnitRange_iff.mp hsig
    obtain ⟨k₇, h₇, hk₇⟩ := lit_seven_tenths
    obtain ⟨k₃, h₃, hk₃⟩ := lit_three_tenths
    obtain ⟨v, hv⟩ := F64.mul_fin_of_le (a := false) (b := sg) hk₇ hm
    simp only [hfv, h₇, hv, h₃]
    exact F64.clamp_inUnitRange (F64.add_ne_nan (F64.mul_ne_nan hk₃ hi))

/-! ## Every run -/

/-- Every features record the engine holds is in range. -/
def InRange (fe : FeatureEngine) : Prop := ∀ t f, fe.features.lookup t = some f → f.InRange

variable {fe : FeatureEngine}

theorem InRange.onBboUpdate (h : fe.InRange) {bbo : BBO} (hb : bbo.bidQty < 2 ^ 32)
    (ha : bbo.askQty < 2 ^ 32) (t : TickerId) : (fe.onBboUpdate t bbo).InRange := by
  have himb := calculateImbalance_inUnitRange hb ha
  have hs := (i64Wrap_mem (bbo.askPrice - bbo.bidPrice)).2
  unfold FeatureEngine.onBboUpdate
  split_ifs
  · exact h
  · intro t' f hf
    by_cases ht : t' = t
    · subst ht
      simp only [AList.lookup_insert, Option.some.injEq] at hf
      subst hf
      exact ⟨himb, calculateTradeSignalFromFeatures_inUnitRange himb.ne_nan hs, hs⟩
    · rw [AList.lookup_insert_ne ht] at hf
      exact h t' f hf

theorem InRange.reserveTickers (h : fe.InRange) (tickers : List TickerId) :
    (fe.reserveTickers tickers).InRange := by
  induction tickers generalizing fe with
  | nil => exact h
  | cons t ts ih =>
    refine @ih { fe with features := fe.features.orInsert t (TickerFeatures.new t) } ?_
    intro t' f hf
    rw [AList.lookup_orInsert] at hf
    split_ifs at hf with ht
    · subst ht
      cases hl : fe.features.lookup t' with
      | none => rw [hl, Option.getD_none, Option.some.injEq] at hf; exact hf ▸ TickerFeatures.inRange_new t'
      | some g => rw [hl, Option.getD_some, Option.some.injEq] at hf; exact hf ▸ h t' g hl
    · exact h t' f hf

/-- The engine's states: built by `new` or `with_alpha`, then any calls, each BBO with
quantities that fit their `u32`. -/
inductive Reachable : FeatureEngine → Prop
  | new : Reachable new
  | withAlpha (alpha : F64) : Reachable (withAlpha alpha)
  | onBboUpdate {fe : FeatureEngine} (tickerId : TickerId) (bbo : BBO) :
      bbo.bidQty < 2 ^ 32 → bbo.askQty < 2 ^ 32 → Reachable fe →
      Reachable (fe.onBboUpdate tickerId bbo)
  | reserveTickers {fe : FeatureEngine} (tickers : List TickerId) : Reachable fe →
      Reachable (fe.reserveTickers tickers)
  | clear {fe : FeatureEngine} : Reachable fe → Reachable fe.clear
  | setFairValueAlpha {fe : FeatureEngine} (alpha : F64) : Reachable fe →
      Reachable (fe.setFairValueAlpha alpha)

/-- **Imbalance and signal stay in `[-1.0, 1.0]`.** In every run of the feature engine, with any
smoothing factor, NaN and infinities included, every features record it holds has its imbalance
and its trade signal in `[-1.0, 1.0]`, neither NaN. -/
theorem Reachable.inRange (h : Reachable fe) : fe.InRange := by
  induction h with
  | new | withAlpha => intro t f hf; cases hf
  | onBboUpdate t bbo hb ha _ ih => exact ih.onBboUpdate hb ha t
  | reserveTickers ts _ ih => exact ih.reserveTickers ts
  | clear => intro t f hf; cases hf
  | setFairValueAlpha _ _ ih => exact ih

theorem two_updates_inRange :
    (((withAlpha (F64.lit 5 10)).onBboUpdate 1 ⟨100, 10, 102, 20⟩).onBboUpdate 1
      ⟨104, 30, 105, 3⟩).InRange :=
  Reachable.inRange (.onBboUpdate 1 _ (by decide) (by decide)
    (.onBboUpdate 1 _ (by decide) (by decide) (.withAlpha _)))

/-- `calculate_trade_signal` on a reachable engine lies in `[-1.0, 1.0]`. -/
theorem Reachable.calculateTradeSignal (h : Reachable fe) (t : TickerId) :
    (fe.calculateTradeSignal t).InUnitRange := by
  unfold FeatureEngine.calculateTradeSignal
  split
  · rename_i f hf
    have hr := h.inRange t f hf
    exact calculateTradeSignalFromFeatures_inUnitRange hr.imbalance.ne_nan hr.spread
  · decide

end FeatureEngine

end LowLatencyTrading
