import Solvency.Proofs.Accepted
import Solvency.Proofs.Fraction
import Solvency.Proofs.Overflow
import Solvency.Settings.Basic

/-! Factors of borrows. The settings bound the ratios that borrows have to be covered at, validation
bounds the weights, and neither looks at the other: the quotient of the two, less one whole, may leave
the range of factors at either end. It does so where the weight goes into the ratio too often or not
often enough, and nothing else keeps an asset from having its factors. -/
namespace Solvency

/-- The fractions whose factor a choice forms for a borrow; the cancel check takes the initial one. -/
def FactorChoice.charged : FactorChoice → List FractionKind
  | .initial | .cancel => [.initial]
  | .maintenance => [.maintenance]
  | .both => [.initial, .maintenance]

theorem FactorChoice.charged_eq (wanted : FactorChoice) : wanted.charged =
    (if wanted.hasInitial || wanted.hasCancel then [.initial] else []) ++
      if wanted.hasMaintenance then [.maintenance] else [] := by
  cases wanted <;> rfl

/-- Settings that pass their check bound the ratios of every fraction. -/
theorem Settings.ratio_bounds {given c : Settings} (built : given.checked = .ok c)
    (kind : FractionKind) : 0 ≤ Exact.ratio kind c.requirements ∧
      Exact.ratio kind c.requirements ≤ greatestRequirement := by
  obtain ⟨⟨⟨above, ordered, bounded⟩, _, _⟩, rfl⟩ := Settings.checked_eq_ok.mp built
  cases kind
  all_goals
    simp only [Exact.ratio]
    omega

namespace CollateralTerms

/-- The ratio over the weight, less one whole, rounds up to a factor in range. -/
def FactorFits (c : CollateralTerms) (ratio : Int) : Prop :=
  (oneWhole - 1) * c.weight < ratio ∧ ratio ≤ (Width.u16.hi + oneWhole) * c.weight

instance (c : CollateralTerms) (ratio : Int) : Decidable (c.FactorFits ratio) :=
  inferInstanceAs (Decidable (_ ∧ _))

/-- The factor of a fraction is out of range, and refused for that. -/
def FactorOverflow (c : CollateralTerms) (required : Requirements) (kind : FractionKind)
    (f : Fault) : Prop :=
  ¬ c.FactorFits (Exact.ratio kind required) ∧
    f = .margin (.overflow .u16 (Exact.assetFactor kind required c.weight))

variable {c : CollateralTerms} {required : Requirements} {ratio : Int}

theorem factorFits_iff (positive : 0 < c.weight) :
    c.FactorFits ratio ↔ Width.u16.Holds (⌈(ratio / c.weight : ℚ)⌉ - oneWhole) := by
  have divisor : (0 : ℚ) < c.weight := by exact_mod_cast positive
  have lower : (oneWhole - 1) * c.weight < ratio ↔ oneWhole - 1 < ⌈(ratio / c.weight : ℚ)⌉ := by
    rw [Int.lt_ceil, lt_div_iff₀ divisor]
    exact_mod_cast Iff.rfl
  have upper : ratio ≤ (Width.u16.hi + oneWhole) * c.weight ↔
      ⌈(ratio / c.weight : ℚ)⌉ ≤ Width.u16.hi + oneWhole := by
    rw [Int.ceil_le, div_le_iff₀ divisor]
    exact_mod_cast Iff.rfl
  rw [FactorFits, lower, upper]
  simp only [Width.Holds, Width.lo]
  omega

theorem quotient_bounds (positive : 0 < c.weight) (nonneg : 0 ≤ ratio) :
    0 ≤ ⌈(ratio / c.weight : ℚ)⌉ ∧ ⌈(ratio / c.weight : ℚ)⌉ ≤ ratio := by
  have one_le : (1 : ℚ) ≤ c.weight := by exact_mod_cast positive
  have ratio_nonneg : (0 : ℚ) ≤ ratio := by exact_mod_cast nonneg
  exact ⟨Int.ceil_nonneg (by positivity), Int.ceil_le.mpr (div_le_self ratio_nonneg one_le)⟩

/-- The factor for a ratio that the settings allow fits, or is refused as out of range. -/
theorem spot_ends (positive : 0 < c.weight) (kind : FractionKind)
    (bounds : 0 ≤ Exact.ratio kind required ∧ Exact.ratio kind required ≤ greatestRequirement) :
    Ends (c.FactorOverflow required kind)
      (fun r => c.FactorFits (Exact.ratio kind required) ∧
        r = Exact.assetFactor kind required c.weight)
      (Factor.spot (Exact.ratio kind required) c.weight) := by
  obtain ⟨nonneg, bounded⟩ := bounds
  obtain ⟨least, greatest⟩ := quotient_bounds positive nonneg
  rw [greatestRequirement] at bounded
  have quotient : Width.i64.Holds ⌈(Exact.ratio kind required / c.weight : ℚ)⌉ := by
    simp only [Width.Holds, Width.lo, Width.hi]
    omega
  have writable : Writable (Exact.assetFactor kind required c.weight) :=
    quotient.short.sub short_oneWhole
  rw [Factor.spot, Width.ceilDiv_eq_ok.mpr ⟨positive.ne', quotient, rfl⟩, ok_bind]
  by_cases fits : c.FactorFits (Exact.ratio kind required)
  · rw [Width.sub_eq_ok.mpr ⟨(factorFits_iff positive).mp fits, rfl⟩]
    exact ⟨fits, rfl⟩
  · rw [Width.sub]
    have out := mt (factorFits_iff positive).mpr fits
    rw [Width.check_overflow out writable]
    exact ⟨fits, rfl⟩

/-- One of the factors of a borrow, where it is asked for. -/
theorem asked_ends (asked : Bool) (positive : 0 < c.weight) (kind : FractionKind)
    (bounds : 0 ≤ Exact.ratio kind required ∧ Exact.ratio kind required ≤ greatestRequirement) :
    Ends (fun f => asked = true ∧ c.FactorOverflow required kind f)
      (fun r => (asked = true → c.FactorFits (Exact.ratio kind required)) ∧
        r.toList = if asked then [Exact.assetFactor kind required c.weight] else [])
      (if asked then some <$> Factor.spot (Exact.ratio kind required) c.weight else pure none) := by
  cases asked with
  | false => exact ⟨nofun, rfl⟩
  | true =>
    refine Ends.map ((spot_ends positive kind bounds).faults fun f fault => ⟨rfl, fault⟩) ?_
    rintro r ⟨fits, rfl⟩
    exact ⟨fun _ => fits, rfl⟩

theorem borrowFactors_eq (c : CollateralTerms) (wanted : FactorChoice) (required : Requirements) :
    c.borrowFactors wanted required =
      (if wanted.hasInitial || wanted.hasCancel then
        some <$> Factor.spot (Exact.ratio .initial required) c.weight else pure none) >>= fun initial =>
      (if wanted.hasMaintenance then
        some <$> Factor.spot (Exact.ratio .maintenance required) c.weight else pure none) >>=
      fun maintenance => pure (initial, maintenance) := by
  cases wanted <;> rfl

/-- What a choice asks for is formed if all of it fits; what does not fit is refused. -/
theorem borrowFactors_ends (positive : 0 < c.weight) (wanted : FactorChoice)
    (bounds : ∀ kind, 0 ≤ Exact.ratio kind required ∧
      Exact.ratio kind required ≤ greatestRequirement) :
    Ends (fun f => ∃ kind ∈ wanted.charged, c.FactorOverflow required kind f)
      (fun factors => (∀ kind ∈ wanted.charged, c.FactorFits (Exact.ratio kind required)) ∧
        factors.1.toList ++ factors.2.toList =
          wanted.charged.map fun kind => Exact.assetFactor kind required c.weight)
      (c.borrowFactors wanted required) := by
  have initial := asked_ends (wanted.hasInitial || wanted.hasCancel) positive .initial
    (bounds .initial)
  have maintenance := asked_ends wanted.hasMaintenance positive .maintenance
    (bounds .maintenance)
  rw [borrowFactors_eq, FactorChoice.charged_eq]
  generalize (wanted.hasInitial || wanted.hasCancel) = initially at *
  generalize wanted.hasMaintenance = maintained at *
  refine (initial.faults ?_).bind fun first ⟨fits, listed⟩ =>
    (maintenance.faults ?_).bind fun second ⟨fits', listed'⟩ => ?_
  · rintro f ⟨asked, fault⟩
    exact ⟨.initial, by simp [asked], fault⟩
  · rintro f ⟨asked, fault⟩
    exact ⟨.maintenance, by simp [asked], fault⟩
  · refine ⟨?_, ?_⟩
    · rw [List.forall_mem_append]
      exact ⟨by simpa using fits, by simpa using fits'⟩
    · rw [List.map_append, listed, listed']
      cases initially <;> cases maintained <;> rfl

/-- A choice that charges one fraction is refused where the factor of that fraction does not fit. -/
theorem borrowFactors_overflow (positive : 0 < c.weight) {wanted : FactorChoice}
    {kind : FractionKind} (only : wanted.charged = [kind])
    (bounds : ∀ kind, 0 ≤ Exact.ratio kind required ∧
      Exact.ratio kind required ≤ greatestRequirement)
    (missed : ¬ c.FactorFits (Exact.ratio kind required)) :
    c.borrowFactors wanted required =
      .error (.margin (.overflow .u16 (Exact.assetFactor kind required c.weight))) := by
  have ends := borrowFactors_ends positive wanted bounds
  rw [only] at ends
  cases ended : c.borrowFactors wanted required with
  | ok factors => exact absurd ((ends.result ended).1 kind (List.mem_singleton_self kind)) missed
  | error f =>
    obtain ⟨kind', member, _, rfl⟩ := ends.fault ended
    rw [List.mem_singleton.mp member]

end CollateralTerms

namespace Snapshot

variable {s : Snapshot} {realized : Int} {wanted : FactorChoice} {required : Requirements}

/-- A borrow that has its slot and its notional, so that only its factors are left to form. -/
def Valued (s : Snapshot) (realized : Int) (x : Nat × Int) : Prop :=
  s.collateralAt x.1 = .ok (Exact.asset s x.1) ∧
    ∃ notional, s.borrowNotional (Exact.asset s x.1) realized x.1 x.2 = .ok notional

/-- The fold over valued borrows is refused for nothing but a factor that does not fit. -/
theorem borrowTotals_ends_of_valued (wanted : FactorChoice) (accepted : s.violations = [])
    (bounds : ∀ kind, 0 ≤ Exact.ratio kind required ∧
      Exact.ratio kind required ≤ greatestRequirement)
    (valued : ∀ x ∈ Exact.borrows s, s.Valued realized x) :
    Ends (fun f => ∃ x ∈ Exact.borrows s, ∃ kind ∈ wanted.charged,
        (Exact.asset s x.1).terms.FactorOverflow required kind f)
      (fun _ => True) (s.borrowTotals realized wanted required) := by
  refine Ends.foldlM trivial fun b x member _ => ?_
  obtain ⟨j, raw⟩ := x
  obtain ⟨found, notional, priced⟩ := valued (j, raw) member
  have positive := (weight_of_accepted accepted (mem_borrows.mp member).1 found).1
  have factors := CollateralTerms.borrowFactors_ends positive wanted bounds
  simp only [found, priced, ok_bind]
  refine (factors.faults fun f fault => ⟨(j, raw), member, fault⟩).bind fun _ _ => ?_
  trivial

/-- A fold that comes to its end formed a factor in range at every borrow. -/
theorem factorFits_of_borrowTotals {b : BorrowTotals} (accepted : s.violations = [])
    (bounds : ∀ kind, 0 ≤ Exact.ratio kind required ∧
      Exact.ratio kind required ≤ greatestRequirement)
    (done : s.borrowTotals realized wanted required = .ok b) :
    ∀ x ∈ Exact.borrows s, ∀ kind ∈ wanted.charged,
      (Exact.asset s x.1).terms.FactorFits (Exact.ratio kind required) := by
  refine forall_of_foldlM (fun b b' x member step => ?_) done
  obtain ⟨c, found, step⟩ := bind_eq_ok.mp step
  obtain ⟨notional, _, step⟩ := bind_eq_ok.mp step
  obtain ⟨factors, factored, _⟩ := bind_eq_ok.mp step
  obtain rfl := collateralAt_exact found
  have positive := (weight_of_accepted accepted (mem_borrows.mp member).1 found).1
  exact ((CollateralTerms.borrowFactors_ends positive wanted bounds).result factored).1

/-- Under valid settings, an active asset of an accepted snapshot has the factors that a choice asks for
exactly if all of them fit. Otherwise one that does not fit is refused as out of range; nothing else
keeps the asset from having its factors. Borrows that are valued are folded to the end, likewise,
exactly if the factors of all of them fit. -/
theorem borrowFactors_returns_iff (given c : Settings) (built : given.checked = .ok c)
    (s : Snapshot) (accepted : s.violations = []) (wanted : FactorChoice) :
    (∀ (j : Nat) (terms : CollateralTerms), (j : Int) < s.collateralCount →
      s.collaterals[j]? = some (some terms) →
      ((∃ factors, terms.borrowFactors wanted c.requirements = .ok factors) ↔
        ∀ kind ∈ wanted.charged, terms.FactorFits (Exact.ratio kind c.requirements)) ∧
      (∀ factors, terms.borrowFactors wanted c.requirements = .ok factors →
        factors.1.toList ++ factors.2.toList =
          wanted.charged.map fun kind => Exact.assetFactor kind c.requirements terms.weight) ∧
      ∀ f, terms.borrowFactors wanted c.requirements = .error f →
        ∃ kind ∈ wanted.charged, terms.FactorOverflow c.requirements kind f) ∧
    ∀ realized, (∀ x ∈ Exact.borrows s, s.Valued realized x) →
      ((∃ b, s.borrowTotals realized wanted c.requirements = .ok b) ↔
        ∀ x ∈ Exact.borrows s, ∀ kind ∈ wanted.charged,
          (Exact.asset s x.1).terms.FactorFits (Exact.ratio kind c.requirements)) ∧
      ∀ f, s.borrowTotals realized wanted c.requirements = .error f →
        ∃ x ∈ Exact.borrows s, ∃ kind ∈ wanted.charged,
          (Exact.asset s x.1).terms.FactorOverflow c.requirements kind f := by
  have bounds := Settings.ratio_bounds built
  constructor
  · intro j terms active held
    have positive := (weight_of_active accepted active held).1
    have ends := CollateralTerms.borrowFactors_ends positive wanted bounds
    refine ⟨ends.returns_iff (fun _ formed => formed.1) ?_,
      fun factors done => (ends.result done).2, fun f => ends.fault⟩
    rintro f ⟨kind, asked, missed, _⟩ fits
    exact missed (fits kind asked)
  · intro realized valued
    have ends := borrowTotals_ends_of_valued wanted accepted bounds valued
    refine ⟨ends.run.returns_iff ?_ ?_, fun f => ends.fault⟩
    · rintro b ⟨done, _⟩
      exact factorFits_of_borrowTotals accepted bounds done
    · rintro f ⟨x, member, kind, asked, missed, _⟩ fits
      exact missed (fits x member kind asked)

theorem borrowFactors_returns_iff_sample :
    Settings.checked {} = .ok {} ∧ sample.violations = [] ∧
    (∃ factors, CollateralTerms.borrowFactors ⟨"eth", "ETH", 900, 10⟩ .both {} = .ok factors) ∧
    (∀ x ∈ Exact.borrows sample, sample.Valued 0 x) ∧
    ∃ b, sample.borrowTotals 0 .both {} = .ok b := by
  have built : Settings.checked {} = .ok {} := rfl
  have accepted : sample.violations = [] := by decide
  obtain ⟨asset, folded⟩ := borrowFactors_returns_iff {} {} built sample accepted .both
  have fits : ∀ kind ∈ FactorChoice.both.charged, CollateralTerms.FactorFits
      ⟨"eth", "ETH", 900, 10⟩ (Exact.ratio kind {}) := by decide
  have owed : Exact.borrows sample = [(0, -50500000000000), (2, -2000000000000)] := by decide
  have valued : ∀ x ∈ Exact.borrows sample, sample.Valued 0 x := by
    have usd : Exact.asset sample 0 =
        ⟨⟨"usd", "USD", 1000, 0⟩, { borrow := 1010000000000 }⟩ := rfl
    have eth : Exact.asset sample 2 =
        ⟨⟨"eth", "ETH", 900, 10⟩, { borrow := 1020000000000 }⟩ := rfl
    rw [owed, List.forall_mem_cons, List.forall_mem_singleton]
    refine ⟨⟨rfl, 52, ?_⟩, rfl, 64, ?_⟩
    · rw [usd]
      cbv
    · rw [eth]
      cbv
  have all_fit : ∀ x ∈ Exact.borrows sample, ∀ kind ∈ FactorChoice.both.charged,
      (Exact.asset sample x.1).terms.FactorFits (Exact.ratio kind {}) := by decide
  exact ⟨built, accepted, (asset 2 _ (by decide) rfl).1.mpr fits, valued,
    (folded 0 valued).1.mpr all_fit⟩

/-- A debt in an asset of a low weight. -/
def lowWeight : Snapshot where
  account := { balances := [-1000000000000] }
  collaterals := [some { mint := "usd", feed := "USD", weight := 16 }]
  accruals := [{}]
  prices := ⟨[⟨"USD", 1000000000000⟩]⟩
  collateralCount := 1

/-- Settings that ask borrows to be covered at less than their value. -/
def lenient : Settings where
  requirements := { initial := 900000, maintenance := 900000 }

/-- The factor for a low weight is above the range of factors, that for a full weight at a low ratio
is below it. A borrow that is valued fails for its factor then. -/
theorem borrowFactors_not_total :
    Settings.checked {} = .ok {} ∧ lowWeight.violations = [] ∧
    CollateralTerms.borrowFactors ⟨"usd", "USD", 16, 0⟩ .initial {} =
      .error (.margin (.overflow .u16 67750)) ∧
    (∀ x ∈ Exact.borrows lowWeight, lowWeight.Valued 0 x) ∧
    (∀ b, lowWeight.borrowTotals 0 .initial {} ≠ .ok b) ∧
    lenient.checked = .ok lenient ∧ sample.violations = [] ∧
    sample.collaterals[0]? = some (some ⟨"usd", "USD", 1000, 0⟩) ∧
    CollateralTerms.borrowFactors ⟨"usd", "USD", 1000, 0⟩ .maintenance lenient.requirements =
      .error (.margin (.overflow .u16 (-100))) := by
  have built : Settings.checked {} = .ok {} := rfl
  have built' : lenient.checked = .ok lenient := rfl
  have accepted : lowWeight.violations = [] := by decide
  have above : CollateralTerms.borrowFactors ⟨"usd", "USD", 16, 0⟩ .initial {} =
      .error (.margin (.overflow .u16 67750)) := by
    rw [CollateralTerms.borrowFactors_overflow (by decide) rfl (Settings.ratio_bounds built)
      (by decide)]
    norm_num [Exact.assetFactor, Exact.ratio, oneWhole]
  have below : CollateralTerms.borrowFactors ⟨"usd", "USD", 1000, 0⟩ .maintenance
      lenient.requirements = .error (.margin (.overflow .u16 (-100))) := by
    rw [CollateralTerms.borrowFactors_overflow (by decide) rfl (Settings.ratio_bounds built')
      (by decide)]
    norm_num [Exact.assetFactor, Exact.ratio, oneWhole, lenient]
  have owed : Exact.borrows lowWeight = [(0, -1000000000000)] := by decide
  have valued : ∀ x ∈ Exact.borrows lowWeight, lowWeight.Valued 0 x := by
    have usd : Exact.asset lowWeight 0 = ⟨⟨"usd", "USD", 16, 0⟩, {}⟩ := rfl
    rw [owed, List.forall_mem_singleton]
    refine ⟨rfl, 1, ?_⟩
    rw [usd]
    cbv
  have fails : ∀ b, lowWeight.borrowTotals 0 .initial {} ≠ .ok b := by
    intro b done
    have fits := factorFits_of_borrowTotals accepted (Settings.ratio_bounds built) done
    exact absurd fits (by decide)
  exact ⟨built, accepted, above, valued, fails, built', by decide, rfl, below⟩

end Snapshot
end Solvency
