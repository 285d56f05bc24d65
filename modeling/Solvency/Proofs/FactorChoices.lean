import Solvency.Proofs.Fraction
import Solvency.Proofs.Overflow

/-! The choice of factors. It decides which vectors of factors the folds collect, and nothing else: a
run that collects fewer is the run that collects more, seen without the others. Only the cancel factor
can leave its range where the base factor is in it, so that a run for the cancel check may fail where
the others succeed. -/
namespace Solvency

theorem FactorChoice.hasCancel_iff {wanted : FactorChoice} :
    wanted.hasCancel = true ↔ wanted = .cancel := by
  cases wanted <;> simp [hasCancel]

namespace PerpTotals

/-- The totals with the vectors of factors that a choice asks for, and no others. -/
def only (wanted : FactorChoice) (t : PerpTotals) : PerpTotals :=
  { t with
    initialFactors := if wanted.hasInitial then t.initialFactors else []
    maintenanceFactors := if wanted.hasMaintenance then t.maintenanceFactors else []
    cancelFactors := if wanted.hasCancel then t.cancelFactors else [] }

/-- What two runs have in common: all but factors, and the factors that both of them collect. -/
structure Agree (wanted wanted' : FactorChoice) (t t' : PerpTotals) : Prop where
  accountValue : t'.accountValue = t.accountValue
  hasExposure : t'.hasExposure = t.hasExposure
  realized : t'.realized = t.realized
  filledNotionals : t'.filledNotionals = t.filledNotionals
  heldNotionals : t'.heldNotionals = t.heldNotionals
  initialFactors : wanted.hasInitial → wanted'.hasInitial → t'.initialFactors = t.initialFactors
  maintenanceFactors : wanted.hasMaintenance → wanted'.hasMaintenance →
    t'.maintenanceFactors = t.maintenanceFactors

/-- Every vector has one entry per active position, in their order; vectors of factors that are not
asked for are empty. -/
structure Aligned (s : Snapshot) (wanted : FactorChoice) (t : PerpTotals) : Prop where
  filledNotionals : t.filledNotionals =
    s.positions.map fun (i, p) => Exact.filled p (Exact.market s i).mark
  heldNotionals : t.heldNotionals =
    s.positions.map fun (i, p) => Exact.held p (Exact.market s i).mark
  initialFactors : t.initialFactors = if wanted.hasInitial then
    s.positions.map fun (i, _) => Exact.marketFactor .initial (Exact.market s i).terms.baseFactor
    else []
  maintenanceFactors : t.maintenanceFactors = if wanted.hasMaintenance then
    s.positions.map fun (i, _) => Exact.marketFactor .maintenance (Exact.market s i).terms.baseFactor
    else []
  cancelFactors : t.cancelFactors = if wanted.hasCancel then
    s.positions.map fun (i, _) => Exact.marketFactor .cancel (Exact.market s i).terms.baseFactor
    else []

variable {wanted wanted' : FactorChoice} {t t' r : PerpTotals} {p : Position} {m : MarketSlot}

/-- Without a cancel factor, what a step appends does not decide how it ends. -/
theorem add_only (plain : wanted ≠ .cancel) (t : PerpTotals) (p : Position) (m : MarketSlot) :
    (t.only wanted).add p m wanted = only wanted <$> t.add p m .both := by
  simp only [add, map_bind]
  refine bind_congr_of_ok fun value _ => bind_congr_of_ok fun held _ => ?_
  refine bind_congr_of_ok fun filled _ => bind_congr_of_ok fun base checked => ?_
  have half : Factor.maintenance base = .ok (base / 2) :=
    Factor.maintenance_eq_ok.mpr ⟨(Width.check_eq_ok.mp checked).1, rfl⟩
  cases wanted with
  | cancel => contradiction
  | initial | maintenance | both =>
    simp [appended, only, half, FactorChoice.hasInitial, FactorChoice.hasMaintenance,
      FactorChoice.hasCancel]

/-- Totals that a step for the same factors fails or succeeds from alike. -/
structure Level (t t' : PerpTotals) : Prop where
  accountValue : t'.accountValue = t.accountValue
  realized : t'.realized = t.realized

theorem appended_cancel_ends {base : Int} (held : Width.u16.Holds base) (wanted : Bool)
    (factors : List Int) :
    Ends (fun f => wanted = true ∧ Factor.CancelOverflow base f)
      (fun _ => wanted = true → base * 5 ≤ Width.u16.hi)
      (appended wanted factors (Factor.cancel base)) := by
  cases wanted with
  | false => exact fun asked => nomatch asked
  | true =>
    refine Ends.bind ((Factor.cancel_ends_overflow held).faults fun f fault => ⟨rfl, fault⟩) ?_
    exact fun _ fits _ => fits

/-- Where a step succeeds for one choice, with another one it can only fail for its cancel factor. -/
theorem add_along (level : Level t t') (done : t.add p m wanted = .ok r) (wanted' : FactorChoice) :
    Ends (fun f => wanted'.hasCancel = true ∧ Factor.CancelOverflow m.terms.baseFactor f)
      (fun r' => Level r r' ∧ (wanted'.hasCancel = true → m.terms.baseFactor * 5 ≤ Width.u16.hi))
      (t'.add p m wanted') := by
  simp only [add, bind_eq_ok, Width.check_eq_ok, Width.add_eq_ok] at done
  obtain ⟨value, valued, held, heldAt, filled, filledAt, _, ⟨fits, rfl⟩, _, _, _, _, _, _, _,
    ⟨inRange, rfl⟩, made⟩ := done
  cases made
  have checked : Width.u16.check m.terms.baseFactor = .ok m.terms.baseFactor :=
    Width.check_eq_ok.mpr ⟨fits, rfl⟩
  have half : Factor.maintenance m.terms.baseFactor = .ok (m.terms.baseFactor / 2) :=
    Factor.maintenance_eq_ok.mpr ⟨fits, rfl⟩
  have realized : Width.i64.add t.realized p.realized = .ok (t.realized + p.realized) :=
    Width.add_eq_ok.mpr ⟨inRange, rfl⟩
  simp only [add, level.accountValue, level.realized, valued, heldAt, filledAt, checked, half,
    realized, pure, Except.pure, appended_ok, ok_bind]
  exact (appended_cancel_ends fits wanted'.hasCancel t'.cancelFactors).bind
    fun _ scaled => ⟨⟨rfl, rfl⟩, scaled⟩

end PerpTotals

namespace BorrowTotals

/-- What two runs have in common: all but factors, and the factors that both of them collect. The cancel
check weighs borrows with initial factors. -/
structure Agree (wanted wanted' : FactorChoice) (b b' : BorrowTotals) : Prop where
  hasExposure : b'.hasExposure = b.hasExposure
  notionals : b'.notionals = b.notionals
  initialFactors : (wanted.hasInitial || wanted.hasCancel) → (wanted'.hasInitial || wanted'.hasCancel) →
    b'.initialFactors = b.initialFactors
  maintenanceFactors : wanted.hasMaintenance → wanted'.hasMaintenance →
    b'.maintenanceFactors = b.maintenanceFactors

/-- Every vector has one entry per borrow, in their order; vectors of factors that are not asked for
are empty. -/
structure Aligned (s : Snapshot) (realized : Int) (required : Requirements) (wanted : FactorChoice)
    (b : BorrowTotals) : Prop where
  notionals : b.notionals = (Exact.borrows s).map fun (j, raw) => Exact.borrowed s realized j raw
  initialFactors : b.initialFactors = if wanted.hasInitial || wanted.hasCancel then
    (Exact.borrows s).map fun (j, _) =>
      Exact.assetFactor .initial required (Exact.asset s j).terms.weight
    else []
  maintenanceFactors : b.maintenanceFactors = if wanted.hasMaintenance then
    (Exact.borrows s).map fun (j, _) =>
      Exact.assetFactor .maintenance required (Exact.asset s j).terms.weight
    else []

end BorrowTotals

namespace Snapshot

variable {s : Snapshot} {collateral realized : Int} {required : Requirements}
  {wanted wanted' : FactorChoice} {t t' : PerpTotals} {b b' : BorrowTotals}

/-- The vectors of a fold with fewer factors are those of the fold with most of them. -/
theorem perpTotals_only (plain : wanted ≠ .cancel) (s : Snapshot) (collateral : Int) :
    s.perpTotals collateral wanted =
      PerpTotals.only wanted <$> s.perpTotals collateral .both := by
  simp only [perpTotals_eq, map_bind]
  refine bind_congr_of_ok fun value _ => ?_
  have start : PerpTotals.only wanted { accountValue := value } = { accountValue := value } := by
    simp [PerpTotals.only]
  have step (t : PerpTotals) (x : Nat × Position) : s.addPosition wanted (t.only wanted) x =
      PerpTotals.only wanted <$> s.addPosition .both t x := by
    simp only [addPosition, map_bind]
    exact bind_congr_of_ok fun m _ => PerpTotals.add_only plain t x.2 m
  have seen := foldlM_seen (PerpTotals.only wanted) step s.positions { accountValue := value }
  rwa [start] at seen

theorem perpTotals_along (done : s.perpTotals collateral wanted = .ok t) (wanted' : FactorChoice) :
    Ends (fun f => wanted'.hasCancel = true ∧
        ∃ x ∈ s.positions, Factor.CancelOverflow (Exact.market s x.1).terms.baseFactor f)
      (PerpTotals.Level t) (s.perpTotals collateral wanted') := by
  rw [perpTotals_eq] at done ⊢
  obtain ⟨value, checked, run⟩ := bind_eq_ok.mp done
  rw [checked, ok_bind]
  refine Ends.foldlM_along ⟨rfl, rfl⟩ (fun t r t' x member level step => ?_) run
  obtain ⟨m, found, added⟩ := bind_eq_ok.mp step
  obtain rfl := marketAt_exact found
  rw [addPosition, found, ok_bind]
  refine (PerpTotals.add_along level added wanted').imp (fun f fault => ?_) fun _ => And.left
  exact ⟨fault.1, x, member, fault.2⟩

theorem perpTotals_agree (done : s.perpTotals collateral wanted = .ok t)
    (done' : s.perpTotals collateral wanted' = .ok t') : t.Agree wanted wanted' t' := by
  obtain rfl := perpTotals_eq_ok done
  obtain rfl := perpTotals_eq_ok done'
  exact {
    accountValue := rfl
    hasExposure := rfl
    realized := rfl
    filledNotionals := rfl
    heldNotionals := rfl
    initialFactors := fun asked asked' => by simp only [PerpTotals.sums, asked, asked']
    maintenanceFactors := fun asked asked' => by simp only [PerpTotals.sums, asked, asked'] }

theorem perpTotals_aligned (done : s.perpTotals collateral wanted = .ok t) : t.Aligned s wanted := by
  obtain rfl := perpTotals_eq_ok done
  constructor <;> rfl

/-- The cancel check weighs borrows with the factors of the initial check. -/
theorem borrowTotals_cancel (s : Snapshot) (realized : Int) (required : Requirements) :
    s.borrowTotals realized .cancel required = s.borrowTotals realized .initial required := rfl

theorem borrowTotals_agree (done : s.borrowTotals realized wanted required = .ok b)
    (done' : s.borrowTotals realized wanted' required = .ok b') : b.Agree wanted wanted' b' := by
  obtain rfl := borrowTotals_eq_ok done
  obtain rfl := borrowTotals_eq_ok done'
  exact {
    hasExposure := rfl
    notionals := rfl
    initialFactors := fun asked asked' => by simp only [BorrowTotals.sums, asked, asked']
    maintenanceFactors := fun asked asked' => by simp only [BorrowTotals.sums, asked, asked'] }

theorem borrowTotals_aligned (done : s.borrowTotals realized wanted required = .ok b) :
    b.Aligned s realized required wanted := by
  obtain rfl := borrowTotals_eq_ok done
  constructor <;> rfl

/-- The runs over the positions end alike for all choices without cancel factors, and with success for
them where a run with cancel factors succeeds. All runs that succeed agree, over the positions and over
the borrows, and pair every entry of a vector with its own position, in ascending order of the markets,
or with its own borrow. -/
theorem choices_agree (s : Snapshot) (collateral realized : Int) (required : Requirements) :
    (∀ wanted wanted' : FactorChoice, wanted ≠ .cancel → wanted' ≠ .cancel →
      ((∃ t, s.perpTotals collateral wanted = .ok t) ↔
        ∃ t, s.perpTotals collateral wanted' = .ok t) ∧
      ∀ f, s.perpTotals collateral wanted = .error f ↔ s.perpTotals collateral wanted' = .error f) ∧
    (∀ t wanted, s.perpTotals collateral .cancel = .ok t →
      ∃ t', s.perpTotals collateral wanted = .ok t') ∧
    (∀ wanted wanted' t t', s.perpTotals collateral wanted = .ok t →
      s.perpTotals collateral wanted' = .ok t' → PerpTotals.Agree wanted wanted' t t') ∧
    s.positions.Pairwise (fun x y => x.1 < y.1) ∧
    (∀ wanted t, s.perpTotals collateral wanted = .ok t → PerpTotals.Aligned s wanted t) ∧
    (∀ wanted wanted' b b', s.borrowTotals realized wanted required = .ok b →
      s.borrowTotals realized wanted' required = .ok b' → BorrowTotals.Agree wanted wanted' b b') ∧
    ∀ wanted b, s.borrowTotals realized wanted required = .ok b →
      BorrowTotals.Aligned s realized required wanted b := by
  refine ⟨fun wanted wanted' plain plain' => ?_, fun t wanted cancelled => ?_,
    fun _ _ _ _ => perpTotals_agree, s.positions_ascending, fun _ _ => perpTotals_aligned,
    fun _ _ _ _ => borrowTotals_agree, fun _ _ => borrowTotals_aligned⟩
  · rw [perpTotals_only plain, perpTotals_only plain']
    cases s.perpTotals collateral .both with
    | ok t => exact ⟨iff_of_true ⟨_, rfl⟩ ⟨_, rfl⟩, fun f => iff_of_false nofun nofun⟩
    | error e => exact ⟨iff_of_false nofun nofun, fun f => Iff.rfl⟩
  · cases ended : s.perpTotals collateral wanted with
    | ok t' => exact ⟨t', rfl⟩
    | error f =>
      obtain ⟨asked, _⟩ := (perpTotals_along cancelled wanted).fault ended
      rw [FactorChoice.hasCancel_iff.mp asked, cancelled] at ended
      contradiction

theorem choices_agree_sample : ∃ cancelled both : PerpTotals, ∃ spot : BorrowTotals,
    sample.perpTotals 60 .cancel = .ok cancelled ∧ cancelled.cancelFactors = [63, 37, 9] ∧
    sample.perpTotals 60 .both = .ok both ∧ both.initialFactors = [101, 60, 15] ∧
    cancelled.filledNotionals = [267, 803, 21] ∧
    both.filledNotionals = cancelled.filledNotionals ∧
    (∃ initial, sample.perpTotals 60 .initial = .ok initial ∧
      both.initialFactors = initial.initialFactors) ∧
    sample.borrowTotals 20 .both {} = .ok spot ∧ spot.notionals = [32, 64] ∧
    spot.Aligned sample 20 {} .both := by
  obtain ⟨_, follows, agree, _, _, _, aligned⟩ := choices_agree sample 60 20 {}
  have cancelled : sample.perpTotals 60 .cancel =
    .ok ⟨99, true, 20, [], [], [63, 37, 9], [267, 803, 21], [100, 321, 0]⟩ := by cbv
  have both : sample.perpTotals 60 .both =
    .ok ⟨99, true, 20, [101, 60, 15], [50, 30, 7], [], [267, 803, 21], [100, 321, 0]⟩ := by cbv
  have spot : sample.borrowTotals 20 .both {} = .ok ⟨true, [100, 223], [30, 145], [32, 64]⟩ := by cbv
  obtain ⟨initial, found⟩ := follows _ .initial cancelled
  have shared := agree .initial .both _ _ found both
  exact ⟨_, _, _, cancelled, rfl, both, rfl, rfl, (agree _ _ _ _ cancelled both).filledNotionals,
    ⟨initial, found, shared.initialFactors rfl rfl⟩, spot, rfl, aligned _ _ spot⟩

end Snapshot
end Solvency
