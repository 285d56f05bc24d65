import Mathlib.Data.List.TakeWhile
import Mathlib.Data.Nat.Digits.Defs
import Solvency.Text.DecimalDigit

/-! Integers as texts. What is read as an integer is what the grammar of integers spells, digits of
any script with single underscores between them, and it is read as the number that the digits
denote. -/
namespace Solvency.Text

/-- The digits of a text, each with the number that it stands for; an underscore may separate two
neighbours. -/
inductive SpellsDigits : Text → List Nat → Prop where
  | single {p : CodePoint} {d : Nat} : p.decimalDigit? = some d → SpellsDigits [p] [d]
  | digit {p : CodePoint} {d : Nat} {t : Text} {ds : List Nat} :
    p.decimalDigit? = some d → SpellsDigits t ds → SpellsDigits (p :: t) (d :: ds)
  | underscore {p : CodePoint} {d : Nat} {t : Text} {ds : List Nat} :
    p.decimalDigit? = some d → SpellsDigits t ds → SpellsDigits (p :: .char '_' :: t) (d :: ds)

/-- The text spells the number in digits, not more of them than a numeral may have. -/
def SpellsNatural (t : Text) (n : Nat) : Prop :=
  ∃ ds, SpellsDigits t ds ∧ ds.length ≤ digitLimit ∧ n = Nat.ofDigits 10 ds.reverse

/-- The digits stand behind at most one sign. -/
inductive SpellsSigned : Text → Int → Prop where
  | unsigned {t : Text} {n : Nat} : SpellsNatural t n → SpellsSigned t n
  | plus {t : Text} {n : Nat} : SpellsNatural t n → SpellsSigned (.char '+' :: t) n
  | minus {t : Text} {n : Nat} : SpellsNatural t n → SpellsSigned (.char '-' :: t) (-n)

/-- The text spells the integer, white space around it left aside. -/
def Spells (t : Text) (n : Int) : Prop := SpellsSigned t.trim n

variable {t : Text}

theorem SpellsDigits.head_isDigit {p : CodePoint} {ds : List Nat}
    (spelled : SpellsDigits (p :: t) ds) : ∃ d, p.decimalDigit? = some d := by
  cases spelled with
  | single first => exact ⟨_, first⟩
  | digit first _ => exact ⟨_, first⟩
  | underscore first _ => exact ⟨_, first⟩

theorem not_spellsDigits_nil {ds : List Nat} : ¬ SpellsDigits [] ds := nofun

/-- No sign and no underscore is a digit. -/
theorem decimalDigit?_of_mark {c : Char} (mark : c ∈ ['+', '-', '_']) :
    (CodePoint.char c).decimalDigit? = none := by
  simp only [List.mem_cons, List.not_mem_nil, or_false] at mark
  rcases mark with rfl | rfl | rfl
  · rfl
  · rfl
  · rfl

theorem not_spellsDigits_of_mark {c : Char} {ds : List Nat} (mark : c ∈ ['+', '-', '_']) :
    ¬ SpellsDigits (.char c :: t) ds := by
  intro spelled
  obtain ⟨d, digit⟩ := spelled.head_isDigit
  rw [decimalDigit?_of_mark mark] at digit
  contradiction

theorem groupedDigits?_eq_some_iff {ds : List Nat} :
    groupedDigits? t = some ds ↔ SpellsDigits t ds := by
  constructor
  · intro read
    fun_induction groupedDigits? t generalizing ds with
    | case1 => contradiction
    | case2 p =>
      obtain ⟨d, digit, rfl⟩ := Option.map_eq_some_iff.mp read
      exact .single digit
    | case3 p rest ih =>
      simp only [Option.bind_eq_bind, Option.bind_eq_some_iff] at read
      obtain ⟨d, digit, ds, others, made⟩ := read
      cases made
      exact .underscore digit (ih others)
    | case4 p q rest _ ih =>
      simp only [Option.bind_eq_bind, Option.bind_eq_some_iff] at read
      obtain ⟨d, digit, ds, others, made⟩ := read
      cases made
      exact .digit digit (ih others)
  · intro spelled
    induction spelled with
    | single digit => simp [groupedDigits?, digit]
    | @digit p d t ds digit others ih =>
      cases t with
      | nil => exact absurd others not_spellsDigits_nil
      | cons q rest =>
        have plain : q ≠ .char '_' := by
          rintro rfl
          exact not_spellsDigits_of_mark (by simp) others
        rw [groupedDigits?.eq_4 p q rest plain]
        simp [digit, ih]
    | underscore digit _ ih => simp [groupedDigits?, digit, ih]

/-- Each digit makes the number so far ten times as large. -/
theorem foldl_eq_ofDigits (ds : List Nat) :
    ds.foldl (fun n d => 10 * n + d) 0 = Nat.ofDigits 10 ds.reverse := by
  simp [Nat.ofDigits_eq_foldr, Nat.add_comm]

/-- The number that digits without a sign spell. -/
def natural? (t : Text) : Option Nat := do
  let ds ← groupedDigits? t
  if digitLimit < ds.length then none
  else some (ds.foldl (fun n d => 10 * n + d) 0)

/-- A cast followed by a function of integers, the sign, is one map. -/
theorem map_cast (x : Option Nat) (f : Int → Int) :
    Option.map f (do let n ← x; pure (n : Int)) = x.map fun (n : Nat) => f n := by
  cases x <;> rfl

theorem integer?_minus (t : Text) :
    integer? (.char '-' :: t) = (natural? t).map fun (n : Nat) => -(n : Int) :=
  map_cast _ _

theorem integer?_plus (t : Text) :
    integer? (.char '+' :: t) = (natural? t).map fun (n : Nat) => (n : Int) :=
  map_cast _ _

theorem integer?_unsigned (minus : ∀ rest, t ≠ .char '-' :: rest)
    (plus : ∀ rest, t ≠ .char '+' :: rest) :
    t.integer? = (natural? t).map fun (n : Nat) => (n : Int) := by
  unfold integer?
  split
  · exact absurd rfl (minus _)
  · exact absurd rfl (plus _)
  · exact map_cast _ _

theorem natural?_eq_some_iff {n : Nat} : t.natural? = some n ↔ SpellsNatural t n := by
  simp only [natural?, SpellsNatural, Option.bind_eq_bind, Option.bind_eq_some_iff,
    groupedDigits?_eq_some_iff, foldl_eq_ofDigits]
  refine exists_congr fun ds => and_congr_right fun _ => ?_
  by_cases long : digitLimit < ds.length
  · simp [long]
  · simp [long, Nat.not_lt.mp long, eq_comm]

theorem not_spellsNatural_of_mark {c : Char} {n : Nat} (mark : c ∈ ['+', '-', '_']) :
    ¬ SpellsNatural (.char c :: t) n :=
  fun ⟨_, spelled, _⟩ => not_spellsDigits_of_mark mark spelled

/-- What is read as an integer is what the grammar spells. -/
theorem integer?_eq_some_iff {n : Int} : t.integer? = some n ↔ SpellsSigned t n := by
  constructor
  · intro read
    by_cases minus : ∃ rest, t = .char '-' :: rest
    · obtain ⟨rest, rfl⟩ := minus
      rw [integer?_minus] at read
      obtain ⟨m, natural, rfl⟩ := Option.map_eq_some_iff.mp read
      exact .minus (natural?_eq_some_iff.mp natural)
    by_cases plus : ∃ rest, t = .char '+' :: rest
    · obtain ⟨rest, rfl⟩ := plus
      rw [integer?_plus] at read
      obtain ⟨m, natural, rfl⟩ := Option.map_eq_some_iff.mp read
      exact .plus (natural?_eq_some_iff.mp natural)
    rw [integer?_unsigned (not_exists.mp minus) (not_exists.mp plus)] at read
    obtain ⟨m, natural, rfl⟩ := Option.map_eq_some_iff.mp read
    exact .unsigned (natural?_eq_some_iff.mp natural)
  · intro spelled
    cases spelled with
    | unsigned spelled =>
      rw [integer?_unsigned, natural?_eq_some_iff.mpr spelled, Option.map_some]
      · rintro rest rfl
        exact not_spellsNatural_of_mark (by simp) spelled
      · rintro rest rfl
        exact not_spellsNatural_of_mark (by simp) spelled
    | plus spelled => rw [integer?_plus, natural?_eq_some_iff.mpr spelled, Option.map_some]
    | minus spelled => rw [integer?_minus, natural?_eq_some_iff.mpr spelled, Option.map_some]

theorem spells_iff {n : Int} : t.Spells n ↔ t.trim.integer? = some n :=
  integer?_eq_some_iff.symm

theorem not_spells_of_isBlank {n : Int} (blank : t.isBlank = true) : ¬ t.Spells n := by
  have nothing : t.trim = [] := by
    have start : t.dropWhile CodePoint.isBlank = [] :=
      by simpa [isBlank, List.dropWhile_eq_nil_iff] using blank
    rw [trim, start]
    rfl
  rw [spells_iff, nothing]
  nofun

end Solvency.Text
