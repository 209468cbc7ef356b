import Mathlib

/-! Rounding to an integer in five ways, over any ordered field with floors. -/
namespace ZenMedia.Rounding

inductive Mode where
  | zero
  | inf
  | down
  | up
  | nearInf
  deriving DecidableEq, Repr

variable {α : Type} [Field α] [LinearOrder α] [IsStrictOrderedRing α] [FloorRing α]

/-- A half goes away from zero in the last mode. -/
def Mode.round : Mode → α → ℤ
  | .zero, x => if 0 ≤ x then ⌊x⌋ else ⌈x⌉
  | .inf, x => if 0 ≤ x then ⌈x⌉ else ⌊x⌋
  | .down, x => ⌊x⌋
  | .up, x => ⌈x⌉
  | .nearInf, x => if 0 ≤ x then ⌊x + 1 / 2⌋ else ⌈x - 1 / 2⌉

/-- The mode that rounds `-x` as this one rounds `x`. -/
def Mode.mirror : Mode → Mode
  | .down => .up
  | .up => .down
  | mode => mode

/-- What is added to the dividend before a division that drops the remainder. -/
def Mode.slack : Mode → ℕ → ℕ
  | .inf, c => c - 1
  | .up, c => c - 1
  | .nearInf, c => c / 2
  | _, _ => 0

lemma Mode.round_nonneg (mode : Mode) {x : α} (hx : 0 ≤ x) : 0 ≤ mode.round x := by
  have hceil : 0 ≤ ⌈x⌉ := Int.ceil_nonneg hx
  have hfloor : 0 ≤ ⌊x⌋ := Int.floor_nonneg.mpr hx
  have hhalf : 0 ≤ ⌊x + 1 / 2⌋ := Int.floor_nonneg.mpr (by positivity)
  cases mode <;> simp_all [Mode.round]

lemma Mode.round_intCast (mode : Mode) (n : ℤ) : mode.round (n : α) = n := by
  have hfloor : ⌊(n : α) + 1 / 2⌋ = n := by
    rw [Int.floor_eq_iff]
    constructor <;> linarith
  have hceil : ⌈(n : α) - 1 / 2⌉ = n := by
    rw [Int.ceil_eq_iff]
    constructor <;> linarith
  cases mode <;> simp only [Mode.round,Int.floor_intCast,Int.ceil_intCast,hfloor,hceil,ite_self]

lemma Mode.round_neg (mode : Mode) {x : α} (hx : 0 ≤ x) :
    mode.round (-x) = -mode.mirror.round x := by
  rcases hx.eq_or_lt with rfl | hpos
  · have hzero : mode.round ((0 : ℤ) : α) = 0 := mode.round_intCast 0
    have hmirror : mode.mirror.round ((0 : ℤ) : α) = 0 := mode.mirror.round_intCast 0
    rw [Int.cast_zero] at hzero hmirror
    rw [neg_zero,hzero,hmirror,neg_zero]
  have hneg : ¬0 ≤ -x := by linarith
  have hhalf : -x - 1 / 2 = -(x + 1 / 2) := by ring
  cases mode <;> simp only [Mode.round,Mode.mirror,hneg,hx,if_true,if_false,hhalf,
    Int.ceil_neg,Int.floor_neg]

lemma Mode.round_mono (mode : Mode) : Monotone (mode.round : α → ℤ) := by
  intro x y hxy
  have hfloor := Int.floor_mono hxy
  have hceil := Int.ceil_mono hxy
  have hup : ⌊x + 1 / 2⌋ ≤ ⌊y + 1 / 2⌋ := Int.floor_mono (by linarith)
  have hdown : ⌈x - 1 / 2⌉ ≤ ⌈y - 1 / 2⌉ := Int.ceil_mono (by linarith)
  by_cases hx : 0 ≤ x
  · have hy : 0 ≤ y := hx.trans hxy
    cases mode <;> simp only [Mode.round,hx,hy,if_true] <;> assumption
  by_cases hy : 0 ≤ y
  · -- Across zero both sides round towards it or away from it, but never past it.
    have hneg := mode.mirror.round_nonneg (x := -x) (by linarith)
    have hpos := mode.round_nonneg hy
    have hrefl := mode.round_neg (x := -x) (by linarith)
    rw [neg_neg] at hrefl
    omega
  · cases mode <;> simp only [Mode.round,hx,hy,if_false] <;> assumption

/-- Rounding does not pass an integer. -/
lemma Mode.abs_round_le (mode : Mode) {x : α} {n : ℤ} (h : |x| ≤ n) : |mode.round x| ≤ n := by
  rw [abs_le] at h ⊢
  have hlow := mode.round_mono h.1
  have hhigh := mode.round_mono h.2
  rw [← Int.cast_neg,mode.round_intCast] at hlow
  rw [mode.round_intCast] at hhigh
  exact ⟨hlow,hhigh⟩

lemma nearInf_sub_le (x : α) : |(Mode.nearInf.round x : α) - x| ≤ 1 / 2 := by
  rw [abs_le]
  by_cases hx : 0 ≤ x
  · have hle := Int.floor_le (x + 1 / 2)
    have hlt := Int.lt_floor_add_one (x + 1 / 2)
    simp only [Mode.round,hx,if_true]
    constructor <;> linarith
  · have hle := Int.le_ceil (x - 1 / 2)
    have hlt := Int.ceil_lt_add_one (x - 1 / 2)
    simp only [Mode.round,hx,if_false]
    constructor <;> linarith

lemma nearInf_eq {x : α} {n : ℤ} (h : |x - n| < 1 / 2) : Mode.nearInf.round x = n := by
  have hx := nearInf_sub_le x
  rw [abs_le] at hx
  rw [abs_lt] at h
  have hlt : (Mode.nearInf.round x : α) < ((n + 1 : ℤ) : α) := by push_cast; linarith
  have hgt : ((n - 1 : ℤ) : α) < (Mode.nearInf.round x : α) := by push_cast; linarith
  have hlt' := Int.cast_lt.mp hlt
  have hgt' := Int.cast_lt.mp hgt
  omega

lemma floor_natCast_div (n c : ℕ) : ⌊(n : α) / c⌋ = (n / c : ℕ) := by
  rw [Int.floor_div_natCast,Int.floor_natCast]
  exact (Int.natCast_div n c).symm

/-- A division that drops the remainder rounds as the mode says, after its slack is added. -/
lemma Mode.round_natCast_div (mode : Mode) (n : ℕ) {c : ℕ} (hc : 0 < c) :
    mode.round ((n : α) / c) = ((n + mode.slack c) / c : ℕ) := by
  have hcα : (0 : α) < c := by exact_mod_cast hc
  have hnonneg : (0 : α) ≤ (n : α) / c := by positivity
  have hceil : ⌈(n : α) / c⌉ = ((n + (c - 1)) / c : ℕ) := by
    have hlt := Nat.lt_div_mul_add (a := n + (c - 1)) hc
    have hle := Nat.div_mul_le_self (n + (c - 1)) c
    generalize (n + (c - 1)) / c = q at hlt hle ⊢
    have hltα : (n : α) ≤ q * c := by exact_mod_cast (by omega : n ≤ q * c)
    have hleα : (q : α) * c < n + c := by exact_mod_cast (by omega : q * c < n + c)
    rw [Int.ceil_eq_iff,lt_div_iff₀ hcα,div_le_iff₀ hcα,Int.cast_natCast]
    constructor <;> linarith
  have hhalf : ⌊(n : α) / c + 1 / 2⌋ = ((n + c / 2) / c : ℕ) := by
    have hlt := Nat.lt_div_mul_add (a := n + c / 2) hc
    have hle := Nat.div_mul_le_self (n + c / 2) c
    generalize (n + c / 2) / c = q at hlt hle ⊢
    have hltα : 2 * (n : α) + c < 2 * (q * c + c) := by
      exact_mod_cast (by omega : 2 * n + c < 2 * (q * c + c))
    have hleα : 2 * ((q : α) * c) ≤ 2 * n + c := by
      exact_mod_cast (by omega : 2 * (q * c) ≤ 2 * n + c)
    have hsum : (n : α) / c + 1 / 2 = (2 * n + c) / (2 * c) := by field_simp
    rw [Int.floor_eq_iff,hsum,le_div_iff₀ (by positivity),div_lt_iff₀ (by positivity),
      Int.cast_natCast]
    constructor <;> linarith
  cases mode <;>
    simp only [Mode.round,Mode.slack,hnonneg,if_true,Nat.add_zero,hceil,hhalf,floor_natCast_div]

end ZenMedia.Rounding
