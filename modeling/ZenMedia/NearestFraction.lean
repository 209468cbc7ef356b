import ZenMedia.TimeStamps

/-! The entry of a table of fractions that is nearest to a fraction. -/
namespace ZenMedia.Avutil
open Rounding

def avCmpQ (a b : AVRational) : ℤ :=
  let tmp := int64 (a.num * b.den - b.num * a.den)
  if tmp ≠ 0 then (((tmp.xor a.den).xor b.den) >>> (63 : ℕ)).lor 1
  else if b.den ≠ 0 ∧ a.den ≠ 0 then 0
  else if a.num ≠ 0 ∧ b.num ≠ 0 then (a.num >>> (31 : ℕ)) - (b.num >>> (31 : ℕ))
  else -2 ^ 31

def avNearerQ (q q1 q2 : AVRational) : ℤ :=
  let a := int64 (q1.num * q2.den + q2.num * q1.den)
  let b := int64 (2 * q1.den * q2.den)
  let x_up := avRescaleRnd a q.den b (avRound .up)
  let x_down := avRescaleRnd a q.den b (avRound .down)
  ((if q.num < x_up then 1 else 0) - (if x_down < q.num then 1 else 0)) * avCmpQ q2 q1

/-- What stands at an index; past the end the table has its end mark. -/
def entry (q_list : List AVRational) (i : ℕ) : AVRational := q_list.getD i ⟨0,0⟩

/-- The loop of `av_find_nearest_q_idx` from `i` on, for `n` turns at most. -/
def nearestLoop (q : AVRational) (q_list : List AVRational) : ℕ → ℕ → ℕ → ℕ
  | 0, _, nearest_q_idx => nearest_q_idx
  | n + 1, i, nearest_q_idx =>
    if (entry q_list i).den = 0 then nearest_q_idx
    else if 0 < avNearerQ q (entry q_list i) (entry q_list nearest_q_idx) then
      nearestLoop q q_list n (i + 1) i
    else nearestLoop q q_list n (i + 1) nearest_q_idx

def avFindNearestQIdx (q : AVRational) (q_list : List AVRational) : ℕ :=
  nearestLoop q q_list q_list.length 0 0

/-- A fraction with a positive denominator, in two `int`s of which none is `INT_MIN`. -/
structure Ratio extends AVRational where
  num_le : |num| ≤ intMax
  den_pos : 0 < den
  den_le : den ≤ intMax

def Ratio.value (r : Ratio) : ℚ := r.num / r.den

def Ratio.distance (r q : Ratio) : ℚ := |r.value - q.value|

/-! ### One comparison -/

lemma shift_natCast {k : ℕ} (hk : k < 2 ^ 63) : ((k : ℤ) >>> (63 : ℕ)).lor 1 = 1 := by
  have hshift : (k : ℤ) >>> (63 : ℕ) = 0 := by
    rw [Int.shiftRight_eq_div_pow]
    omega
  rw [hshift]
  rfl

lemma shift_negSucc {k : ℕ} (hk : k < 2 ^ 63) : (Int.negSucc k >>> (63 : ℕ)).lor 1 = -1 := by
  have hshift : Int.negSucc k >>> (63 : ℕ) = -1 := by
    rw [Int.shiftRight_eq_div_pow]
    omega
  rw [hshift]
  decide +kernel

/-- The sign bit of the exclusive or with two positive numbers. -/
lemma shift_xor {x : ℤ} {a b : ℕ} (hx : |x| ≤ int64Max) (ha : (a : ℤ) ≤ intMax)
    (hb : (b : ℤ) ≤ intMax) :
    (((x.xor a).xor b) >>> (63 : ℕ)).lor 1 = if x < 0 then -1 else 1 := by
  simp only [int64Max,intMax] at hx ha hb
  rw [abs_le] at hx
  obtain k | k := x
  · rw [Int.ofNat_eq_natCast] at *
    rw [if_neg (by omega)]
    apply shift_natCast
    apply Nat.xor_lt_two_pow (Nat.xor_lt_two_pow _ _) _ <;> omega
  · rw [if_pos (Int.negSucc_lt_zero k)]
    apply shift_negSucc
    apply Nat.xor_lt_two_pow (Nat.xor_lt_two_pow _ _) _ <;> omega

section comparing
variable (r s : Ratio)

lemma Ratio.den_pos_rat : (0 : ℚ) < r.den := by exact_mod_cast r.den_pos

lemma Ratio.cross_le : |r.num * s.den| ≤ intMax * intMax := by
  rw [abs_mul,abs_of_pos s.den_pos]
  exact mul_le_mul r.num_le s.den_le s.den_pos.le (by decide)

lemma Ratio.cross_lt : r.num * s.den < s.num * r.den ↔ r.value < s.value := by
  rw [value,value,div_lt_div_iff₀ r.den_pos_rat s.den_pos_rat]
  exact_mod_cast Iff.rfl

lemma avCmpQ_eq : avCmpQ r.toAVRational s.toAVRational = compared r.value s.value := by
  have hr := abs_le.mp (r.cross_le s)
  have hs := abs_le.mp (s.cross_le r)
  have htmp : |r.num * s.den - s.num * r.den| ≤ int64Max := by
    simp only [intMax,int64Max] at *
    rw [abs_le]
    omega
  have hint : int64 (r.num * s.den - s.num * r.den) = r.num * s.den - s.num * r.den :=
    int64_of_abs_le htmp
  have hless := r.cross_lt s
  have hmore := s.cross_lt r
  have hxor := shift_xor htmp (a := r.den.toNat) (b := s.den.toNat)
    (by rw [Int.toNat_of_nonneg r.den_pos.le]; exact r.den_le)
    (by rw [Int.toNat_of_nonneg s.den_pos.le]; exact s.den_le)
  rw [Int.toNat_of_nonneg r.den_pos.le,Int.toNat_of_nonneg s.den_pos.le] at hxor
  simp only [avCmpQ,hint,hxor,compared,← hless,← hmore]
  have hrden := r.den_pos.ne'
  have hsden := s.den_pos.ne'
  split_ifs <;> first | rfl | omega

/-! ### The nearer one of two -/

variable (q : Ratio)

/-- The larger distance is on the other side of the middle. -/
lemma compared_middle (x y z : ℚ) :
    compared ((x + y) / 2) z * compared y x = compared |y - z| |x - z| := by
  have hsquares : (y - z) ^ 2 - (x - z) ^ 2 = 2 * ((y - x) * ((x + y) / 2 - z)) := by ring
  have hless : |y - z| < |x - z| ↔ (y - x) * ((x + y) / 2 - z) < 0 := by
    rw [← sq_lt_sq]
    constructor <;> intro h <;> linarith
  have hmore : |x - z| < |y - z| ↔ 0 < (y - x) * ((x + y) / 2 - z) := by
    rw [← sq_lt_sq]
    constructor <;> intro h <;> linarith
  simp only [compared,hless,hmore,mul_neg_iff,mul_pos_iff,sub_pos,sub_neg]
  rcases lt_trichotomy ((x + y) / 2) z with hz | hz | hz <;>
    rcases lt_trichotomy y x with hy | hy | hy <;>
    simp [hz,hy,hz.not_gt,hy.not_gt]

/-- The middle of two fractions, in units of a third one's denominator. -/
lemma Ratio.middle : ((r.num * s.den + s.num * r.den : ℤ) : ℚ) * q.den / (2 * r.den * s.den : ℤ) =
    (r.value + s.value) / 2 * q.den := by
  have hr := r.den_pos_rat.ne'
  have hs := s.den_pos_rat.ne'
  simp only [value]
  push_cast
  field_simp

lemma Ratio.value_le : |r.value| ≤ intMax := by
  have hnum : |(r.num : ℚ)| ≤ intMax := by exact_mod_cast r.num_le
  have hden : (1 : ℚ) ≤ r.den := by exact_mod_cast r.den_pos
  rw [value,abs_div,abs_of_pos r.den_pos_rat,div_le_iff₀ r.den_pos_rat]
  calc
    |(r.num : ℚ)| ≤ intMax * 1 := by rwa [mul_one]
    _ ≤ intMax * r.den := mul_le_mul_of_nonneg_left hden ((abs_nonneg _).trans hnum)

lemma Ratio.middle_le : |(r.value + s.value) / 2 * q.den| ≤ ((intMax * intMax : ℤ) : ℚ) := by
  have hr := abs_le.mp r.value_le
  have hs := abs_le.mp s.value_le
  have hden : (q.den : ℚ) ≤ intMax := by exact_mod_cast q.den_le
  have hmiddle : |(r.value + s.value) / 2| ≤ intMax := by
    rw [abs_le]
    constructor <;> linarith
  rw [abs_mul,abs_of_pos q.den_pos_rat,Int.cast_mul]
  exact mul_le_mul hmiddle hden q.den_pos_rat.le ((abs_nonneg _).trans hmiddle)

/-- Rounded up or down, what is this small stays so. -/
lemma rounded_le {x : ℚ} {bound : ℤ} (hx : |x| ≤ bound) : |⌈x⌉| ≤ bound ∧ |⌊x⌋| ≤ bound := by
  rw [abs_le] at hx
  have hlow : ((-bound : ℤ) : ℚ) ≤ x := by
    push_cast
    exact hx.1
  have hfloor : -bound ≤ ⌊x⌋ := Int.le_floor.mpr hlow
  have hceil : ⌈x⌉ ≤ bound := Int.ceil_le.mpr hx.2
  have hle := Int.floor_le_ceil x
  rw [abs_le,abs_le]
  omega

lemma avNearerQ_eq : avNearerQ q.toAVRational r.toAVRational s.toAVRational =
    compared (s.distance q) (r.distance q) := by
  have hrs := abs_le.mp (r.cross_le s)
  have hsr := abs_le.mp (s.cross_le r)
  have hqden := q.den_le
  have ha : |r.num * s.den + s.num * r.den| ≤ int64Max := by
    simp only [intMax,int64Max] at *
    rw [abs_le]
    omega
  have hb : 0 < 2 * r.den * s.den := mul_pos (mul_pos two_pos r.den_pos) s.den_pos
  have hb' : 2 * r.den * s.den ≤ int64Max := by
    have hproduct := mul_le_mul r.den_le s.den_le s.den_pos.le (by decide)
    rw [mul_assoc]
    simp only [intMax,int64Max] at *
    omega
  have hround (mode : Mode) : avRescaleRnd (int64 (r.num * s.den + s.num * r.den)) q.den
      (int64 (2 * r.den * s.den)) (avRound mode) =
        fitting (mode.round ((r.value + s.value) / 2 * q.den)) := by
    have hint : int64 (r.num * s.den + s.num * r.den) = r.num * s.den + s.num * r.den :=
      int64_of_abs_le ha
    have hint' : int64 (2 * r.den * s.den) = 2 * r.den * s.den := by
      apply int64_of_abs_le
      rwa [abs_of_pos hb]
    rw [hint,hint',avRescaleRnd_mode mode ha q.den_pos.le (hqden.trans (by decide)) hb hb',
      r.middle s q]
  obtain ⟨hup,hdown⟩ := rounded_le (r.middle_le s q)
  rw [Ratio.distance,Ratio.distance,← compared_middle]
  simp only [avNearerQ,hround,Mode.round]
  rw [fitting_eq (hup.trans (by decide)),fitting_eq (hdown.trans (by decide)),avCmpQ_eq]
  congr 1
  have hmore : q.num < ⌈(r.value + s.value) / 2 * q.den⌉ ↔ q.value < (r.value + s.value) / 2 := by
    rw [Int.lt_ceil,← div_lt_iff₀ q.den_pos_rat]
    rfl
  have hless : ⌊(r.value + s.value) / 2 * q.den⌋ < q.num ↔ (r.value + s.value) / 2 < q.value := by
    rw [Int.floor_lt,← lt_div_iff₀ q.den_pos_rat]
    rfl
  simp only [hmore,hless,compared]
  split_ifs <;> first | rfl | linarith

end comparing

/-! ### The nearest one of a table -/

/-- The entry at `k` is nearer than those before it, and none before `i` is nearer than it. -/
def Nearest (q : Ratio) (ratios : List Ratio) (i k : ℕ) : Prop :=
  ∃ r, ratios[k]? = some r ∧
    (∀ j s, j < i → ratios[j]? = some s → r.distance q ≤ s.distance q) ∧
    ∀ j s, j < k → ratios[j]? = some s → r.distance q < s.distance q

section table
variable {q : Ratio} {ratios : List Ratio} {stop : AVRational} {rest : List AVRational}

lemma entry_of_some {i : ℕ} {r : Ratio} (h : ratios[i]? = some r) :
    entry (ratios.map Ratio.toAVRational ++ stop :: rest) i = r.toAVRational := by
  obtain ⟨hi,-⟩ := List.getElem?_eq_some_iff.mp h
  rw [entry,List.getD_eq_getElem?_getD,List.getElem?_append_left (by simpa using hi),
    List.getElem?_map,h]
  rfl

lemma entry_stop : entry (ratios.map Ratio.toAVRational ++ stop :: rest) ratios.length = stop := by
  rw [entry,List.getD_eq_getElem?_getD,List.getElem?_append_right (by simp)]
  simp

/-- One turn: the entry at `i` takes the place of a farther one only. -/
lemma Nearest.turn {i k : ℕ} {r s : Ratio} (h : Nearest q ratios i k) (hk : ratios[k]? = some r)
    (hi : ratios[i]? = some s) (hle : k ≤ i) :
    Nearest q ratios (i + 1) (if s.distance q < r.distance q then i else k) := by
  obtain ⟨r',hr,hnearest,hfirst⟩ := h
  obtain rfl : r = r' := Option.some.inj (hk.symm.trans hr)
  split_ifs with hnearer
  · have hbefore (j : ℕ) (t : Ratio) (hj : j < i) (ht : ratios[j]? = some t) :
        s.distance q < t.distance q := hnearer.trans_le (hnearest j t hj ht)
    refine ⟨s,hi,fun j t hj ht => ?_,hbefore⟩
    rcases Nat.lt_succ_iff_lt_or_eq.mp hj with hlt | rfl
    · exact (hbefore j t hlt ht).le
    · obtain rfl : s = t := Option.some.inj (hi.symm.trans ht)
      exact le_rfl
  · refine ⟨r,hk,fun j t hj ht => ?_,hfirst⟩
    rcases Nat.lt_succ_iff_lt_or_eq.mp hj with hlt | rfl
    · exact hnearest j t hlt ht
    · obtain rfl : s = t := Option.some.inj (hi.symm.trans ht)
      exact not_lt.mp hnearer

lemma nearer_iff (q r s : Ratio) :
    0 < avNearerQ q.toAVRational s.toAVRational r.toAVRational ↔ s.distance q < r.distance q := by
  rw [avNearerQ_eq,compared]
  split_ifs with hless hmore
  · simp [hless.le]
  · simp [hmore]
  · simp [hmore]

lemma nearestLoop_nearest (hstop : stop.den = 0) (n : ℕ) {i k : ℕ} (h : Nearest q ratios i k)
    (hk : k ≤ i) (hi : i ≤ ratios.length) (hn : ratios.length < i + n) :
    Nearest q ratios ratios.length
      (nearestLoop q.toAVRational (ratios.map Ratio.toAVRational ++ stop :: rest) n i k) := by
  induction n generalizing i k with
  | zero => omega
  | succ n ih =>
    rw [nearestLoop]
    rcases Nat.eq_or_lt_of_le hi with rfl | hlt
    · rw [entry_stop,if_pos hstop]
      exact h
    · have hs : ratios[i]? = some ratios[i] := List.getElem?_eq_getElem hlt
      have hr := h
      obtain ⟨r,hr,-⟩ := hr
      have hturn := h.turn hr hs hk
      rw [entry_of_some hs,entry_of_some hr,if_neg ratios[i].den_pos.ne']
      simp only [nearer_iff]
      split_ifs at hturn ⊢ with hnearer
      · exact ih hturn (Nat.le_succ i) hlt (by omega)
      · exact ih hturn (hk.trans (Nat.le_succ i)) hlt (by omega)

/-- Of a table that is not empty, the index of the first of the nearest entries is found. -/
theorem avFindNearestQIdx_nearest (q : Ratio) {ratios : List Ratio} (hratios : ratios ≠ [])
    {stop : AVRational} (hstop : stop.den = 0) (rest : List AVRational) :
    Nearest q ratios ratios.length
      (avFindNearestQIdx q.toAVRational (ratios.map Ratio.toAVRational ++ stop :: rest)) := by
  apply nearestLoop_nearest hstop
  · obtain ⟨r,ratios,rfl⟩ := List.exists_cons_of_ne_nil hratios
    exact ⟨r,rfl,by omega,by omega⟩
  · exact le_rfl
  · exact Nat.zero_le _
  · simp

end table

/-- The entries of `mxf_time_base` before its end mark. -/
def mxfTimeBase : List Ratio :=
  [⟨⟨1001,24000⟩,by decide,by decide,by decide⟩,⟨⟨1,24⟩,by decide,by decide,by decide⟩,
    ⟨⟨1001,30000⟩,by decide,by decide,by decide⟩,⟨⟨1001,60000⟩,by decide,by decide,by decide⟩,
    ⟨⟨1,25⟩,by decide,by decide,by decide⟩,⟨⟨1,50⟩,by decide,by decide,by decide⟩]

theorem avFindNearestQIdx_nearest_mxf :
    avFindNearestQIdx ⟨1,30⟩ (mxfTimeBase.map Ratio.toAVRational ++ [⟨0,0⟩]) = 2 ∧
      ∀ r ∈ mxfTimeBase, |(1001 / 30000 : ℚ) - 1 / 30| ≤ |r.value - 1 / 30| := by
  have hidx : avFindNearestQIdx ⟨1,30⟩ (mxfTimeBase.map Ratio.toAVRational ++ [⟨0,0⟩]) = 2 := by
    decide +kernel
  let query : Ratio := ⟨⟨1,30⟩,by decide,by decide,by decide⟩
  have hnearest : Nearest query mxfTimeBase mxfTimeBase.length _ :=
    avFindNearestQIdx_nearest query (by decide) (rfl : (⟨0,0⟩ : AVRational).den = 0) []
  rw [hidx] at hnearest
  obtain ⟨r,hr,hnearest,-⟩ := hnearest
  refine ⟨hidx,fun s hs => ?_⟩
  obtain ⟨j,hj⟩ := List.mem_iff_getElem?.mp hs
  have hlt := (List.getElem?_eq_some_iff.mp hj).choose
  have hle := hnearest j s hlt hj
  obtain rfl := Option.some.inj hr
  simpa [Ratio.distance,Ratio.value,query] using hle

end ZenMedia.Avutil
