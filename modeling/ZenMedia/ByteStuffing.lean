import Mathlib

/-! Byte strings that are cut into units by start codes, two zeros and a one. What lies
between the start codes is stuffed: after two zeros a byte up to three is preceded by a
three, so that no start code can come about by itself. -/
namespace ZenMedia.ByteStuffing

/-! ### Numbers in bytes -/

/-- The last `k` bytes of a number, the most significant first. -/
def bigEndian : ℕ → ℕ → List UInt8
  | 0, _ => []
  | k + 1, n => bigEndian k (n / 256) ++ [UInt8.ofNat n]

/-- Reading on from the number `n`. -/
def readOn (n : ℕ) (bytes : List UInt8) : ℕ := bytes.foldl (fun n b => n * 256 + b.toNat) n

@[simp] lemma bigEndian_length (k n : ℕ) : (bigEndian k n).length = k := by
  induction k generalizing n with
  | zero => rfl
  | succ k ih => simp [bigEndian,ih]

lemma bigEndian_add (j k n : ℕ) :
    bigEndian (j + k) n = bigEndian j (n / 256 ^ k) ++ bigEndian k n := by
  induction k generalizing n with
  | zero => simp [bigEndian]
  | succ k ih =>
    rw [← Nat.add_assoc,bigEndian,ih,bigEndian,Nat.div_div_eq_div_mul,← pow_succ',List.append_assoc]

lemma readOn_append (n : ℕ) (xs ys : List UInt8) : readOn n (xs ++ ys) = readOn (readOn n xs) ys := by
  simp [readOn]

lemma readOn_bigEndian (k n m : ℕ) (h : n < 256 ^ k) :
    readOn m (bigEndian k n) = m * 256 ^ k + n := by
  induction k generalizing n with
  | zero =>
    have hn : n = 0 := by simpa using h
    simp [bigEndian,readOn,hn]
  | succ k ih =>
    have hdiv : n / 256 < 256 ^ k := by
      rw [Nat.div_lt_iff_lt_mul (by decide)]
      rwa [pow_succ] at h
    have hlast : (UInt8.ofNat n).toNat = n % 256 := UInt8.toNat_ofNat'
    rw [bigEndian,readOn_append,ih _ hdiv]
    simp only [readOn,List.foldl_cons,List.foldl_nil,hlast,pow_succ]
    have hmod := Nat.div_add_mod n 256
    nlinarith

/-! ### Start codes -/

def startsHere : List UInt8 → Bool
  | a :: b :: c :: _ => a = 0 && b = 0 && c = 1
  | _ => false

/-- How many bytes come before the first start code that is not the end of the string. -/
def nextStart : List UInt8 → ℕ
  | [] => 0
  | b :: rest => if startsHere (b :: rest) && 2 < rest.length then 0 else nextStart rest + 1

/-- No start code anywhere. -/
def NoStart : List UInt8 → Prop
  | [] => True
  | b :: rest => startsHere (b :: rest) = false ∧ NoStart rest

lemma nextStart_le (xs : List UInt8) : nextStart xs ≤ xs.length := by
  induction xs with
  | nil => exact le_refl 0
  | cons b rest ih =>
    rw [nextStart]
    split
    · exact Nat.zero_le _
    · exact Nat.succ_le_succ ih

lemma NoStart.nextStart_eq {xs : List UInt8} (h : NoStart xs) : nextStart xs = xs.length := by
  induction xs with
  | nil => rfl
  | cons b rest ih =>
    rw [nextStart,h.1,ih h.2]
    rfl

/-- A start code that only zeros may precede. -/
lemma nextStart_zeros (k : ℕ) (b : UInt8) (rest : List UInt8) :
    nextStart (List.replicate k 0 ++ 0 :: 0 :: 1 :: b :: rest) = k := by
  induction k with
  | zero => simp [nextStart,startsHere]
  | succ k ih =>
    have hnot : startsHere (0 :: (List.replicate k 0 ++ 0 :: 0 :: 1 :: b :: rest)) = false := by
      rcases k with _ | _ | k <;> simp [startsHere,List.replicate_succ]
    rw [List.replicate_succ,List.cons_append,nextStart,hnot,ih]
    rfl

/-- The last byte, if there is one, is not zero. -/
def Closed (xs : List UInt8) : Prop := xs.getLast? ≠ some 0

instance (xs : List UInt8) : Decidable (Closed xs) := inferInstanceAs (Decidable (_ ≠ _))

lemma Closed.tail {b : UInt8} {xs : List UInt8} (h : Closed (b :: xs)) : Closed xs := by
  cases xs with
  | nil => simp [Closed]
  | cons c xs =>
    unfold Closed at h ⊢
    rwa [List.getLast?_cons_cons] at h

/-- The first start code behind a string without one that does not run into it. -/
lemma nextStart_append {xs : List UInt8} (h : NoStart xs) (hclosed : Closed xs) (k : ℕ) (b : UInt8)
    (rest : List UInt8) :
    nextStart (xs ++ (List.replicate k 0 ++ 0 :: 0 :: 1 :: b :: rest)) = xs.length + k := by
  induction xs with
  | nil => simpa using nextStart_zeros k b rest
  | cons c xs ih =>
    have hnot : startsHere (c :: (xs ++ (List.replicate k 0 ++ 0 :: 0 :: 1 :: b :: rest))) = false := by
      rcases xs with _ | ⟨d,_ | ⟨e,xs⟩⟩
      · have hc : c ≠ 0 := by simpa [Closed] using hclosed
        rcases k with _ | _ | k <;> simp [startsHere,List.replicate_succ,hc]
      · have hd : d ≠ 0 := by simpa [Closed] using hclosed
        rcases k with _ | k <;> simp [startsHere,List.replicate_succ,hd]
      · exact h.1
    rw [List.cons_append,nextStart,hnot,ih h.2 hclosed.tail,List.length_cons]
    simp only [Bool.false_and,Bool.false_eq_true,if_false]
    omega

/-! ### Stuffing -/

/-- What is written for the bytes that follow `p` and `q`. -/
def stuff (p q : UInt8) : List UInt8 → List UInt8
  | [] => []
  | b :: rest =>
    if b ≤ 3 && p = 0 && q = 0 then 3 :: b :: stuff 3 b rest else b :: stuff q b rest

/-- What is read: a three behind two zeros is left out, a start code ends the unit. -/
def unstuff : List UInt8 → List UInt8
  | [] => []
  | [a] => [a]
  | [a,b] => [a,b]
  | a :: b :: c :: rest =>
    if a = 0 && b = 0 && c = 3 then 0 :: 0 :: unstuff rest
    else if a = 0 && b = 0 && (c = 1 || c = 2) then []
    else a :: unstuff (b :: c :: rest)

/-- The zeros at the end of `p`, `q`. -/
def pending (p q : UInt8) : List UInt8 :=
  if q = 0 then if p = 0 then [0,0] else [0] else []

lemma unstuff_cons {a : UInt8} (ha : a ≠ 0) (xs : List UInt8) : unstuff (a :: xs) = a :: unstuff xs := by
  rcases xs with _ | ⟨b,_ | ⟨c,xs⟩⟩
  · simp [unstuff]
  · simp [unstuff]
  · rw [unstuff]
    simp [ha]

lemma unstuff_zero_cons {b : UInt8} (hb : b ≠ 0) (xs : List UInt8) :
    unstuff (0 :: b :: xs) = 0 :: b :: unstuff xs := by
  rw [← unstuff_cons hb]
  rcases xs with _ | ⟨c,xs⟩
  · simp [unstuff]
  · rw [unstuff]
    simp [hb]

lemma unstuff_zeros_cons {c : UInt8} (hc : 3 < c) (xs : List UInt8) :
    unstuff (0 :: 0 :: c :: xs) = 0 :: 0 :: c :: unstuff xs := by
  have hne : c ≠ 0 ∧ c ≠ 1 ∧ c ≠ 2 ∧ c ≠ 3 := by
    refine ⟨?_,?_,?_,?_⟩ <;> rintro rfl <;> exact absurd hc (by decide)
  rw [← unstuff_zero_cons hne.1,unstuff]
  simp [hne]

lemma unstuff_escape (xs : List UInt8) : unstuff (0 :: 0 :: 3 :: xs) = 0 :: 0 :: unstuff xs := by
  rw [unstuff]
  simp

lemma unstuff_pending (p q : UInt8) : unstuff (pending p q) = pending p q := by
  unfold pending
  split_ifs <;> simp [unstuff]

/-- The zeros that a start code begins with are taken for a start code only at its end. -/
lemma unstuff_start (k : ℕ) (rest : List UInt8) :
    unstuff (List.replicate k 0 ++ 0 :: 0 :: 1 :: rest) = List.replicate k 0 := by
  induction k with
  | zero =>
    rw [List.replicate_zero,List.nil_append,unstuff]
    simp
  | succ k ih =>
    rw [List.replicate_succ,List.cons_append]
    rcases k with _ | k
    · rw [List.replicate_zero,List.nil_append] at ih ⊢
      rw [unstuff]
      simp [ih]
    · rw [List.replicate_succ,List.cons_append] at ih ⊢
      have hnext : ∃ xs, List.replicate k 0 ++ 0 :: 0 :: 1 :: rest = (0 : UInt8) :: xs := by
        cases k with
        | zero => exact ⟨_,rfl⟩
        | succ k => exact ⟨_,rfl⟩
      obtain ⟨xs,hxs⟩ := hnext
      rw [hxs] at ih ⊢
      rw [unstuff]
      simp [ih]

lemma pending_ne {p q : UInt8} (hq : q ≠ 0) : pending p q = [] := if_neg hq

lemma pending_zero {p : UInt8} (hp : p ≠ 0) : pending p 0 = [0] := by
  rw [pending,if_pos rfl,if_neg hp]

/-- Whether the end is closed shows from the last byte on. -/
lemma Closed.pending {xs src : List UInt8} {b : UInt8} (h : Closed (xs ++ b :: src)) (q : UInt8) :
    Closed (pending q b ++ src) := by
  rcases List.eq_nil_or_concat src with rfl | ⟨init,c,rfl⟩
  · have hb : b ≠ 0 := by simpa [Closed] using h
    simp [pending_ne hb,Closed]
  · have hc : c ≠ 0 := by
      have hlast : (xs ++ b :: (init ++ [c])).getLast? = some c := by
        rw [← List.cons_append,← List.append_assoc,List.getLast?_concat]
      simpa [Closed,hlast] using h
    simp [Closed,← List.append_assoc,hc]

/-- What is read is what was written, up to what comes behind it. -/
theorem unstuff_stuff (p q : UInt8) (src rest : List UInt8)
    (h : rest = [] ∨ Closed (pending p q ++ src)) :
    unstuff (pending p q ++ (stuff p q src ++ rest)) = pending p q ++ (src ++ unstuff rest) := by
  induction src generalizing p q with
  | nil =>
    rcases h with rfl | hclosed
    · simpa [stuff,unstuff] using unstuff_pending p q
    · have hnone : pending p q = [] := by
        by_contra hne
        apply hclosed
        unfold pending at hne ⊢
        split_ifs at hne ⊢ <;> simp_all
      simp [hnone,stuff]
  | cons b src ih =>
    have hnext (q : UInt8) : unstuff (pending q b ++ (stuff q b src ++ rest)) =
        pending q b ++ (src ++ unstuff rest) := ih q b (h.imp id fun hclosed => hclosed.pending q)
    -- behind a byte that is not zero, `b` is read as it stands
    have hplain {q : UInt8} (hq : q ≠ 0) :
        unstuff (b :: (stuff q b src ++ rest)) = b :: (src ++ unstuff rest) := by
      have hb := hnext q
      by_cases hzero : b = 0
      · subst hzero
        rwa [pending_zero hq] at hb
      · rw [pending_ne hzero] at hb
        rw [unstuff_cons hzero]
        exact congrArg (b :: ·) hb
    by_cases hq : q = 0
    · subst hq
      have hb := hnext 0
      by_cases hp : p = 0
      · subst hp
        by_cases hsmall : b ≤ 3
        · have hstuff : stuff 0 0 (b :: src) = 3 :: b :: stuff 3 b src := by simp [stuff,hsmall]
          rw [hstuff]
          change unstuff (0 :: 0 :: 3 :: b :: (stuff 3 b src ++ rest)) = _
          rw [unstuff_escape,hplain (by decide)]
          rfl
        · have hstuff : stuff 0 0 (b :: src) = b :: stuff 0 b src := by simp [stuff,hsmall]
          have hzero : b ≠ 0 := by
            rintro rfl
            exact hsmall (by decide)
          rw [pending_ne hzero] at hb
          rw [hstuff]
          change unstuff (0 :: 0 :: b :: (stuff 0 b src ++ rest)) = _
          rw [unstuff_zeros_cons (UInt8.not_le.mp hsmall)]
          exact congrArg (0 :: 0 :: b :: ·) hb
      · have hstuff : stuff p 0 (b :: src) = b :: stuff 0 b src := by simp [stuff,hp]
        rw [hstuff,pending_zero hp]
        change unstuff (0 :: b :: (stuff 0 b src ++ rest)) = _
        by_cases hzero : b = 0
        · subst hzero
          exact hb
        · rw [pending_ne hzero] at hb
          rw [unstuff_zero_cons hzero]
          exact congrArg (0 :: b :: ·) hb
    · have hstuff : stuff p q (b :: src) = b :: stuff q b src := by simp [stuff,hq]
      rw [hstuff,pending_ne hq]
      exact hplain hq

/-- Two zeros and a one or a two. -/
def endsHere : List UInt8 → Bool
  | a :: b :: c :: _ => a = 0 && b = 0 && (c = 1 || c = 2)
  | _ => false

/-- Nothing that would end a unit. -/
def NoEnd : List UInt8 → Prop
  | [] => True
  | b :: rest => endsHere (b :: rest) = false ∧ NoEnd rest

lemma NoEnd.noStart {xs : List UInt8} (h : NoEnd xs) : NoStart xs := by
  induction xs with
  | nil => trivial
  | cons b xs ih =>
    refine ⟨?_,ih h.2⟩
    rcases xs with _ | ⟨c,_ | ⟨d,xs⟩⟩
    · rfl
    · rfl
    · have hend := h.1
      simp only [endsHere,startsHere,Bool.and_eq_false_iff,Bool.or_eq_false_iff] at hend ⊢
      exact hend.imp_right And.left

lemma NoEnd.cons {b : UInt8} (hb : b ≠ 0) {xs : List UInt8} (h : NoEnd xs) : NoEnd (b :: xs) := by
  refine ⟨?_,h⟩
  rcases xs with _ | ⟨c,_ | ⟨d,xs⟩⟩ <;> simp [endsHere,hb]

lemma NoEnd.zero_cons {b : UInt8} (hb : b ≠ 0) {xs : List UInt8} (h : NoEnd xs) :
    NoEnd (0 :: b :: xs) := by
  refine ⟨?_,h.cons hb⟩
  cases xs <;> simp [endsHere,hb]

lemma NoEnd.zeros_cons {b : UInt8} (hb : 2 < b) {xs : List UInt8} (h : NoEnd xs) :
    NoEnd (0 :: 0 :: b :: xs) := by
  have hne : b ≠ 0 ∧ b ≠ 1 ∧ b ≠ 2 := by
    refine ⟨?_,?_,?_⟩ <;> rintro rfl <;> exact absurd hb (by decide)
  exact ⟨by simp [endsHere,hne.2],h.zero_cons hne.1⟩

/-- What is written has nothing that would end a unit. -/
theorem stuff_noEnd (p q : UInt8) (src : List UInt8) : NoEnd (pending p q ++ stuff p q src) := by
  induction src generalizing p q with
  | nil =>
    unfold pending
    split_ifs <;> simp [stuff,NoEnd,endsHere]
  | cons b src ih =>
    have hplain {q : UInt8} (hq : q ≠ 0) : NoEnd (b :: stuff q b src) := by
      have hb := ih q b
      by_cases hzero : b = 0
      · subst hzero
        rwa [pending_zero hq] at hb
      · rw [pending_ne hzero] at hb
        exact hb.cons hzero
    by_cases hq : q = 0
    · subst hq
      have hb := ih 0 b
      by_cases hp : p = 0
      · subst hp
        by_cases hsmall : b ≤ 3
        · have hstuff : stuff 0 0 (b :: src) = 3 :: b :: stuff 3 b src := by simp [stuff,hsmall]
          rw [hstuff]
          exact (hplain (by decide)).zeros_cons (by decide)
        · have hstuff : stuff 0 0 (b :: src) = b :: stuff 0 b src := by simp [stuff,hsmall]
          have hbig : 3 < b := UInt8.not_le.mp hsmall
          have hzero : b ≠ 0 := by
            rintro rfl
            exact absurd hbig (by decide)
          rw [pending_ne hzero] at hb
          rw [hstuff]
          exact hb.zeros_cons (UInt8.lt_trans (by decide) hbig)
      · have hstuff : stuff p 0 (b :: src) = b :: stuff 0 b src := by simp [stuff,hp]
        rw [hstuff,pending_zero hp]
        by_cases hzero : b = 0
        · subst hzero
          exact hb
        · rw [pending_ne hzero] at hb
          exact hb.zero_cons hzero
    · have hstuff : stuff p q (b :: src) = b :: stuff q b src := by simp [stuff,hq]
      rw [hstuff,pending_ne hq]
      exact hplain hq

lemma stuff_getLast? (p q : UInt8) (src : List UInt8) :
    (stuff p q src).getLast? = src.getLast? := by
  induction src generalizing p q with
  | nil => rfl
  | cons b src ih =>
    have hlast (q : UInt8) : (b :: stuff q b src).getLast? = (b :: src).getLast? := by
      rw [List.getLast?_cons,List.getLast?_cons,ih]
    rw [stuff]
    split_ifs
    · rw [List.getLast?_cons_cons]
      exact hlast 3
    · exact hlast q

/-! ### Reading on from an offset -/

/-- Two zeros and a byte up to three: one that was stuffed in, a start code or a third zero. -/
def marked : List UInt8 → Bool
  | a :: b :: c :: _ => a = 0 && b = 0 && c ≤ 3
  | _ => false

/-- How many bytes come before the start code that ends a unit, or are there without one. -/
def unitEnd : List UInt8 → ℕ
  | [] => 0
  | [_] => 1
  | [_,_] => 2
  | a :: b :: c :: rest =>
    if a = 0 && b = 0 && (c = 1 || c = 2) then 0 else unitEnd (b :: c :: rest) + 1

lemma not_marked {a b c : UInt8} {rest : List UInt8} (h : marked (a :: b :: c :: rest) = false)
    (ha : a = 0) (hb : b = 0) : c ≠ 1 ∧ c ≠ 2 ∧ c ≠ 3 := by
  have hbig : ¬ c ≤ 3 := by simpa [marked,ha,hb] using h
  refine ⟨?_,?_,?_⟩ <;> rintro rfl <;> exact hbig (by decide)

lemma unstuff_of_not_marked {a : UInt8} {xs : List UInt8} (h : marked (a :: xs) = false) :
    unstuff (a :: xs) = a :: unstuff xs := by
  rcases xs with _ | ⟨b,_ | ⟨c,xs⟩⟩
  · simp [unstuff]
  · simp [unstuff]
  · rw [unstuff]
    by_cases hzero : a = 0 ∧ b = 0
    · have hc := not_marked h hzero.1 hzero.2
      simp [hc]
    · simp only [Bool.and_eq_true,decide_eq_true_eq]
      rw [if_neg (fun h' => hzero h'.1),if_neg (fun h' => hzero h'.1)]

lemma unitEnd_of_not_marked {a : UInt8} {xs : List UInt8} (h : marked (a :: xs) = false) :
    unitEnd (a :: xs) = unitEnd xs + 1 := by
  rcases xs with _ | ⟨b,_ | ⟨c,xs⟩⟩
  · rfl
  · rfl
  · rw [unitEnd]
    by_cases hzero : a = 0 ∧ b = 0
    · have hc := not_marked h hzero.1 hzero.2
      simp [hc]
    · simp only [Bool.and_eq_true,decide_eq_true_eq]
      rw [if_neg (fun h' => hzero h'.1)]

lemma not_marked_of_ne {a : UInt8} (ha : a ≠ 0) (xs : List UInt8) : marked (a :: xs) = false := by
  rcases xs with _ | ⟨b,_ | ⟨c,xs⟩⟩ <;> simp [marked,ha]

lemma not_marked_of_next {b : UInt8} (a : UInt8) (hb : b ≠ 0) (xs : List UInt8) :
    marked (a :: b :: xs) = false := by
  cases xs <;> simp [marked,hb]

/-- A large byte, and what stands before it. -/
lemma unstuff_large {c : UInt8} (hc : 3 < c) (a b : UInt8) (xs : List UInt8) :
    unstuff (a :: b :: c :: xs) = a :: b :: c :: unstuff xs ∧
      unitEnd (a :: b :: c :: xs) = unitEnd xs + 3 := by
  have hzero : c ≠ 0 := by
    rintro rfl
    exact absurd hc (by decide)
  have hfirst : marked (a :: b :: c :: xs) = false := by
    simp [marked,UInt8.not_le.mpr hc]
  have hsecond := not_marked_of_next b hzero xs
  have hthird := not_marked_of_ne hzero xs
  constructor
  · rw [unstuff_of_not_marked hfirst,unstuff_of_not_marked hsecond,unstuff_of_not_marked hthird]
  · rw [unitEnd_of_not_marked hfirst,unitEnd_of_not_marked hsecond,unitEnd_of_not_marked hthird]

lemma unitEnd_escape (xs : List UInt8) : unitEnd (0 :: 0 :: 3 :: xs) = unitEnd xs + 3 := by
  have hsecond := not_marked_of_next 0 (by decide : (3 : UInt8) ≠ 0) xs
  have hthird := not_marked_of_ne (by decide : (3 : UInt8) ≠ 0) xs
  rw [unitEnd,if_neg (by simp),unitEnd_of_not_marked hsecond,unitEnd_of_not_marked hthird]

lemma small_cases {c : UInt8} (hc : c ≤ 3) (hzero : c ≠ 0) (hthree : c ≠ 3) : c = 1 ∨ c = 2 := by
  rw [UInt8.le_iff_toNat_le] at hc
  simp only [ne_eq,← UInt8.toNat_inj] at hzero hthree ⊢
  change c.toNat ≤ 3 at hc
  change ¬ c.toNat = 0 at hzero
  change ¬ c.toNat = 3 at hthree
  change c.toNat = 1 ∨ c.toNat = 2
  omega

/-- A start code ends the unit. -/
lemma unstuff_startcode {c : UInt8} (hc : c = 1 ∨ c = 2) (xs : List UInt8) :
    unstuff (0 :: 0 :: c :: xs) = [] ∧ unitEnd (0 :: 0 :: c :: xs) = 0 := by
  rcases hc with rfl | rfl <;> simp [unstuff,unitEnd]

lemma unstuff_short {xs : List UInt8} (h : xs.length ≤ 2) :
    unstuff xs = xs ∧ unitEnd xs = xs.length := by
  rcases xs with _ | ⟨a,_ | ⟨b,_ | ⟨c,xs⟩⟩⟩
  · exact ⟨rfl,rfl⟩
  · exact ⟨rfl,rfl⟩
  · exact ⟨rfl,rfl⟩
  · simp at h

/-- What does not begin with two zeros and one more byte up to three, but for a third zero. -/
lemma unstuff_plain {a b c : UInt8} (h : ¬ (a = 0 ∧ b = 0 ∧ c ≠ 0)) (xs : List UInt8) :
    unstuff (a :: b :: c :: xs) = a :: unstuff (b :: c :: xs) ∧
      unitEnd (a :: b :: c :: xs) = unitEnd (b :: c :: xs) + 1 := by
  have hcode {d : UInt8} (hd : d ≠ 0) : ¬ (a = 0 ∧ b = 0 ∧ c = d) := by
    rintro ⟨ha,hb,rfl⟩
    exact h ⟨ha,hb,hd⟩
  have hthree := hcode (d := 3) (by decide)
  have hone := hcode (d := 1) (by decide)
  have htwo := hcode (d := 2) (by decide)
  rw [unstuff,unitEnd]
  simp only [Bool.and_eq_true,Bool.or_eq_true,decide_eq_true_eq]
  rw [if_neg (by tauto),if_neg (by tauto),if_neg (by tauto)]
  exact ⟨rfl,rfl⟩

/-- Up to a mark, the bytes are read as they stand. -/
lemma unstuff_drop {xs : List UInt8} {i : ℕ} (hi : i ≤ xs.length)
    (h : ∀ j < i, marked (xs.drop j) = false) :
    unstuff xs = xs.take i ++ unstuff (xs.drop i) ∧ unitEnd xs = i + unitEnd (xs.drop i) := by
  induction i generalizing xs with
  | zero => simp
  | succ i ih =>
    rcases xs with _ | ⟨a,xs⟩
    · simp at hi
    · obtain ⟨hread,hend⟩ := ih (Nat.le_of_succ_le_succ hi) fun j hj => h (j + 1) (by omega)
      have hhere := h 0 (Nat.succ_pos i)
      rw [unstuff_of_not_marked hhere,unitEnd_of_not_marked hhere,hread,hend]
      constructor
      · rfl
      · rw [List.drop_succ_cons]
        omega

/-- A unit that does not run into what comes behind it. -/
lemma NoEnd.unitEnd_append {xs : List UInt8} (h : NoEnd xs) (hclosed : Closed xs) (rest : List UInt8) :
    unitEnd (xs ++ rest) = xs.length + unitEnd rest := by
  induction xs with
  | nil => simp
  | cons b xs ih =>
    have hnext : unitEnd (b :: (xs ++ rest)) = unitEnd (xs ++ rest) + 1 := by
      rcases xs with _ | ⟨c,_ | ⟨d,xs⟩⟩
      · have hb : b ≠ 0 := by simpa [Closed] using hclosed
        exact unitEnd_of_not_marked (not_marked_of_ne hb _)
      · have hc : c ≠ 0 := by simpa [Closed] using hclosed
        exact unitEnd_of_not_marked (not_marked_of_next b hc _)
      · have hend := h.1
        rw [List.cons_append,List.cons_append,unitEnd,if_neg]
        rwa [Bool.not_eq_true]
    rw [List.cons_append,hnext,ih h.2 hclosed.tail,List.length_cons]
    omega

/-- Zeros before a start code. -/
lemma unitEnd_start (k : ℕ) (rest : List UInt8) :
    unitEnd (List.replicate k 0 ++ 0 :: 0 :: 1 :: rest) = k := by
  induction k with
  | zero => exact (unstuff_startcode (.inl rfl) rest).2
  | succ k ih =>
    rw [List.replicate_succ,List.cons_append]
    rcases k with _ | _ | k
    · rw [List.replicate_zero,List.nil_append] at ih ⊢
      rw [unitEnd,if_neg (by simp),ih]
    · rw [List.replicate_succ,List.replicate_zero,List.cons_append,List.nil_append] at ih ⊢
      rw [unitEnd,if_neg (by simp),ih]
    · rw [List.replicate_succ,List.replicate_succ,List.cons_append,List.cons_append] at ih ⊢
      rw [unitEnd,if_neg (by simp),ih]

lemma unitEnd_le (xs : List UInt8) : unitEnd xs ≤ xs.length := by
  induction xs using unitEnd.induct with
  | case1 => exact le_refl 0
  | case2 => exact le_refl 1
  | case3 => exact le_refl 2
  | case4 a b c rest hcode =>
    rw [unitEnd,if_pos hcode]
    exact Nat.zero_le _
  | case5 a b c rest hcode ih =>
    rw [unitEnd,if_neg hcode]
    exact Nat.succ_le_succ ih

/-! ### Zeros in a word -/

/-- A bit of `h` that shows a zero in a word from which `m` is taken. -/
lemma shows_of_bit {w k : ℕ} {m h x : BitVec w} (hk : h.getLsbD k = true)
    (hx : x.toNat / 2 ^ k % 2 = 0) (hborrow : (x - m).toNat / 2 ^ k % 2 = 1) :
    (x - m) &&& ~~~x &&& h ≠ 0#w := by
  have hlt : k < w := BitVec.lt_of_getLsbD hk
  have hx' : x.getLsbD k = false := by
    rw [BitVec.getLsbD,Nat.testBit_eq_decide_div_mod_eq,hx]
    rfl
  have hborrow' : (x - m).getLsbD k = true := by
    rw [BitVec.getLsbD,Nat.testBit_eq_decide_div_mod_eq,hborrow]
    rfl
  have hbit : ((x - m) &&& ~~~x &&& h).getLsbD k = true := by
    rw [BitVec.getLsbD_and,BitVec.getLsbD_and,BitVec.getLsbD_not,hk,hx',hborrow',decide_eq_true hlt]
    rfl
  intro hzero
  rw [hzero] at hbit
  simp at hbit

end ZenMedia.ByteStuffing
