import ZenMedia.ByteStuffing

/-! Bit strings in bytes, the most significant bit of a byte first, and the stop bit that marks
where a string ends which has to fill whole bytes. -/
namespace ZenMedia.BitStrings
open ByteStuffing

/-- The last `n` bits of a number, the most significant first. -/
def bitsOf : ℕ → ℕ → List Bool
  | 0, _ => []
  | n + 1, v => bitsOf n (v / 2) ++ [decide (v % 2 = 1)]

/-- Reading on from the number `v`. -/
def value (v : ℕ) (bits : List Bool) : ℕ := bits.foldl (fun v b => 2 * v + b.toNat) v

def bits (bytes : List UInt8) : List Bool := bytes.flatMap fun b => bitsOf 8 b.toNat

@[simp] lemma bitsOf_length (n v : ℕ) : (bitsOf n v).length = n := by
  induction n generalizing v with
  | zero => rfl
  | succ n ih => simp [bitsOf,ih]

@[simp] lemma bits_length (bytes : List UInt8) : (bits bytes).length = 8 * bytes.length := by
  induction bytes with
  | nil => rfl
  | cons b bytes ih =>
    simp only [bits,List.flatMap_cons,List.length_append,bitsOf_length,List.length_cons] at ih ⊢
    omega

lemma bits_append (xs ys : List UInt8) : bits (xs ++ ys) = bits xs ++ bits ys := by
  simp [bits]

lemma value_append (v : ℕ) (xs ys : List Bool) : value v (xs ++ ys) = value (value v xs) ys := by
  simp [value]

lemma value_eq (v : ℕ) (xs : List Bool) : value v xs = v * 2 ^ xs.length + value 0 xs := by
  induction xs generalizing v with
  | nil => simp [value]
  | cons b xs ih =>
    have hv := ih (2 * v + b.toNat)
    have hzero := ih (2 * 0 + b.toNat)
    change value (2 * v + b.toNat) xs = _ + value (2 * 0 + b.toNat) xs
    rw [hv,hzero,List.length_cons,pow_succ]
    ring

lemma value_bitsOf (n v u : ℕ) : value u (bitsOf n v) = u * 2 ^ n + v % 2 ^ n := by
  induction n generalizing v with
  | zero => simp [bitsOf,value,Nat.mod_one]
  | succ n ih =>
    have hlast : (decide (v % 2 = 1)).toNat = v % 2 := by
      rcases Nat.mod_two_eq_zero_or_one v with h | h <;> simp [h]
    have hmod : v % 2 ^ (n + 1) = 2 * (v / 2 % 2 ^ n) + v % 2 := by
      rw [pow_succ',Nat.mod_mul]
      omega
    rw [bitsOf,value_append,ih,hmod]
    simp only [value,List.foldl_cons,List.foldl_nil,hlast,pow_succ]
    ring

lemma value_lt (xs : List Bool) (v : ℕ) : value v xs < (v + 1) * 2 ^ xs.length := by
  induction xs generalizing v with
  | nil => simp [value]
  | cons b xs ih =>
    have hnext := ih (2 * v + b.toNat)
    have hb : b.toNat ≤ 1 := Bool.toNat_le b
    have hpow : 0 < 2 ^ xs.length := Nat.two_pow_pos _
    change value (2 * v + b.toNat) xs < _
    rw [List.length_cons,pow_succ]
    nlinarith

/-- The bits of a number behind those of another. -/
lemma bitsOf_add (n m u v : ℕ) (h : v < 2 ^ m) :
    bitsOf (n + m) (u * 2 ^ m + v) = bitsOf n u ++ bitsOf m v := by
  induction m generalizing v with
  | zero =>
    have hv : v = 0 := by simpa using h
    simp [bitsOf,hv]
  | succ m ih =>
    have hdouble : u * 2 ^ (m + 1) = 2 * (u * 2 ^ m) := by ring
    have hhalf : (u * 2 ^ (m + 1) + v) / 2 = u * 2 ^ m + v / 2 := by omega
    have hlast : (u * 2 ^ (m + 1) + v) % 2 = v % 2 := by omega
    rw [← Nat.add_assoc,bitsOf,hhalf,hlast,ih (v / 2) (by rw [pow_succ] at h; omega),bitsOf,
      List.append_assoc]

lemma bitsOf_mod (n v : ℕ) : bitsOf n (v % 2 ^ n) = bitsOf n v := by
  induction n generalizing v with
  | zero => rfl
  | succ n ih =>
    have hhalf : v % 2 ^ (n + 1) / 2 = v / 2 % 2 ^ n := by
      rw [pow_succ',Nat.mod_mul_right_div_self]
    have hlast : v % 2 ^ (n + 1) % 2 = v % 2 := by
      rw [pow_succ',Nat.mod_mul_right_mod]
    rw [bitsOf,bitsOf,hhalf,hlast,ih]

lemma bitsOf_congr {n u v : ℕ} (h : u % 2 ^ n = v % 2 ^ n) : bitsOf n u = bitsOf n v := by
  rw [← bitsOf_mod n u,h,bitsOf_mod]

/-- The bits of a number that is kept in a word of `w` bits. -/
lemma bitsOf_word {n w : ℕ} (h : n ≤ w) (v : ℕ) : bitsOf n (v % 2 ^ w) = bitsOf n v := by
  apply bitsOf_congr
  exact Nat.mod_mod_of_dvd v (pow_dvd_pow 2 h)

lemma bitsOf_split (m n v : ℕ) : bitsOf (m + n) v = bitsOf m (v / 2 ^ n) ++ bitsOf n v := by
  have hadd := bitsOf_add m n (v / 2 ^ n) (v % 2 ^ n) (Nat.mod_lt _ (Nat.two_pow_pos n))
  rwa [Nat.div_add_mod',bitsOf_mod] at hadd

lemma bits_bigEndian (k n : ℕ) : bits (bigEndian k n) = bitsOf (8 * k) n := by
  induction k generalizing n with
  | zero => rfl
  | succ k ih =>
    have hbyte : bitsOf 8 (UInt8.ofNat n).toNat = bitsOf 8 n := by
      rw [UInt8.toNat_ofNat']
      exact bitsOf_mod 8 n
    have hsplit := bitsOf_split (8 * k) 8 n
    have hlast : bits [UInt8.ofNat n] = bitsOf 8 n := by
      rw [← hbyte]
      simp [bits]
    rw [bigEndian,bits_append,ih,hlast,Nat.mul_succ,hsplit]
    rfl

lemma bitsOf_zero (n : ℕ) : bitsOf n 0 = List.replicate n false := by
  induction n with
  | zero => rfl
  | succ n ih =>
    rw [bitsOf,Nat.zero_div,ih,List.replicate_succ']
    rfl

lemma bits_readOn (bytes : List UInt8) : bitsOf (8 * bytes.length) (readOn 0 bytes) = bits bytes := by
  induction bytes using List.reverseRecOn with
  | nil => rfl
  | append_singleton bytes b ih =>
    have hlast : bits [b] = bitsOf 8 b.toNat := by simp [bits]
    have hread : readOn 0 (bytes ++ [b]) = readOn 0 bytes * 2 ^ 8 + b.toNat := by
      rw [readOn_append]
      rfl
    rw [List.length_append,List.length_singleton,Nat.mul_succ,hread,
      bitsOf_add _ _ _ _ (UInt8.toNat_lt b),ih,bits_append,hlast]

lemma bits_take (m : ℕ) (bytes : List UInt8) : bits (bytes.take m) = (bits bytes).take (8 * m) := by
  induction m generalizing bytes with
  | zero => simp [bits]
  | succ m ih =>
    cases bytes with
    | nil => simp [bits]
    | cons b bytes =>
      have hcons (xs : List UInt8) : bits (b :: xs) = bitsOf 8 b.toNat ++ bits xs := by simp [bits]
      have htake : (bitsOf 8 b.toNat ++ bits bytes).take ((bitsOf 8 b.toNat).length + 8 * m) =
          bitsOf 8 b.toNat ++ (bits bytes).take (8 * m) := List.take_length_add_append (8 * m)
      rw [bitsOf_length] at htake
      rw [List.take_succ_cons,hcons,hcons,ih,Nat.mul_succ,Nat.add_comm,htake]

lemma bits_drop (m : ℕ) (bytes : List UInt8) : bits (bytes.drop m) = (bits bytes).drop (8 * m) := by
  have hsplit := bits_append (bytes.take m) (bytes.drop m)
  rw [List.take_append_drop] at hsplit
  rcases Nat.le_total m bytes.length with hle | hle
  · have hlen : (bits (bytes.take m)).length = 8 * m := by
      rw [bits_length,List.length_take,min_eq_left hle]
    rw [hsplit,← hlen,List.drop_left]
  · rw [List.drop_of_length_le hle,List.drop_of_length_le (by rw [bits_length]; omega)]
    rfl

lemma value_bits (bytes : List UInt8) : value 0 (bits bytes) = readOn 0 bytes := by
  induction bytes using List.reverseRecOn with
  | nil => rfl
  | append_singleton bytes b ih =>
    have hlast : bits [b] = bitsOf 8 b.toNat := by simp [bits]
    have hread : readOn 0 (bytes ++ [b]) = readOn 0 bytes * 2 ^ 8 + b.toNat := by
      rw [readOn_append]
      rfl
    rw [bits_append,value_append,ih,hlast,value_bitsOf,hread,Nat.mod_eq_of_lt (UInt8.toNat_lt b)]

/-! ### The stop bit -/

/-- What comes before the last bit that is set. -/
def beforeStop (bits : List Bool) : List Bool := ((bits.reverse.dropWhile (!·)).drop 1).reverse

lemma beforeStop_stopped (content : List Bool) (k : ℕ) :
    beforeStop (content ++ true :: List.replicate k false) = content := by
  have hreverse : (content ++ true :: List.replicate k false).reverse =
      List.replicate k false ++ true :: content.reverse := by simp
  have hzeros : ∀ b ∈ List.replicate k false, (!b) = true := by
    intro b hb
    rw [List.eq_of_mem_replicate hb]
    rfl
  rw [beforeStop,hreverse,List.dropWhile_append_of_pos hzeros]
  simp

/-- Nothing comes in by zeros at the end. -/
lemma beforeStop_padded (xs : List Bool) (k : ℕ) :
    beforeStop (xs ++ List.replicate k false) = beforeStop xs := by
  have hzeros : ∀ b ∈ List.replicate k false, (!b) = true := by
    intro b hb
    rw [List.eq_of_mem_replicate hb]
    rfl
  rw [beforeStop,List.reverse_append,List.reverse_replicate,List.dropWhile_append_of_pos hzeros]
  rfl

/-- Without a bit that is set, there is nothing before it. -/
lemma beforeStop_zeros (k : ℕ) : beforeStop (List.replicate k false) = [] := by
  simp [beforeStop]

end ZenMedia.BitStrings
