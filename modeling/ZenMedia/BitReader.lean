import ZenMedia.NalSplitting

/-! How the decoder reads bits: from four bytes at a time, of which 25 bits can be used whatever
the index, and with tables for the short codes. -/
namespace ZenMedia.GetBits
open ByteStuffing BitStrings Avc H264

/-- `UPDATE_CACHE` and `GET_CACHE` -/
def cache (buf : List UInt8) (index : ℕ) : ℕ := (rb32 buf (index >>> 3) <<< (index &&& 7)) % 2 ^ 32

/-- `get_bits`; what each reader leaves is the index. -/
def getBits (n : ℕ) (buf : List UInt8) (index : ℕ) : ℕ × ℕ := (cache buf index >>> (32 - n),index + n)

/-- `get_bits1` -/
def getBits1 (buf : List UInt8) (index : ℕ) : ℕ × ℕ :=
  ((((byteAt buf (index >>> 3)).toNat <<< (index &&& 7)) % 256) >>> 7,index + 1)

/-- `get_bits_long` -/
def getBitsLong (n : ℕ) (buf : List UInt8) (index : ℕ) : ℕ × ℕ :=
  if n = 0 then (0,index)
  else if n ≤ 25 then getBits n buf index
  else
    let (ret,index) := getBits 16 buf index
    let (low,index) := getBits (n - 16) buf index
    (ret <<< (n - 16) ||| low,index)

/-- `show_bits_long` -/
def showBitsLong (n : ℕ) (buf : List UInt8) (index : ℕ) : ℕ := (getBitsLong n buf index).1

def golombVlcLen : List ℕ :=
  [19,17,15,15] ++ List.replicate 4 13 ++ List.replicate 8 11 ++ List.replicate 16 9 ++
    List.replicate 32 7 ++ List.replicate 64 5 ++ List.replicate 128 3 ++ List.replicate 256 1

def ueGolombVlcCode : List ℕ :=
  List.replicate 8 32 ++ [31] ++ List.replicate 7 32 ++ (List.range 16).map (· + 15) ++
    (List.range 8).flatMap (fun i => List.replicate 4 (i + 7)) ++
    (List.range 4).flatMap (fun i => List.replicate 16 (i + 3)) ++
    List.replicate 64 1 ++ List.replicate 64 2 ++ List.replicate 256 0

def seGolombVlcCode : List ℤ :=
  List.replicate 8 17 ++ [16] ++ List.replicate 7 17 ++
    [8,-8,9,-9,10,-10,11,-11,12,-12,13,-13,14,-14,15,-15] ++
    ([4,-4,5,-5,6,-6,7,-7] : List ℤ).flatMap (List.replicate 4) ++
    ([2,-2,3,-3] : List ℤ).flatMap (List.replicate 16) ++
    List.replicate 64 1 ++ List.replicate 64 (-1) ++ List.replicate 256 0

def AVERROR_INVALIDDATA : ℤ := -1094995529

/-- `get_ue_golomb` -/
def getUeGolomb (buf : List UInt8) (index : ℕ) : ℤ × ℕ :=
  let word := cache buf index
  if 2 ^ 27 ≤ word then
    let short := word >>> (32 - 9)
    (ueGolombVlcCode.getD short 0,index + golombVlcLen.getD short 0)
  else
    let log : ℤ := 2 * Nat.log2 word - 31
    let index := index + (32 - log).toNat
    if log < 7 then (AVERROR_INVALIDDATA,index) else (((word >>> log.toNat) - 1 : ℕ),index)

/-- `get_ue_golomb_long` -/
def getUeGolombLong (buf : List UInt8) (index : ℕ) : ℕ × ℕ :=
  let log := 31 - Nat.log2 (showBitsLong 32 buf index)
  let (word,index) := getBitsLong (log + 1) buf (index + log)
  ((word + (2 ^ 32 - 1)) % 2 ^ 32,index)

/-- `((buf >> 1) ^ sign) - sign` -/
def signed (word : ℕ) : ℤ :=
  let word := BitVec.ofNat 32 word
  let sign := -(word &&& 1#32)
  (((word >>> 1) ^^^ sign) - sign).toInt

/-- `get_se_golomb` -/
def getSeGolomb (buf : List UInt8) (index : ℕ) : ℤ × ℕ :=
  let word := cache buf index
  if 2 ^ 27 ≤ word then
    let short := word >>> (32 - 9)
    (seGolombVlcCode.getD short 0,index + golombVlcLen.getD short 0)
  else
    let log := Nat.log2 word
    let index := index + (31 - log)
    let word := cache buf index >>> log
    (signed word,index + (32 - log))

/-- `get_te_golomb` -/
def getTeGolomb (range : ℕ) (buf : List UInt8) (index : ℕ) : ℤ × ℕ :=
  if range = 2 then
    let (bit,index) := getBits1 buf index
    ((bit ^^^ 1 : ℕ),index)
  else getUeGolomb buf index

/-! ### What is read -/

/-- What can be read from `index` on, the padding included. -/
def ahead (buf : List UInt8) (index : ℕ) : List Bool := (bits (buf ++ List.replicate 8 0)).drop index

/-- Zeros that are added are read as the padding. -/
lemma byteAt_padded (buf : List UInt8) (k i : ℕ) : byteAt (buf ++ List.replicate k 0) i = byteAt buf i := by
  simp only [byteAt,List.getD_eq_getElem?_getD,List.getElem?_append]
  split_ifs with hlt
  · rfl
  · rw [List.getElem?_eq_none (not_lt.mp hlt),List.getElem?_replicate]
    split_ifs <;> rfl

lemma rb32_padded (buf : List UInt8) (k i : ℕ) : rb32 (buf ++ List.replicate k 0) i = rb32 buf i := by
  simp only [rb32,byteAt_padded]

/-- The cache has the next bits, the first of them at the top. -/
lemma cache_eq (buf : List UInt8) {index : ℕ} (h : index ≤ 8 * buf.length + 32) :
    cache buf index = value 0 ((ahead buf index).take (32 - index % 8)) * 2 ^ (index % 8) := by
  have hmask : index &&& 7 = index % 8 := Nat.and_two_pow_sub_one_eq_mod index 3
  have hbyte : index >>> 3 = index / 8 := Nat.shiftRight_eq_div_pow index 3
  have hr : index % 8 < 8 := Nat.mod_lt _ (by decide)
  have hindex : 8 * (index / 8) + index % 8 = index := Nat.div_add_mod index 8
  rw [cache,hmask,hbyte,← rb32_padded buf 8,
    rb32_eq (by rw [List.length_append,List.length_replicate]; omega),← value_bits,bits_take,bits_drop]
  obtain ⟨word,hword⟩ : ∃ word,
    ((bits (buf ++ List.replicate 8 0)).drop (8 * (index / 8))).take (8 * 4) = word := ⟨_,rfl⟩
  have hlen : word.length = 32 := by
    rw [← hword,List.length_take,List.length_drop,bits_length,List.length_append,List.length_replicate]
    omega
  have hahead : (ahead buf index).take (32 - index % 8) = word.drop (index % 8) := by
    rw [← hword,List.drop_take,List.drop_drop,hindex,ahead]
  have hvalue : value 0 word = value 0 (word.take (index % 8)) * 2 ^ (32 - index % 8) +
      value 0 (word.drop (index % 8)) := by
    conv_lhs => rw [← List.take_append_drop (index % 8) word,value_append,value_eq]
    rw [List.length_drop,hlen]
  have hlow : value 0 (word.drop (index % 8)) < 2 ^ (32 - index % 8) := by
    have hlt := value_lt (word.drop (index % 8)) 0
    rwa [List.length_drop,hlen,Nat.zero_add,Nat.one_mul] at hlt
  have hpow : 2 ^ (32 - index % 8) * 2 ^ (index % 8) = 2 ^ 32 := by
    rw [← pow_add,Nat.sub_add_cancel (by omega)]
  rw [hword,hahead,hvalue,Nat.shiftLeft_eq,Nat.add_mul,Nat.mul_assoc,hpow,Nat.mul_add_mod_self_right]
  apply Nat.mod_eq_of_lt
  rw [← hpow]
  exact Nat.mul_lt_mul_of_pos_right hlow (Nat.two_pow_pos _)

section Codes
variable {buf : List UInt8} {index : ℕ} {code rest : List Bool}

/-- A code that comes next stands at the top of the cache. -/
lemma cache_code (h : index ≤ 8 * buf.length + 32) (hcode : ahead buf index = code ++ rest)
    (hlen : code.length ≤ 25) : ∃ y < 2 ^ (32 - code.length),
      cache buf index = value 0 code * 2 ^ (32 - code.length) + y := by
  have hr : index % 8 < 8 := Nat.mod_lt _ (by decide)
  have hall : (ahead buf index).length = 8 * (buf.length + 8) - index := by
    rw [ahead,List.length_drop,bits_length,List.length_append,List.length_replicate]
  obtain ⟨tail,htail⟩ : ∃ tail, rest.take (32 - index % 8 - code.length) = tail := ⟨_,rfl⟩
  have htaillen : tail.length = 32 - index % 8 - code.length := by
    rw [hcode,List.length_append] at hall
    rw [← htail,List.length_take]
    omega
  have hlow : value 0 tail < 2 ^ (32 - index % 8 - code.length) := by
    have hlt := value_lt tail 0
    rwa [htaillen,Nat.zero_add,Nat.one_mul] at hlt
  have hpow : 2 ^ (32 - index % 8 - code.length) * 2 ^ (index % 8) = 2 ^ (32 - code.length) := by
    rw [← pow_add]
    congr 1
    omega
  refine ⟨value 0 tail * 2 ^ (index % 8),?_,?_⟩
  · rw [← hpow]
    exact Nat.mul_lt_mul_of_pos_right hlow (Nat.two_pow_pos _)
  · rw [cache_eq buf h,hcode,List.take_append,List.take_of_length_le (by omega),htail,value_append,
      value_eq,htaillen,Nat.add_mul,Nat.mul_assoc,hpow]

lemma cache_top (h : index ≤ 8 * buf.length + 32) (hcode : ahead buf index = code ++ rest)
    (hlen : code.length ≤ 25) : cache buf index >>> (32 - code.length) = value 0 code := by
  obtain ⟨y,hy,hcache⟩ := cache_code h hcode hlen
  rw [hcache,Nat.shiftRight_eq_div_pow,Nat.add_comm,Nat.add_mul_div_right _ _ (Nat.two_pow_pos _),
    Nat.div_eq_of_lt hy,Nat.zero_add]

lemma getBits_code (h : index ≤ 8 * buf.length + 32) (hcode : ahead buf index = code ++ rest)
    (hlen : code.length ≤ 25) : getBits code.length buf index = (value 0 code,index + code.length) := by
  rw [getBits,cache_top h hcode hlen]

lemma ahead_add (hcode : ahead buf index = code ++ rest) : ahead buf (index + code.length) = rest := by
  rw [ahead,← List.drop_drop]
  change (ahead buf index).drop _ = rest
  rw [hcode,List.drop_left]

lemma getBitsLong_code (h : index ≤ 8 * buf.length + 16) (hcode : ahead buf index = code ++ rest)
    (hlen : code.length ≤ 32) : getBitsLong code.length buf index = (value 0 code,index + code.length) := by
  unfold getBitsLong
  split_ifs with hzero hshort
  · rw [List.length_eq_zero_iff.mp hzero]
    rfl
  · exact getBits_code (by omega) hcode hshort
  · have hparts : code = code.take 16 ++ code.drop 16 := (List.take_append_drop 16 code).symm
    have hfirst : (code.take 16).length = 16 := by
      rw [List.length_take]
      omega
    have hlast : (code.drop 16).length = code.length - 16 := List.length_drop
    rw [hparts,List.append_assoc] at hcode
    have hhigh := getBits_code (by omega) hcode (by omega)
    have hnext := ahead_add hcode
    rw [hfirst] at hhigh hnext
    have hlow := getBits_code (by omega : index + 16 ≤ 8 * buf.length + 32) hnext (by omega)
    have hlt := value_lt (code.drop 16) 0
    rw [hlast] at hlow hlt
    have hvalue : value 0 code = value 0 (code.take 16) <<< (code.length - 16) ||| value 0 (code.drop 16) := by
      rw [← Nat.shiftLeft_add_eq_or_of_lt (by simpa using hlt),Nat.shiftLeft_eq,← hlast,← value_eq,
        ← value_append,← hparts]
    rw [hhigh]
    dsimp only
    rw [hlow]
    dsimp only
    rw [hvalue,Prod.mk.injEq]
    exact ⟨rfl,by omega⟩

end Codes

/-- The top bit of a word of `w + 1` bits, after it has been moved up. -/
lemma top_shifted (v : ℕ) {w r : ℕ} (h : r ≤ w) :
    ((v <<< r) % 2 ^ (w + 1)) >>> w = v / 2 ^ (w - r) % 2 := by
  have hpow : 2 ^ w = 2 ^ (w - r) * 2 ^ r := by
    rw [← pow_add,Nat.sub_add_cancel h]
  rw [Nat.shiftRight_eq_div_pow,Nat.shiftLeft_eq,pow_succ,Nat.mod_mul_right_div_self,hpow,
    Nat.mul_div_mul_right _ _ (Nat.two_pow_pos r)]

/-- One bit alone is read without the cache. -/
lemma getBits1_eq (buf : List UInt8) (index : ℕ) : getBits1 buf index = getBits 1 buf index := by
  have hmask : index &&& 7 = index % 8 := Nat.and_two_pow_sub_one_eq_mod index 3
  have hr : index % 8 < 8 := Nat.mod_lt _ (by decide)
  obtain ⟨low,hlow,hword⟩ : ∃ low < 2 ^ 24,
      rb32 buf (index >>> 3) = (byteAt buf (index >>> 3)).toNat * 2 ^ 24 + low := by
    have hb (i : ℕ) : (byteAt buf i).toNat < 256 := UInt8.toNat_lt _
    have h₁ := hb (index >>> 3 + 1)
    have h₂ := hb (index >>> 3 + 2)
    have h₃ := hb (index >>> 3 + 3)
    refine ⟨(byteAt buf (index >>> 3 + 1)).toNat * 65536 + (byteAt buf (index >>> 3 + 2)).toNat * 256 +
      (byteAt buf (index >>> 3 + 3)).toNat,by omega,?_⟩
    simp only [rb32,readOn,List.foldl_cons,List.foldl_nil]
    omega
  have hpow : 2 ^ (31 - index % 8) = 2 ^ 24 * 2 ^ (7 - index % 8) := by
    rw [← pow_add]
    congr 1
    omega
  have hbyte := top_shifted (byteAt buf (index >>> 3)).toNat (by omega : index % 8 ≤ 7)
  have hcache := top_shifted (rb32 buf (index >>> 3)) (by omega : index % 8 ≤ 31)
  rw [getBits1,getBits,cache,hmask]
  change ((_ % 2 ^ (7 + 1)) >>> 7,_) = ((_ % 2 ^ (31 + 1)) >>> 31,_)
  have hfirst : ((byteAt buf (index >>> 3)).toNat * 2 ^ 24 + low) / 2 ^ 24 =
      (byteAt buf (index >>> 3)).toNat := by omega
  rw [hbyte,hcache,hword,hpow,← Nat.div_div_eq_div_mul,hfirst]

/-! ### Golomb codes -/

/-- The code of `v`: as many zeros as bits follow the first of `v + 1`. -/
def ueCode (v : ℕ) : List Bool := bitsOf (2 * Nat.log2 (v + 1) + 1) (v + 1)

/-- The sign of a number is its last bit. -/
def signedOf (t : ℕ) : ℤ := if t % 2 = 1 then -(t / 2 : ℕ) else (t / 2 : ℕ)

lemma log2_shifted {t y n : ℕ} (ht : 0 < t) (hy : y < 2 ^ n) :
    Nat.log2 (t * 2 ^ n + y) = Nat.log2 t + n := by
  have hpos : 0 < 2 ^ n := Nat.two_pow_pos n
  have hlow := (Nat.log2_eq_iff (Nat.ne_of_gt ht)).mp rfl
  have hne : t * 2 ^ n + y ≠ 0 := by
    have := Nat.mul_pos ht hpos
    omega
  rw [Nat.log2_eq_iff hne,Nat.add_right_comm,pow_add,pow_add]
  constructor
  · exact le_trans (Nat.mul_le_mul_right _ hlow.1) (Nat.le_add_right _ _)
  · have hmul : (t + 1) * 2 ^ n ≤ 2 ^ (Nat.log2 t + 1) * 2 ^ n := Nat.mul_le_mul_right _ hlow.2
    rw [Nat.add_mul,Nat.one_mul] at hmul
    omega

lemma getD_of_drop {α : Type} {xs : List α} {f : ℕ → α} {m n : ℕ} (d : α)
    (h : xs.drop m = (List.range' m n).map f) {i : ℕ} (hm : m ≤ i) (hn : i < m + n) :
    xs.getD i d = f i := by
  have hget : xs[i]? = (xs.drop m)[i - m]? := by
    rw [List.getElem?_drop,Nat.add_sub_cancel' hm]
  have hlt : i - m < n := by omega
  rw [List.getD_eq_getElem?_getD,hget,h,List.getElem?_map,List.getElem?_range' hlt]
  simp [hm]

/-- Codes of up to nine bits are in the tables. -/
lemma golomb_tables {i : ℕ} (hlow : 16 ≤ i) (hhigh : i < 512) :
    golombVlcLen.getD i 0 = 2 * (8 - Nat.log2 i) + 1 ∧
      ueGolombVlcCode.getD i 0 = i >>> (8 - 2 * (8 - Nat.log2 i)) - 1 ∧
      seGolombVlcCode.getD i 0 = signedOf (i >>> (8 - 2 * (8 - Nat.log2 i))) := by
  have hlen : golombVlcLen.drop 16 =
      (List.range' 16 496).map (fun i => 2 * (8 - Nat.log2 i) + 1) := by decide +kernel
  have hue : ueGolombVlcCode.drop 16 =
      (List.range' 16 496).map (fun i => i >>> (8 - 2 * (8 - Nat.log2 i)) - 1) := by decide +kernel
  have hse : seGolombVlcCode.drop 16 =
      (List.range' 16 496).map (fun i => signedOf (i >>> (8 - 2 * (8 - Nat.log2 i)))) := by
    decide +kernel
  exact ⟨getD_of_drop 0 hlen hlow hhigh,getD_of_drop 0 hue hlow hhigh,getD_of_drop 0 hse hlow hhigh⟩

section Codes
variable {buf : List UInt8} {index v : ℕ} {rest : List Bool}

lemma ueCode_length (v : ℕ) : (ueCode v).length = 2 * Nat.log2 (v + 1) + 1 := bitsOf_length _ _

lemma log2_bounds (v : ℕ) : 2 ^ Nat.log2 (v + 1) ≤ v + 1 ∧ v + 1 < 2 ^ (Nat.log2 (v + 1) + 1) :=
  (Nat.log2_eq_iff (Nat.succ_ne_zero v)).mp rfl

lemma value_ueCode (v : ℕ) : value 0 (ueCode v) = v + 1 := by
  have hlt := (log2_bounds v).2
  have hle : 2 ^ (Nat.log2 (v + 1) + 1) ≤ 2 ^ (2 * Nat.log2 (v + 1) + 1) :=
    Nat.pow_le_pow_right (by decide : (2 : ℕ) > 0) (by omega)
  rw [ueCode,value_bitsOf,Nat.mod_eq_of_lt (lt_of_lt_of_le hlt hle),Nat.zero_mul,Nat.zero_add]

/-- The zeros a code begins with, and the number behind them. -/
lemma ueCode_split (v : ℕ) : ueCode v =
    List.replicate (Nat.log2 (v + 1)) false ++ bitsOf (Nat.log2 (v + 1) + 1) (v + 1) := by
  have hlt := (log2_bounds v).2
  have hadd := bitsOf_add (Nat.log2 (v + 1)) (Nat.log2 (v + 1) + 1) 0 (v + 1) hlt
  have hlen : Nat.log2 (v + 1) + (Nat.log2 (v + 1) + 1) = 2 * Nat.log2 (v + 1) + 1 := by omega
  rwa [Nat.zero_mul,Nat.zero_add,bitsOf_zero,hlen] at hadd

/-- Its first bit is the highest of `v + 1`. -/
lemma ueCode_leading (v : ℕ) : ueCode v =
    (List.replicate (Nat.log2 (v + 1)) false ++ [true]) ++ bitsOf (Nat.log2 (v + 1)) (v + 1) := by
  obtain ⟨hlow,hhigh⟩ := log2_bounds v
  have htop : (v + 1) / 2 ^ Nat.log2 (v + 1) = 1 := by
    rw [pow_succ] at hhigh
    exact Nat.div_eq_of_lt_le (by omega) (by omega)
  rw [ueCode_split,Nat.add_comm (Nat.log2 (v + 1)) 1,bitsOf_split,htop,List.append_assoc]
  rfl

/-- The zeros that come next are counted. -/
lemma cache_leading (h : index ≤ 8 * buf.length + 32) {zeros : ℕ}
    (hcode : ahead buf index = (List.replicate zeros false ++ [true]) ++ rest) (hzeros : zeros ≤ 24) :
    Nat.log2 (cache buf index) = 31 - zeros ∧ cache buf index ≠ 0 := by
  have hlen : (List.replicate zeros false ++ [true]).length = zeros + 1 := by simp
  have hvalue : value 0 (List.replicate zeros false ++ [true]) = 1 := by
    rw [← bitsOf_zero,value_append,value_bitsOf,Nat.zero_mod,Nat.zero_mul]
    rfl
  obtain ⟨y,hy,hcache⟩ := cache_code h hcode (by omega)
  rw [hvalue,hlen] at hcache
  rw [hlen] at hy
  have hlog := log2_shifted Nat.one_pos hy
  have hone : Nat.log2 1 = 0 := by decide
  rw [hcache,hlog,hone]
  refine ⟨by omega,?_⟩
  have := Nat.two_pow_pos (32 - (zeros + 1))
  omega

/-- In the cache, the tables are asked for the short codes. -/
lemma cache_short_iff (h : index ≤ 8 * buf.length + 32) (hcode : ahead buf index = ueCode v ++ rest)
    (hv : Nat.log2 (v + 1) ≤ 24) : 2 ^ 27 ≤ cache buf index ↔ Nat.log2 (v + 1) ≤ 4 := by
  rw [ueCode_leading,List.append_assoc] at hcode
  obtain ⟨hlog,hne⟩ := cache_leading h hcode hv
  rw [← Nat.le_log2 hne,hlog]
  omega

lemma cache_ueCode (h : index ≤ 8 * buf.length + 32) (hcode : ahead buf index = ueCode v ++ rest)
    (hv : Nat.log2 (v + 1) ≤ 12) : cache buf index >>> (31 - 2 * Nat.log2 (v + 1)) = v + 1 := by
  have hlen := ueCode_length v
  have htop := cache_top h hcode (by omega)
  have hlog : 32 - (2 * Nat.log2 (v + 1) + 1) = 31 - 2 * Nat.log2 (v + 1) := by omega
  rwa [value_ueCode,hlen,hlog] at htop

/-- What the tables say of a short code. -/
lemma short_code (h : index ≤ 8 * buf.length + 32) (hcode : ahead buf index = ueCode v ++ rest)
    (hv : Nat.log2 (v + 1) ≤ 4) :
    golombVlcLen.getD (cache buf index >>> 23) 0 = (ueCode v).length ∧
      ueGolombVlcCode.getD (cache buf index >>> 23) 0 = v ∧
      seGolombVlcCode.getD (cache buf index >>> 23) 0 = signedOf (v + 1) := by
  obtain ⟨short,hshort⟩ : ∃ short, cache buf index >>> 23 = short := ⟨_,rfl⟩
  have htop := cache_ueCode h hcode (by omega)
  have hsplit : 31 - 2 * Nat.log2 (v + 1) = 23 + (8 - 2 * Nat.log2 (v + 1)) := by omega
  rw [hsplit,Nat.shiftRight_add,hshort] at htop
  have hparts : (v + 1) * 2 ^ (8 - 2 * Nat.log2 (v + 1)) + short % 2 ^ (8 - 2 * Nat.log2 (v + 1)) =
      short := by
    have hdiv := Nat.div_add_mod' short (2 ^ (8 - 2 * Nat.log2 (v + 1)))
    rwa [← Nat.shiftRight_eq_div_pow,htop] at hdiv
  have hpos : 0 < v + 1 := Nat.succ_pos v
  have hlog := log2_shifted hpos
    (Nat.mod_lt short (Nat.two_pow_pos (8 - 2 * Nat.log2 (v + 1))))
  rw [hparts] at hlog
  have hne : short ≠ 0 := by
    intro hzero
    rw [hzero,Nat.zero_shiftRight] at htop
    omega
  have hlow : 16 ≤ short := (Nat.le_log2 hne).mp (by omega : 4 ≤ Nat.log2 short)
  have hhigh : short < 512 := (Nat.log2_lt hne).mp (by omega : Nat.log2 short < 9)
  have hcount : 8 - Nat.log2 short = Nat.log2 (v + 1) := by omega
  have htables := golomb_tables hlow hhigh
  rw [hcount,htop] at htables
  rw [hshort,ueCode_length]
  exact htables

/-- A code of up to 25 bits is read by `get_ue_golomb`. -/
lemma getUeGolomb_code (h : index ≤ 8 * buf.length + 32) (hcode : ahead buf index = ueCode v ++ rest)
    (hv : v + 1 < 2 ^ 13) : getUeGolomb buf index = ((v : ℤ),index + (ueCode v).length) := by
  have hlog : Nat.log2 (v + 1) ≤ 12 :=
    Nat.le_of_lt_succ ((Nat.log2_lt (Nat.succ_ne_zero v)).mpr hv)
  rw [getUeGolomb]
  by_cases hshort : Nat.log2 (v + 1) ≤ 4
  · obtain ⟨hlen,hue,-⟩ := short_code h hcode hshort
    simp only [(cache_short_iff h hcode (by omega)).mpr hshort,if_true]
    rw [hlen,hue]
  · have hlong : ¬ 2 ^ 27 ≤ cache buf index := fun hle =>
      hshort ((cache_short_iff h hcode (by omega)).mp hle)
    have hleading := hcode
    rw [ueCode_leading,List.append_assoc] at hleading
    have hcount := (cache_leading h hleading (by omega)).1
    have htop := cache_ueCode h hcode hlog
    have hnat : (2 * (Nat.log2 (cache buf index) : ℤ) - 31).toNat = 31 - 2 * Nat.log2 (v + 1) := by
      rw [hcount]
      omega
    have hskip : (32 - (2 * (Nat.log2 (cache buf index) : ℤ) - 31)).toNat = 2 * Nat.log2 (v + 1) + 1 := by
      rw [hcount]
      omega
    simp only [hlong,if_false]
    rw [if_neg (by rw [hcount]; omega),hnat,hskip,htop,ueCode_length]
    rfl

/-- What is behind the zeros. -/
lemma ahead_number (hcode : ahead buf index = ueCode v ++ rest) : ahead buf (index + Nat.log2 (v + 1)) =
    bitsOf (Nat.log2 (v + 1) + 1) (v + 1) ++ rest := by
  rw [ueCode_split,List.append_assoc] at hcode
  have hnext := ahead_add hcode
  rwa [List.length_replicate] at hnext

lemma value_number (v : ℕ) : value 0 (bitsOf (Nat.log2 (v + 1) + 1) (v + 1)) = v + 1 := by
  rw [value_bitsOf,Nat.zero_mul,Nat.zero_add,Nat.mod_eq_of_lt (log2_bounds v).2]

lemma signed_eq {t : ℕ} (h : t < 2 ^ 32) : signed t = signedOf t := by
  have hword : (BitVec.ofNat 32 t).toNat = t := by
    rw [BitVec.toNat_ofNat,Nat.mod_eq_of_lt h]
  have hhalf : (BitVec.ofNat 32 t >>> 1).toNat = t / 2 := by
    rw [BitVec.toNat_ushiftRight,hword,Nat.shiftRight_eq_div_pow]
  have hbit : (BitVec.ofNat 32 t &&& 1#32).toNat = t % 2 := by
    rw [BitVec.toNat_and,hword]
    exact Nat.and_one_is_mod t
  rw [signed,signedOf]
  rcases Nat.mod_two_eq_zero_or_one t with heven | hodd
  · have hzero : BitVec.ofNat 32 t &&& 1#32 = 0#32 := by
      apply BitVec.eq_of_toNat_eq
      rw [hbit,heven]
      rfl
    rw [if_neg (by omega),hzero,BitVec.neg_zero,BitVec.xor_zero,BitVec.sub_zero,
      BitVec.toInt_eq_toNat_of_lt (by rw [hhalf]; omega),hhalf]
  · have hone : BitVec.ofNat 32 t &&& 1#32 = 1#32 := by
      apply BitVec.eq_of_toNat_eq
      rw [hbit,hodd]
      rfl
    have hnot : ((BitVec.ofNat 32 t >>> 1) ^^^ BitVec.allOnes 32) = ~~~(BitVec.ofNat 32 t >>> 1) :=
      BitVec.xor_allOnes
    rw [if_pos hodd,hone,BitVec.neg_one_eq_allOnes,hnot]
    rw [BitVec.toInt_eq_toNat_cond,BitVec.toNat_sub,BitVec.toNat_not,hhalf,BitVec.toNat_allOnes]
    split_ifs <;> omega

/-- A signed code is read by `get_se_golomb`, also where the cache has to be filled again. -/
lemma getSeGolomb_code (h : index + Nat.log2 (v + 1) ≤ 8 * buf.length + 32)
    (hcode : ahead buf index = ueCode v ++ rest) (hv : Nat.log2 (v + 1) ≤ 24) :
    getSeGolomb buf index = (signedOf (v + 1),index + (ueCode v).length) := by
  have hindex : index ≤ 8 * buf.length + 32 := by omega
  rw [getSeGolomb]
  by_cases hshort : Nat.log2 (v + 1) ≤ 4
  · obtain ⟨hlen,-,hse⟩ := short_code hindex hcode hshort
    simp only [(cache_short_iff hindex hcode hv).mpr hshort,if_true]
    rw [hlen,hse]
  · have hlong : ¬ 2 ^ 27 ≤ cache buf index := fun hle =>
      hshort ((cache_short_iff hindex hcode hv).mp hle)
    have hleading := hcode
    rw [ueCode_leading,List.append_assoc] at hleading
    have hcount := (cache_leading hindex hleading hv).1
    have hnumber := cache_top h (ahead_number hcode) (by rw [bitsOf_length]; omega)
    rw [bitsOf_length,value_number] at hnumber
    have hzeros : 31 - (31 - Nat.log2 (v + 1)) = Nat.log2 (v + 1) := by omega
    have hlog : 31 - Nat.log2 (v + 1) = 32 - (Nat.log2 (v + 1) + 1) := by omega
    have hlt := (log2_bounds v).2
    have hle : 2 ^ (Nat.log2 (v + 1) + 1) ≤ 2 ^ 25 :=
      Nat.pow_le_pow_right (by decide : (2 : ℕ) > 0) (by omega)
    simp only [hlong,if_false,hcount,hzeros]
    rw [hlog,hnumber,signed_eq (by omega),ueCode_length,Prod.mk.injEq]
    exact ⟨rfl,by omega⟩

/-- A code of up to 63 bits is read by `get_ue_golomb_long`. -/
lemma getUeGolombLong_code (h : index + Nat.log2 (v + 1) ≤ 8 * buf.length + 16)
    (hcode : ahead buf index = ueCode v ++ rest) (hv : v + 1 < 2 ^ 32) :
    getUeGolombLong buf index = (v,index + (ueCode v).length) := by
  have hlog : Nat.log2 (v + 1) ≤ 31 :=
    Nat.le_of_lt_succ ((Nat.log2_lt (Nat.succ_ne_zero v)).mpr hv)
  have hall : (ahead buf index).length = 8 * (buf.length + 8) - index := by
    rw [ahead,List.length_drop,bits_length,List.length_append,List.length_replicate]
  have hfirst : ((ahead buf index).take 32).length = 32 := by
    rw [List.length_take]
    omega
  have hshown := getBitsLong_code (by omega : index ≤ 8 * buf.length + 16)
    (List.take_append_drop 32 (ahead buf index)).symm (by omega)
  rw [hfirst] at hshown
  have hleading := hcode
  rw [ueCode_leading,List.append_assoc] at hleading
  have hcount : Nat.log2 (value 0 ((ahead buf index).take 32)) = 31 - Nat.log2 (v + 1) := by
    have hlen : (List.replicate (Nat.log2 (v + 1)) false ++ [true]).length = Nat.log2 (v + 1) + 1 := by
      simp
    have hvalue : value 0 (List.replicate (Nat.log2 (v + 1)) false ++ [true]) = 1 := by
      rw [← bitsOf_zero,value_append,value_bitsOf,Nat.zero_mod,Nat.zero_mul]
      rfl
    obtain ⟨tail,htail⟩ : ∃ tail, (bitsOf (Nat.log2 (v + 1)) (v + 1) ++ rest).take
      (32 - (Nat.log2 (v + 1) + 1)) = tail := ⟨_,rfl⟩
    have htake : (ahead buf index).take 32 =
        (List.replicate (Nat.log2 (v + 1)) false ++ [true]) ++ tail := by
      rw [hleading,List.take_append,List.take_of_length_le (by omega),hlen,htail]
    have htaillen : tail.length = 31 - Nat.log2 (v + 1) := by
      rw [htake,List.length_append,hlen] at hfirst
      omega
    have hlow := value_lt tail 0
    rw [Nat.zero_add,Nat.one_mul,htaillen] at hlow
    rw [htake,value_append,hvalue,value_eq,htaillen,log2_shifted Nat.one_pos hlow]
    have hone : Nat.log2 1 = 0 := by decide
    omega
  have hnumber := getBitsLong_code h (ahead_number hcode) (by rw [bitsOf_length]; omega)
  rw [bitsOf_length,value_number] at hnumber
  have hzeros : 31 - (31 - Nat.log2 (v + 1)) = Nat.log2 (v + 1) := by omega
  rw [getUeGolombLong,showBitsLong,hshown]
  dsimp only
  rw [hcount,hzeros,hnumber]
  dsimp only
  rw [ueCode_length,Prod.mk.injEq]
  omega

end Codes

end ZenMedia.GetBits
